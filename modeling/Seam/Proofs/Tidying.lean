import Seam.Proofs.Group.Arrangement
import Seam.Proofs.Mesh.Compaction

set_option autoImplicit false

namespace Seam

namespace Mesh

-- The canonical layout without the vertices that no face uses, with the number of faces dropped.
def tidied (m : Mesh) : Result (Mesh × Nat) := do
  let (laid, dropped) ← m.canonical
  let (compacted, _) ← laid.compact
  return (compacted, dropped)

def bare (m : Mesh) : Mesh := { m with name := "", globalFaces := 0, globalVertices := 0 }

def bared (result : Result (Mesh × Nat)) : Result (Mesh × Nat) := result.map fun (m, dropped) => (m.bare, dropped)

def titled (name : String) (result : Result (Mesh × Nat)) : Result (Mesh × Nat) :=
  result.map fun (m, dropped) => ({ m with name }, dropped)

theorem bared_titled (name : String) (result : Result (Mesh × Nat)) : bared (titled name result) = bared result := by
  cases result <;> rfl

theorem titled_bind {α : Type} (name : String) (first : Result α) (next : α → Result (Mesh × Nat)) :
    titled name (first >>= next) = first >>= fun value => titled name (next value) := by
  cases first <;> rfl

theorem canonical_titled (m : Mesh) (name : String) : ({ m with name } : Mesh).canonical = titled name m.canonical := by
  simp only [canonical, arranging, Edit.outcome_get_bind, Edit.outcome_look_bind, titled_bind]
  rfl

section Used

variable (m : Mesh) (valid : m.check = .ok ())

include valid

theorem used_iff_named (distinct : (m.vertices.map Vertex.gnum).Nodup) (v : Vertex) :
    v ∈ m.usedVertices ↔ v ∈ m.vertices ∧ ∃ key ∈ m.faceKeys, v.gnum ∈ key.2 := by
  constructor
  · intro used
    refine ⟨used_held m v used, ?_⟩
    rw [← facets_records m valid] at used
    obtain ⟨item, listed, among⟩ := List.mem_flatMap.mp used
    exact ⟨facetKey item, List.mem_map_of_mem listed, List.mem_map_of_mem among⟩
  · rintro ⟨member, key, known, named⟩
    obtain ⟨item, listed, rfl⟩ := List.mem_map.mp known
    obtain ⟨w, among, same⟩ := List.mem_map.mp named
    have used : w ∈ m.usedVertices := facets_records m valid ▸ List.mem_flatMap.mpr ⟨item, listed, among⟩
    rwa [← List.inj_on_of_nodup_map distinct (used_held m w used) member same]

theorem used_arranged (distinct : (m.vertices.map Vertex.gnum).Nodup) (laid : Mesh) (dropped : Nat)
    (arranged : Arranged m laid dropped) (v : Vertex) : v ∈ laid.usedVertices ↔ v ∈ m.usedVertices := by
  have apart := arranged_distinct m laid dropped arranged distinct
  rw [used_iff_named m valid distinct, used_iff_named laid arranged.valid apart, arranged.vertices.mem_iff]
  simp only [arranged.faces.same]

theorem tidied_ends : (∃ result, m.tidied = .ok result) ∨
    ∃ gnum, m.canonical = refuse (.inconsistentFace gnum) ∧ m.tidied = refuse (.inconsistentFace gnum) := by
  have spec := canonical_spec m valid
  cases sorted : m.canonical with
  | ok result =>
      rw [sorted] at spec
      obtain ⟨removed, compacted, _⟩ := compact_spec result.1 spec.valid
      refine .inl ⟨(result.1.compacted, result.2), ?_⟩
      simp only [tidied, sorted, compacted, bind, Except.bind]
      rfl
  | error e =>
      rw [sorted] at spec
      obtain ⟨gnum, rfl, _⟩ := spec
      refine .inr ⟨gnum, rfl, ?_⟩
      simp only [tidied, sorted, bind, Except.bind]
      rfl

end Used

end Mesh

section Rebuilding

open Mesh

variable (whole : Mesh) (valid : whole.check = .ok ()) (distinct : (whole.vertices.map Vertex.gnum).Nodup)
variable (items : List Facet) (same : items.Perm whole.facets) (name : String)

include same

theorem rebuilt_keys : ((Assembly.empty.addFacets items).mesh name).faceKeys.Perm whole.faceKeys := by
  rw [Assembly.assembled_keys]
  exact same.map facetKey

include valid distinct

theorem rebuilt_vertices (laid sorted : Mesh) (dropped count : Nat) (first : Arranged whole laid dropped)
    (second : Arranged ((Assembly.empty.addFacets items).mesh name) sorted count) :
    sorted.vertices = laid.compacted.vertices := by
  have ascends := arranged_ascends _ sorted count second (Assembly.assembled_holds items name).distinct
  refine ascending_agree Vertex.gnum _ _ ascends (compacted_ascends laid) fun v => ?_
  rw [second.vertices.mem_iff, Assembly.assembled_vertices_iff, compacted_vertices]
  refine LeastCopy.congr _ _ v fun copy => ?_
  rw [used_arranged whole valid distinct laid dropped first, ← facets_records whole valid]
  exact (same.flatMap_right Prod.snd).mem_iff

theorem rebuilt_arranged (laid sorted : Mesh) (dropped count : Nat) (first : Arranged whole laid dropped)
    (second : Arranged ((Assembly.empty.addFacets items).mesh name) sorted count) :
    (sorted.bare, count) = (laid.compacted.bare, dropped) := by
  obtain ⟨_, _, compacted⟩ := compact_spec laid first.valid
  have keys := rebuilt_keys whole items same name
  have kept : sorted.faceKeys = laid.faceKeys := representatives_agree _ _ _ _ (fun _ => keys.mem_iff) second.faces first.faces
  have apart := arranged_distinct _ sorted count second (Assembly.assembled_holds items name).distinct
  have vertices := rebuilt_vertices whole valid distinct items same name laid sorted dropped count first second
  have equal : sorted.bare = laid.compacted.bare :=
    determined _ _ second.valid compacted.valid rfl rfl rfl vertices apart (kept.trans compacted.faces.symm)
  have faces := congrArg List.length kept
  have total := keys.length_eq
  rw [face_keys_length _ second.valid, face_keys_length _ first.valid] at faces
  rw [face_keys_length _ (Assembly.assembled_check items name), face_keys_length _ valid] at total
  rw [equal, second.dropped, first.dropped, faces, total]

theorem rebuilt_canonical : bared ((Assembly.empty.addFacets items).mesh name).canonical = bared whole.tidied := by
  have keys := rebuilt_keys whole items same name
  have both := canonical_both whole _ valid (Assembly.assembled_check items name) fun _ => keys.mem_iff.symm
  rcases both with ⟨gnum, fails, failsToo⟩ | ⟨laid, dropped, sorted, count, ends, endsToo, first, second⟩
  · rw [tidied, fails, failsToo]
    rfl
  · obtain ⟨_, compacted, _⟩ := compact_spec laid first.valid
    have equal := rebuilt_arranged whole valid distinct items same name laid sorted dropped count first second
    rw [endsToo]
    simp only [tidied, ends, compacted, bind, Except.bind]
    exact congrArg Except.ok equal

end Rebuilding

end Seam
