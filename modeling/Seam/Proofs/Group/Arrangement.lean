import Seam.Proofs.Group.SerialEquivalence
import Seam.Proofs.Mesh.Leading

set_option autoImplicit false

namespace Seam

namespace Assembly

open Mesh (facetKey)

theorem assembled_keys (items : List Facet) (name : String) :
    ((empty.addFacets items).mesh name).faceKeys = items.map facetKey := by
  obtain ⟨rows, laid, named⟩ := assembled_laid items name
  refine Mesh.face_keys_unique _ rows laid _ ?_ ?_
  · rw [assembled_names, List.map_map]
    rfl
  · rw [List.forall₂_map_right_iff]
    exact named

theorem assembled_covered (items : List Facet) (name : String) : ((empty.addFacets items).mesh name).Covered := by
  have holds := assembled_holds items name
  intro v member
  have number : v.gnum ∈ (items.flatMap Prod.snd).map Vertex.gnum := by
    rw [← List.mem_eraseDups, ← holds.order]
    exact List.mem_map_of_mem member
  obtain ⟨copy, listed, same⟩ := List.mem_map.mp number
  obtain ⟨item, known, among⟩ := List.mem_flatMap.mp listed
  refine ⟨facetKey item, ?_, List.mem_map.mpr ⟨copy, among, same⟩⟩
  rw [assembled_keys]
  exact List.mem_map_of_mem known

theorem assembled_vertices_iff (items : List Facet) (name : String) (v : Vertex) :
    v ∈ ((empty.addFacets items).mesh name).vertices ↔ LeastCopy (items.flatMap Prod.snd) v := by
  have holds := assembled_holds items name
  refine ⟨holds.least v, fun least => ?_⟩
  have number : v.gnum ∈ ((empty.addFacets items).mesh name).vertices.map Vertex.gnum := by
    rw [holds.order, List.mem_eraseDups]
    exact List.mem_map_of_mem least.held
  obtain ⟨w, found, same⟩ := List.mem_map.mp number
  rwa [LeastCopy.unique _ _ v w least (holds.least w found) same.symm fun _ => Iff.rfl]

section Orders

variable (items others : List Facet) (name : String) (same : items.Perm others)

include same

theorem assembled_vertices :
    ((empty.addFacets items).mesh name).vertices.Perm ((empty.addFacets others).mesh name).vertices := by
  refine (List.perm_ext_iff_of_nodup ?_ ?_).mpr fun v => ?_
  · exact (assembled_holds items name).distinct.of_map
  · exact (assembled_holds others name).distinct.of_map
  · rw [assembled_vertices_iff, assembled_vertices_iff]
    exact LeastCopy.congr _ _ v fun _ => (same.flatMap_right Prod.snd).mem_iff

theorem assembled_canonical :
    ((empty.addFacets items).mesh name).canonical = ((empty.addFacets others).mesh name).canonical := by
  have vertices := assembled_vertices items others name same
  have keys : ((empty.addFacets items).mesh name).faceKeys.Perm ((empty.addFacets others).mesh name).faceKeys := by
    rw [assembled_keys, assembled_keys]
    exact same.map facetKey
  have valid := assembled_check items name
  have validOther := assembled_check others name
  refine Mesh.canonical_agrees _ _ valid validOther rfl ?_ ?_ vertices (assembled_holds items name).distinct keys
  · have counts := keys.length_eq
    rw [Mesh.face_keys_length _ valid, Mesh.face_keys_length _ validOther] at counts
    exact congrArg UInt64.ofNat counts
  · exact congrArg UInt64.ofNat vertices.length_eq

end Orders

end Assembly

namespace Selection

theorem answers_unique {n : Nat} (index : List UInt64) (meshes : Fin n → Mesh) (sorted : index.IsChain (· ≤ ·))
    (owner other : Fin n) (gnum : UInt64) (item second : Facet) (first : Answers index meshes owner gnum item)
    (again : Answers index meshes other gnum second) : item = second := by
  obtain ⟨_, ⟨low, high, atLow, atHigh, above, upTo, rfl, _⟩, facet⟩ := first
  obtain ⟨_, ⟨base, top, atBase, atTop, aboveBase, upToTop, rfl, _⟩, found⟩ := again
  have holder := owner_of_within index sorted owner gnum ⟨low, high, atLow, atHigh, above, upTo⟩
  have same := owner_of_within index sorted other gnum ⟨base, top, atBase, atTop, aboveBase, upToTop⟩
  obtain rfl : owner = other := Fin.ext (Option.some.inj (holder.symm.trans same))
  obtain rfl := Option.some.inj (atLow.symm.trans atBase)
  exact Except.ok.inj (facet.symm.trans found)

theorem chosen_unique {n : Nat} (index : List UInt64) (meshes : Fin n → Mesh) (sorted : index.IsChain (· ≤ ·))
    (selection : List UInt64) (items others : List Facet) (first : Chosen index meshes selection items)
    (second : Chosen index meshes selection others) : items = others := by
  induction first generalizing others with
  | nil => cases second; rfl
  | cons head _ ih =>
      cases second with
      | cons next rest =>
          obtain ⟨owner, answers⟩ := head
          obtain ⟨other, again⟩ := next
          rw [answers_unique index meshes sorted owner other _ _ _ answers again, ih _ rest]

-- A rank has selected these faces under this name and got a mesh, by itself or among any number of ranks that each go at
-- their own pace.
inductive Obtained (name : String) (items : List Facet) (mesh : Mesh) : Prop where
  | alone (selection index : List UInt64) (whole : Mesh) (chosen : Chosen index (fun _ : Fin 1 => whole) selection items)
      (got : (select Seat.solo name selection index whole).alone.mesh = .ok mesh)
  | grouped {n : Nat} (index : List UInt64) (meshes : Fin n → Mesh) (selections : Fin n → List UInt64) (names : Fin n → String)
      (me : Fin n) (named : names me = name) (chosen : Chosen index meshes (selections me) items) (net : Network n Outcome)
      (reaches : Network.Reaches (Network.start (running index meshes selections names)) net) (outcome : Outcome)
      (ended : net.stages me = .ended outcome) (got : outcome.mesh = .ok mesh)

theorem obtained_in_group {n : Nat} (index : List UInt64) (meshes : Fin n → Mesh) (selections : Fin n → List UInt64)
    (names : Fin n → String) (me : Fin n) (net : Network n Outcome)
    (reaches : Network.Reaches (Network.start (running index meshes selections names)) net) (outcome : Outcome) (mesh : Mesh)
    (ended : net.stages me = .ended outcome) (got : outcome.mesh = .ok mesh) :
    ∃ items, Chosen index meshes (selections me) items ∧ Obtained (names me) items mesh := by
  obtain ⟨_, items, _, chosen⟩ := ended_answers index meshes selections names net reaches me outcome mesh ended got
  exact ⟨items, chosen, .grouped index meshes selections names me rfl chosen net reaches outcome ended got⟩

theorem obtained_alone (name : String) (selection index : List UInt64) (whole mesh : Mesh)
    (got : (select Seat.solo name selection index whole).alone.mesh = .ok mesh) :
    ∃ items, Chosen index (fun _ : Fin 1 => whole) selection items ∧ Obtained name items mesh := by
  have picks := got
  rw [select_silent Seat.solo _ _ _ _ rfl] at picks
  obtain ⟨_, items, _, chosen⟩ :=
    picked_answers index (fun _ : Fin 1 => whole) (fun _ => selection) (fun _ => name) rfl 0 mesh picks
  exact ⟨items, chosen, .alone selection index whole chosen got⟩

theorem obtained_assembled (name : String) (items : List Facet) (mesh : Mesh) (obtained : Obtained name items mesh) :
    mesh = (Assembly.empty.addFacets items).mesh name := by
  cases obtained with
  | alone selection index whole chosen got =>
      rw [select_silent Seat.solo _ _ _ _ rfl] at got
      obtain ⟨sorted, others, rfl, answered⟩ :=
        picked_answers index (fun _ : Fin 1 => whole) (fun _ => selection) (fun _ => name) rfl 0 mesh got
      rw [chosen_unique index _ sorted selection items others chosen answered]
  | grouped index meshes selections names me named chosen net reaches outcome ended got =>
      obtain ⟨sorted, others, rfl, answered⟩ := ended_answers index meshes selections names net reaches me outcome mesh ended got
      rw [chosen_unique index meshes sorted (selections me) items others chosen answered, named]

-- Two ranks that selected the same faces, in whatever runs, have the same mesh after sorting, or find the same fault.
theorem sorted_selection_ignores_ranks (name : String) (items others : List Facet) (mesh other : Mesh)
    (first : Obtained name items mesh) (second : Obtained name others other) (same : items.Perm others) :
    mesh.canonical = other.canonical ∧
      ((∃ laid dropped, mesh.canonical = .ok (laid, dropped) ∧ laid.compact = .ok (laid, 0)) ∨
        ∃ gnum, mesh.canonical = refuse (.inconsistentFace gnum)) := by
  obtain rfl := obtained_assembled name items mesh first
  obtain rfl := obtained_assembled name others other second
  refine ⟨Assembly.assembled_canonical items others name same, ?_⟩
  have spec := Mesh.canonical_spec _ (Assembly.assembled_check items name)
  cases ends : ((Assembly.empty.addFacets items).mesh name).canonical with
  | ok result =>
      rw [ends] at spec
      refine .inl ⟨result.1, result.2, rfl, ?_⟩
      exact Mesh.compact_arranged _ _ _ spec (Assembly.assembled_holds items name).distinct (Assembly.assembled_covered items name)
  | error e =>
      rw [ends] at spec
      obtain ⟨gnum, rfl, _⟩ := spec
      exact .inr ⟨gnum, rfl⟩

def spot : Mesh :=
  { Mesh.empty "spot" with
    faceGnums := [2], faceIndex := [0, 1], faceRefs := [0], vertices := [⟨7, ⟨1⟩, ⟨⟨0⟩, ⟨0⟩, ⟨0⟩⟩⟩] }

def speckFacet : Facet := (1, speck.vertices)
def spotFacet : Facet := (2, spot.vertices)

theorem obtained_from_two_ranks : ∃ mesh, Obtained "picked" [speckFacet, spotFacet] mesh := by
  have spread : Spread [0, 1, 2] ![speck, spot] := by
    refine ⟨rfl, by decide, by decide, ?_⟩
    intro me low high
    fin_cases me <;> simp <;> rintro rfl rfl <;> decide
  have covered : ∀ me, Covered 2 [0, 1, 2] (![[1, 2], []] me) := by
    intro me
    fin_cases me <;> exact ⟨by decide, by simp⟩
  have short : ShortRequests [0, 1, 2] ![[1, 2], []] := short_selections _ _ (by decide)
  have light : ShortAnswers [0, 1, 2] ![speck, spot] ![[1, 2], []] := by
    intro holder requester
    fin_cases holder <;> fin_cases requester <;> simp [answersTo, share, first_speck_owned, second_speck_owned] <;> decide
  have steps := select_lockstep (fun _ : Fin 2 => "picked") ![[1, 2], []] (fun _ => [0, 1, 2]) ![speck, spot] (by decide)
    (light_of_short _ _ short)
  have got := selected_gathers [0, 1, 2] ![speck, spot] ![[1, 2], []] (fun _ => "picked") spread 0 covered short light
  have chosen : Chosen [0, 1, 2] ![speck, spot] [1, 2] [speckFacet, spotFacet] :=
    .cons ⟨0, 0, ⟨0, 1, rfl, rfl, by decide, by decide, rfl, by decide⟩, rfl⟩
      (.cons ⟨1, 0, ⟨1, 2, rfl, rfl, by decide, by decide, rfl, by decide⟩, rfl⟩ .nil)
  exact ⟨_, .grouped [0, 1, 2] ![speck, spot] ![[1, 2], []] (fun _ => "picked") 0 rfl chosen _
    (Group.lockstep_reaches _ _ steps) _ rfl got⟩

theorem obtained_from_one_mesh : ∃ mesh, Obtained "picked" [spotFacet, speckFacet] mesh := by
  have chosen : Chosen [0, 2] (fun _ : Fin 1 => Mesh.concat [spot, speck]) [1, 2] [spotFacet, speckFacet] :=
    .cons ⟨0, 0, ⟨0, 2, rfl, rfl, by decide, by decide, rfl, by decide⟩, rfl⟩
      (.cons ⟨0, 1, ⟨0, 2, rfl, rfl, by decide, by decide, rfl, by decide⟩, rfl⟩ .nil)
  exact ⟨_, .alone [1, 2] [0, 2] (Mesh.concat [spot, speck]) chosen rfl⟩

def pair (gnums : List UInt64) : Mesh :=
  { Mesh.empty "picked" with
    globalFaces := 2, faceGnums := gnums, faceIndex := [0, 1, 2], faceRefs := [0, 0], globalVertices := 1
    vertices := speck.vertices }

theorem speck_and_spot_sort_alike :
    Obtained "picked" [speckFacet, spotFacet] (pair [1, 2]) ∧ Obtained "picked" [spotFacet, speckFacet] (pair [2, 1]) ∧
      (pair [1, 2]).canonical = .ok (pair [1, 2], 0) ∧ (pair [2, 1]).canonical = .ok (pair [1, 2], 0) ∧
      (pair [1, 2]).compact = .ok (pair [1, 2], 0) := by
  obtain ⟨mesh, first⟩ := obtained_from_two_ranks
  obtain ⟨other, second⟩ := obtained_from_one_mesh
  obtain rfl : mesh = pair [1, 2] := obtained_assembled "picked" _ mesh first
  obtain rfl : other = pair [2, 1] := obtained_assembled "picked" _ other second
  obtain ⟨same, ends⟩ := sorted_selection_ignores_ranks "picked" [speckFacet, spotFacet] [spotFacet, speckFacet] _ _
    first second (.swap spotFacet speckFacet [])
  have sorted : (pair [1, 2]).canonical = .ok (pair [1, 2], 0) :=
    Mesh.canonical_stays (pair [1, 2]) (List.pairwise_singleton _ _) (by decide) (by decide)
  rw [sorted] at same ends
  refine ⟨first, second, sorted, same.symm, ?_⟩
  rcases ends with ⟨laid, dropped, known, compacted⟩ | ⟨gnum, fails⟩
  · cases known
    exact compacted
  · cases fails

end Selection

end Seam
