import Seam.Proofs.Assembly
import Seam.Proofs.Mesh.Facets

set_option autoImplicit false

namespace Seam.Mesh

open Assembly (Names)

abbrev FaceKey := UInt64 × List UInt64

def facetKey (item : Facet) : FaceKey := (item.1, item.2.map Vertex.gnum)

def faceKeys (m : Mesh) : List FaceKey := m.facets.map facetKey

theorem names_look (vertices : List Vertex) (row : List Nat) (inside : ∀ v ∈ row, v < vertices.length) :
    Names (vertices.map Vertex.gnum) row ((look vertices row).map Vertex.gnum) := by
  induction row with
  | nil => exact .nil
  | cons v row ih =>
      have bound := inside v (by simp)
      have rest := ih fun other member => inside other (by simp [member])
      rw [look, List.filterMap_cons, List.getElem?_eq_getElem bound]
      exact .cons (by simp [bound]) rest

theorem names_functional (numbers : List UInt64) (row : List Nat) (first second : List UInt64)
    (left : Names numbers row first) (right : Names numbers row second) : first = second := by
  induction left generalizing second with
  | nil => cases right; rfl
  | cons head _ ih =>
      cases right with
      | cons other rest => rw [Option.some.inj (head.symm.trans other), ih _ rest]

theorem names_mem (numbers : List UInt64) (row : List Nat) (named : List UInt64) (names : Names numbers row named)
    (number : UInt64) (member : number ∈ named) : ∃ v ∈ row, numbers[v]? = some number := by
  induction names with
  | nil => cases member
  | cons head _ ih =>
      rcases List.mem_cons.mp member with rfl | later
      · exact ⟨_, by simp, head⟩
      · obtain ⟨v, listed, found⟩ := ih later
        exact ⟨v, List.mem_cons_of_mem _ listed, found⟩

theorem names_injective (numbers : List UInt64) (distinct : numbers.Nodup) (row other : List Nat) (named : List UInt64)
    (left : Names numbers row named) (right : Names numbers other named) : row = other := by
  induction left generalizing other with
  | nil => cases right; rfl
  | cons head _ ih =>
      cases right with
      | cons next rest =>
          have bound := (List.getElem?_eq_some_iff.mp head).1
          rw [(List.getElem?_inj bound distinct).mp (head.trans next.symm), ih _ rest]

section Laid

variable (m : Mesh) (rows : List (List Nat)) (laid : m.Laid rows)

include laid

theorem face_keys_laid :
    m.faceKeys = List.zipWith (fun gnum row => (gnum, (look m.vertices row).map Vertex.gnum)) m.faceGnums rows := by
  rw [faceKeys, facets_laid m rows laid, List.map_zipWith]
  rfl

theorem face_keys_numbers : m.faceKeys.map Prod.fst = m.faceGnums := by
  rw [face_keys_laid m rows laid, List.map_zipWith]
  refine List.ext_getElem (by simp [laid.count, faceCount]) fun f _ _ => ?_
  simp

theorem face_keys_names :
    List.Forall₂ (fun row key => Names (m.vertices.map Vertex.gnum) row key.2) rows m.faceKeys := by
  have count : rows.length = m.faceGnums.length := laid.count
  rw [face_keys_laid m rows laid]
  refine List.forall₂_iff_get.mpr ⟨by simp [count], fun f bound _ => ?_⟩
  simp only [List.get_eq_getElem, List.getElem_zipWith]
  exact names_look m.vertices rows[f] fun v member => laid.inside rows[f] (List.getElem_mem bound) v member

theorem face_keys_unique (keys : List FaceKey) (numbers : m.faceGnums = keys.map Prod.fst)
    (named : List.Forall₂ (fun row key => Names (m.vertices.map Vertex.gnum) row key.2) rows keys) : m.faceKeys = keys := by
  have known := face_keys_names m rows laid
  have first := face_keys_numbers m rows laid
  refine List.ext_getElem (known.length_eq.symm.trans named.length_eq) fun f bound other => ?_
  have boundRow : f < rows.length := named.length_eq ▸ other
  refine Prod.ext ?_ (names_functional _ _ _ _ (known.get boundRow bound) (named.get boundRow other))
  have same := congrArg (fun list => list[f]?) (first.trans numbers)
  simpa [bound, other] using same

end Laid

theorem face_keys_length (m : Mesh) (valid : m.check = .ok ()) : m.faceKeys.length = m.faceCount := by
  rw [faceKeys, List.length_map, facets_length m valid]

theorem determined_by_numbers (a b : Mesh) (validA : a.check = .ok ()) (validB : b.check = .ok ()) (name : a.name = b.name)
    (globalFaces : a.globalFaces = b.globalFaces) (globalVertices : a.globalVertices = b.globalVertices)
    (numbers : a.vertices.map Vertex.gnum = b.vertices.map Vertex.gnum) (distinct : (a.vertices.map Vertex.gnum).Nodup)
    (keys : a.faceKeys = b.faceKeys) : b = { a with vertices := b.vertices } := by
  obtain ⟨rows, laidA⟩ := (check_ok_iff a).mp validA
  obtain ⟨others, laidB⟩ := (check_ok_iff b).mp validB
  have faceNumbers : a.faceGnums = b.faceGnums := by
    rw [← face_keys_numbers a rows laidA, ← face_keys_numbers b others laidB, keys]
  have same : rows = others := by
    have namesA := face_keys_names a rows laidA
    have namesB := face_keys_names b others laidB
    rw [← numbers, ← keys] at namesB
    refine List.ext_getElem (namesA.length_eq.trans namesB.length_eq.symm) fun f bound other => ?_
    have boundKey : f < a.faceKeys.length := namesA.length_eq ▸ bound
    exact names_injective _ distinct _ _ _ (namesA.get bound boundKey) (namesB.get other boundKey)
  have index : a.faceIndex = b.faceIndex := by rw [laidA.index, laidB.index, same]
  have refs : a.faceRefs = b.faceRefs := by rw [laidA.refs, laidB.refs, same]
  cases a
  cases b
  simp only at name globalFaces globalVertices faceNumbers index refs
  rw [name, globalFaces, globalVertices, faceNumbers, index, refs]

theorem determined (a b : Mesh) (validA : a.check = .ok ()) (validB : b.check = .ok ()) (name : a.name = b.name)
    (globalFaces : a.globalFaces = b.globalFaces) (globalVertices : a.globalVertices = b.globalVertices)
    (vertices : a.vertices = b.vertices) (distinct : (a.vertices.map Vertex.gnum).Nodup) (keys : a.faceKeys = b.faceKeys) :
    a = b := by
  have same := determined_by_numbers a b validA validB name globalFaces globalVertices (congrArg _ vertices) distinct keys
  rw [same, ← vertices]

end Seam.Mesh
