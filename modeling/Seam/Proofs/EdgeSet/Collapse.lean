import Seam.Proofs.EdgeSet.Touching
import Seam.Proofs.Mesh.Collapse

set_option autoImplicit false

namespace Seam.EdgeSet

open Mesh (proper collapsed sides_collapsed)

theorem discover_proper (known walked : List (Nat × Nat)) : discover known (proper walked) = discover known walked := by
  fun_induction discover known walked with
  | case1 known => rfl
  | case2 known a b rest old ih =>
      by_cases flat : a = b
      · rwa [proper, List.filter_cons_of_neg (by simpa using flat)]
      · rw [proper, List.filter_cons_of_pos (by simpa using flat), discover, if_pos old]
        exact ih
  | case3 known a b rest new ih =>
      have different : a ≠ b := fun flat => new (.inl flat)
      rw [proper, List.filter_cons_of_pos (by simpa using different), discover, if_neg new]
      exact ih

theorem of_faces_collapsed (faces : List (List Nat)) : ofFaces (faces.map collapsed) = ofFaces faces := by
  have each : (faces.map collapsed).flatMap (fun refs => proper (sides refs)) = faces.flatMap fun refs => proper (sides refs) := by
    rw [List.flatMap_map]
    exact List.flatMap_congr fun refs _ => sides_collapsed refs
  simp only [ofFaces]
  rw [← discover_proper [] ((faces.map collapsed).flatMap sides), ← discover_proper [] (faces.flatMap sides), proper, proper,
    List.filter_flatMap, List.filter_flatMap]
  exact congrArg (discover []) each

theorem touch_sides_proper (s : EdgeSet) (f : Nat) (perEdge : List (List Nat)) (refs : List Nat) :
    s.touchSides f perEdge refs = (proper (sides refs)).foldlM (fun perEdge (a, b) => do
      touch perEdge (← edgeOf (← s.number a b)) f) perEdge := by
  rw [proper, List.foldlM_filter]
  refine fold_m_congr _ _ _ (fun before side _ => ?_) perEdge
  by_cases flat : side.1 = side.2
  · simp [flat]
  · simp [flat]

theorem touch_sides_collapsed (s : EdgeSet) (f : Nat) (perEdge : List (List Nat)) (refs : List Nat) :
    s.touchSides f perEdge (collapsed refs) = s.touchSides f perEdge refs := by
  rw [touch_sides_proper, sides_collapsed, ← touch_sides_proper]

theorem touching_faces_collapsed (m : Mesh) (faces : List (List Nat)) (laid : m.Laid faces) (s : EdgeSet) :
    touchingFaces (m.withFaces (faces.map collapsed)) s = touchingFaces m s := by
  refine fold_m_congr _ _ (List.range m.faceCount) (fun perEdge f member => ?_) _
  have bound : f < faces.length := laid.count ▸ List.mem_range.mp member
  have before := Mesh.face_laid m faces laid.index laid.refs f faces[f] (List.getElem?_eq_getElem bound)
  have after := Mesh.face_laid (m.withFaces (faces.map collapsed)) (faces.map collapsed) rfl rfl f (collapsed faces[f])
    (by rw [List.getElem?_map, List.getElem?_eq_getElem bound, Option.map_some])
  rw [before, after]
  exact touch_sides_collapsed s f perEdge faces[f]

-- Where the zero-length sides can be removed, the same edges are found before and after, and the same faces at the edges of any
-- edge set. There are results to compare as long as the numbers of edges fit into signed words.
theorem collapse_keeps_edges (m result : Mesh) (removed : Nat) (done : m.collapse = .ok (result, removed)) :
    ∃ s, ofMesh m = .ok s ∧ ofMesh result = .ok s ∧ (∀ t, touchingRows result t = touchingRows m t) ∧
      (2 * s.edgeCount < UInt64.size → ∃ index list, touchingRows m s = .ok (index, list)) := by
  obtain ⟨faces, laid, rfl⟩ := Mesh.collapse_done m result removed done
  have after := Mesh.collapsed_faces_laid m faces laid
  have found := Mesh.faces_laid m faces laid.count laid.index laid.refs
  have foundAfter := Mesh.faces_laid _ _ after.count after.index after.refs
  have edges := of_mesh_ok m ((Mesh.check_ok_iff m).mpr ⟨faces, laid⟩) faces found
  have edgesAfter := of_mesh_ok _ ((Mesh.check_ok_iff _).mpr ⟨_, after⟩) _ foundAfter
  rw [of_faces_collapsed] at edgesAfter
  refine ⟨_, edges, edgesAfter, fun t => ?_, fun narrow => ?_⟩
  · rw [touchingRows, touchingRows, touching_faces_collapsed m faces laid t]
  · have recorded := touching_faces_at m faces laid narrow
    exact ⟨_, _, by rw [touchingRows, recorded]; rfl⟩

theorem frill_keeps_edges :
    Mesh.frill.collapse = .ok (Mesh.frill.withFaces [[0, 1, 2], [0, 3, 2]], 5) ∧
      ∃ s, ofMesh Mesh.frill = .ok s ∧ s.ends = [(0, 1), (1, 2), (2, 0), (0, 3), (3, 2)] ∧
        ofMesh (Mesh.frill.withFaces [[0, 1, 2], [0, 3, 2]]) = .ok s ∧
        touchingRows (Mesh.frill.withFaces [[0, 1, 2], [0, 3, 2]]) s = .ok ([0, 1, 2, 4, 5, 6], [0, 0, 0, 1, 1, 1]) := by
  have laid : Mesh.frill.Laid [[0, 0, 1, 2, 2, 0, 0], [0, 3, 3, 2]] := ⟨rfl, rfl, rfl, by decide⟩
  have done : Mesh.frill.collapse = .ok (Mesh.frill.withFaces [[0, 1, 2], [0, 3, 2]], 5) :=
    (Mesh.collapse_full Mesh.frill _ laid (by decide)).trans (by decide)
  obtain ⟨s, before, after, same, adjacent⟩ := collapse_keeps_edges Mesh.frill _ 5 done
  obtain rfl : s = .ofEnds 4 [(0, 1), (1, 2), (2, 0), (0, 3), (3, 2)] := Except.ok.inj (before.symm.trans (by decide))
  obtain ⟨index, list, rows⟩ := adjacent (by decide)
  have pair : (index, list) = ([0, 1, 2, 4, 5, 6], [0, 0, 0, 1, 1, 1]) := Except.ok.inj (rows.symm.trans (by decide))
  exact ⟨done, _, before, rfl, after, (same _).trans (pair ▸ rows)⟩

end Seam.EdgeSet
