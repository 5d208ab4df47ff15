import Seam.Proofs.Mesh.PerFace
import Seam.Proofs.Mesh.Refusal

set_option autoImplicit false

namespace Seam.Mesh

-- The new vertices planned on the way from `a` to `b`. The row of an edge runs in the direction in which it was found.
def plannedWay (ends : List (Nat × Nat)) (rows : List (List Nat)) (a b : Nat) : List Nat :=
  if a = b then []
  else if (a, b) ∈ ends then rows.getD (ends.idxOf (a, b)) []
  else (rows.getD (ends.idxOf (b, a)) []).reverse

def rewrittenSide (ends : List (Nat × Nat)) (rows : List (List Nat)) (image : List Nat) (side : Nat × Nat) : List Nat :=
  image.getD side.1 0 :: (plannedWay ends rows side.1 side.2).filter (· ≠ image.getD side.2 0)

def rewritten (ends : List (Nat × Nat)) (rows : List (List Nat)) (image refs : List Nat) : List Nat :=
  collapsed ((sides refs).flatMap (rewrittenSide ends rows image))

section Laying

variable (p : Plan) (vertices : Nat) (ends : List (Nat × Nat)) (rows : List (List Nat)) (oneWay : EdgeSet.OneWay ends)
  (within : ∀ a b, (a, b) ∈ ends → a < vertices ∧ b < vertices) (narrow : 2 * ends.length < UInt64.size)
  (inserts : p.Inserts ends.length rows)

include oneWay within narrow inserts

theorem between_planned (a b : Nat) (known : a ≠ b → (a, b) ∈ ends ∨ (b, a) ∈ ends) :
    p.between (EdgeSet.ofEnds vertices ends) a b = .ok (plannedWay ends rows a b) := by
  cases given : p.insertions with
  | none =>
      have nothing : rows = [] := by simpa [Plan.Inserts, given] using inserts
      simp [Plan.between, given, plannedWay, nothing]
  | some ins =>
      obtain ⟨rfl, length⟩ : ins = .ofRows rows ∧ rows.length = ends.length := by
        rw [Plan.Inserts, given] at inserts
        exact ⟨inserts.1, inserts.2.1⟩
      by_cases same : a = b
      · simp [Plan.between, given, plannedWay, same]
      have planned (edge : Nat × Nat) (member : edge ∈ ends) :
          (Insertions.ofRows rows).onEdge (ends.idxOf edge) = .ok (rows.getD (ends.idxOf edge) []) := by
        have bound : ends.idxOf edge < rows.length := length ▸ List.idxOf_lt_length_iff.mpr member
        exact Insertions.on_edge_rows rows _ _ (by simp [bound])
      simp only [Plan.between, given, if_neg same, plannedWay]
      by_cases forward : (a, b) ∈ ends
      · have number := EdgeSet.number_along vertices ends oneWay within narrow _ a b (List.getElem?_idxOf forward)
        have positive : (0 : Int) < (ends.idxOf (a, b) : Int) + 1 := by omega
        simp only [number, EdgeSet.edge_of_along, planned _ forward, bind, Except.bind, pure, Except.pure, if_pos forward,
          if_pos positive]
      · have backward := (known same).resolve_left forward
        have number := EdgeSet.number_against vertices ends oneWay within narrow _ b a (List.getElem?_idxOf backward)
        have negative : ¬ (0 : Int) < -((ends.idxOf (b, a) : Int) + 1) := by omega
        simp only [number, EdgeSet.edge_of_against, planned _ backward, bind, Except.bind, pure, Except.pure, if_neg forward,
          if_neg negative]

theorem lay_side_rewrites (chain : List Nat) (a b : Nat) (start : a < p.image.length) (stop : b < p.image.length)
    (known : a ≠ b → (a, b) ∈ ends ∨ (b, a) ∈ ends) :
    p.laySide (EdgeSet.ofEnds vertices ends) chain (a, b) = .ok ((rewrittenSide ends rows p.image (a, b)).foldl extend chain) := by
  have image (old : Nat) (bound : old < p.image.length) : fetch p.image old = .ok (p.image.getD old 0) :=
    (fetch_eq_ok_iff _ _ _).mpr (by simp [bound])
  simp only [Plan.laySide, image a start, image b stop,
    between_planned p vertices ends rows oneWay within narrow inserts a b known, bind, Except.bind, pure, Except.pure]
  rfl

theorem lay_face_rewrites (refs : List Nat) (inside : ∀ v ∈ refs, v < p.image.length)
    (known : ∀ a b, (a, b) ∈ sides refs → a ≠ b → (a, b) ∈ ends ∨ (b, a) ∈ ends) :
    p.layFace (EdgeSet.ofEnds vertices ends) refs = .ok (rewritten ends rows p.image refs) := by
  have laid := fold_m_ok (p.laySide (EdgeSet.ofEnds vertices ends))
    (fun chain side => (rewrittenSide ends rows p.image side).foldl extend chain) (sides refs) (fun chain side member => ?_) []
  · simp only [Plan.layFace, laid, bind, Except.bind, pure, Except.pure]
    rw [← List.foldl_flatMap, close_up_laid]
    rfl
  · obtain ⟨first, second⟩ := sides_inside refs side.1 side.2 member
    exact lay_side_rewrites p vertices ends rows oneWay within narrow inserts chain side.1 side.2 (inside _ first) (inside _ second)
      (known side.1 side.2 member)

end Laying

section Merging

variable (m : Mesh) (p : Plan) (faces : List (List Nat))

theorem fits_of_merge (result : Mesh) (ok : m.merge (.ofEnds m.vertexCount (EdgeSet.ofFaces faces)) p = .ok result) :
    ∃ rows, p.Fits m (EdgeSet.ofFaces faces).length rows := by
  rw [merge_by_face] at ok
  obtain ⟨_, _, ok⟩ := bind_ok _ _ _ ok
  obtain ⟨_, image, ok⟩ := bind_ok _ _ _ ok
  obtain ⟨_, insertions, ok⟩ := bind_ok _ _ _ ok
  obtain ⟨vertices, made, _⟩ := bind_ok _ _ _ ok
  obtain ⟨length, below⟩ := (p.check_image_ok_iff m).mp image
  obtain ⟨rows, inserts⟩ := (p.check_insertions_ok_iff m _ (EdgeSet.of_ends_vertex_count m.vertexCount _)).mp insertions
  exact ⟨rows, length, below, inserts, (p.vertices_ok_iff m length below).mp ⟨vertices, made⟩⟩

theorem merge_fitting (valid : m.check = .ok ()) (found : m.faces = .ok faces) (rows : List (List Nat))
    (fits : p.Fits m (EdgeSet.ofFaces faces).length rows) (narrow : 2 * (EdgeSet.ofFaces faces).length < UInt64.size) :
    ∃ vertices, p.Provides m vertices ∧ m.merge (.ofEnds m.vertexCount (EdgeSet.ofFaces faces)) p =
      .ok ({ m with vertices }.withFaces (faces.map (rewritten (EdgeSet.ofFaces faces) rows p.image))) := by
  obtain ⟨vertices, made⟩ := (p.vertices_ok_iff m fits.length fits.below).mpr fits.recorded
  have inside := faces_inside m valid faces found
  have laid : faces.mapM (p.layFace (.ofEnds m.vertexCount (EdgeSet.ofFaces faces))) =
      .ok (faces.map (rewritten (EdgeSet.ofFaces faces) rows p.image)) := by
    refine map_m_ok _ _ _ fun refs member => ?_
    exact lay_face_rewrites p m.vertexCount _ rows (EdgeSet.of_faces_one_way faces)
      (EdgeSet.of_faces_inside faces m.vertexCount inside) narrow fits.inserts refs
      (fun v listed => (inside refs member v listed).trans_eq fits.length.symm) (EdgeSet.of_faces_complete faces refs member)
  have image := (p.check_image_ok_iff m).mpr ⟨fits.length, fits.below⟩
  have insertions : p.checkInsertions m (.ofEnds m.vertexCount (EdgeSet.ofFaces faces)) = .ok () :=
    (p.check_insertions_ok_iff m _ (EdgeSet.of_ends_vertex_count m.vertexCount _)).mpr ⟨rows, fits.inserts⟩
  refine ⟨vertices, p.vertices_provide m fits.length fits.below vertices made, ?_⟩
  simp only [merge_by_face, valid, image, insertions, made, found, laid, bind, Except.bind, pure, Except.pure]

end Merging

theorem merge_rewrites (m : Mesh) (valid : m.check = .ok ()) :
    ∃ s faces, EdgeSet.ofMesh m = .ok s ∧ m.faces = .ok faces ∧ (2 * s.edgeCount < UInt64.size → ∀ p : Plan,
      (∀ rows, p.Fits m s.edgeCount rows → ∃ vertices result, p.Provides m vertices ∧ m.merge s p = .ok result ∧
        result = { m with vertices, faceIndex := result.faceIndex, faceRefs := result.faceRefs } ∧
        result.faces = .ok (faces.map (rewritten s.ends rows p.image))) ∧
      ((¬ ∃ rows, p.Fits m s.edgeCount rows) → ∃ cause, m.merge s p = refuse cause ∧ (merging s p).left m = m)) := by
  obtain ⟨faces, laid⟩ := (check_ok_iff m).mp valid
  have found := faces_laid m faces laid.count laid.index laid.refs
  have edges := EdgeSet.of_mesh_ok m valid faces found
  refine ⟨_, faces, edges, found, fun narrow p => ⟨fun rows fits => ?_, fun unfit => ?_⟩⟩
  · obtain ⟨vertices, provides, merged⟩ := merge_fitting m p faces valid found rows fits narrow
    refine ⟨vertices, _, provides, merged, rfl, ?_⟩
    exact faces_laid _ _ ((List.length_map ..).trans laid.count) rfl rfl
  · have small : (EdgeSet.ofEnds m.vertexCount (EdgeSet.ofFaces faces)).edgeCount < UInt64.size :=
      Nat.lt_of_le_of_lt (Nat.le_mul_of_pos_left _ Nat.two_pos) narrow
    have careful := merge_careful m p _ m edges small
    cases ends : m.merge (.ofEnds m.vertexCount (EdgeSet.ofFaces faces)) p with
    | ok result => exact absurd (fits_of_merge m p faces result ends) unfit
    | error e =>
        cases e with
        | outOfBounds => exact absurd ends careful.guarded
        | error cause => exact ⟨cause, rfl, merging_atomic m _ p _ ((merge_refused_iff m _ p _).mp ends)⟩

def wafer : Mesh :=
  { empty "wafer" with
    faceGnums := [1, 2], faceIndex := [0, 3, 6], faceRefs := [0, 1, 2, 0, 2, 1]
    vertices := (List.range 4).map fun i => ⟨.ofNat (i + 1), ⟨0⟩, ⟨⟨0⟩, ⟨0⟩, ⟨0⟩⟩⟩ }

theorem wafer_edge_split :
    let split : Plan := ⟨4, [0, 1, 2, 3], some (.ofRows [[], [3], []]), none⟩
    let stray : Plan := ⟨4, [0, 1, 2, 4], none, none⟩
    wafer.check = .ok () ∧ ∃ s, EdgeSet.ofMesh wafer = .ok s ∧ 2 * s.edgeCount < UInt64.size ∧
      (∃ result, wafer.merge s split = .ok result ∧ result.faces = .ok [[0, 1, 3, 2], [0, 2, 3, 1]]) ∧
      ∃ cause, wafer.merge s stray = refuse cause := by
  intro split stray
  have valid : wafer.check = .ok () := by decide
  obtain ⟨s, faces, edges, found, merges⟩ := merge_rewrites wafer valid
  obtain rfl : s = .ofEnds 4 [(0, 1), (1, 2), (2, 0)] := Except.ok.inj (edges.symm.trans (by decide))
  obtain rfl : faces = [[0, 1, 2], [0, 2, 1]] := Except.ok.inj (found.symm.trans (by decide))
  have narrow : 2 * (EdgeSet.ofEnds 4 [(0, 1), (1, 2), (2, 0)]).edgeCount < UInt64.size := by decide
  have covered : ∀ new < 4, new ∈ split.image := by decide
  have fits : split.Fits wafer 3 [[], [3], []] := ⟨rfl, by decide, ⟨rfl, rfl, by decide⟩, covered⟩
  have unfit : ¬ ∃ rows, stray.Fits wafer 3 rows := fun ⟨_, fits⟩ => absurd (fits.below 4 (by decide)) (by decide)
  obtain ⟨vertices, result, _, merged, _, rewrites⟩ := (merges narrow split).1 _ fits
  obtain ⟨cause, refused, _⟩ := (merges narrow stray).2 unfit
  exact ⟨valid, _, edges, narrow, ⟨result, merged, rewrites.trans (by decide)⟩, cause, refused⟩

end Seam.Mesh
