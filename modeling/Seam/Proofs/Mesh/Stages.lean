import Seam.Proofs.Mesh.PerFace
import Seam.Proofs.Mesh.Refusal

set_option autoImplicit false

namespace Seam.Mesh

def Plan.moving (vertices : Nat) (move : Nat → Nat) (table : List Vertex) : Plan :=
  ⟨table.length, (List.range vertices).map move, none, some table⟩

def movedFace (move : Nat → Nat) (refs : List Nat) : List Nat := collapsed (refs.map move)

theorem moved_face_again (first second : Nat → Nat) (refs : List Nat) :
    movedFace second (movedFace first refs) = movedFace (second ∘ first) refs := by
  rw [movedFace, movedFace, collapsed_moved, List.map_map, movedFace]

section Moving

variable (vertices : Nat) (move : Nat → Nat) (table : List Vertex) (s : EdgeSet)

theorem moving_image (v : Nat) (below : v < vertices) : fetch (Plan.moving vertices move table).image v = .ok (move v) :=
  (fetch_eq_ok_iff _ _ _).mpr (by simp [Plan.moving, below])

theorem lay_face_moving (refs : List Nat) (inside : ∀ v ∈ refs, v < vertices) :
    (Plan.moving vertices move table).layFace s refs = .ok (movedFace move refs) := by
  have laid := fold_m_ok ((Plan.moving vertices move table).laySide s) (fun chain side => extend chain (move side.1)) (sides refs)
    (fun chain side member => ?_) []
  · simp only [Plan.layFace, laid, bind, Except.bind, pure, Except.pure]
    rw [movedFace, ← close_up_laid, ← sides_starts refs, List.map_map, List.foldl_map, sides_starts]
    rfl
  · obtain ⟨first, second⟩ := sides_inside refs side.1 side.2 member
    have start := moving_image vertices move table side.1 (inside _ first)
    have stop := moving_image vertices move table side.2 (inside _ second)
    simp only [Plan.laySide, Plan.between, start, stop, bind, Except.bind, pure, Except.pure]
    rfl

theorem merge_moving (m : Mesh) (valid : m.check = .ok ()) (faces : List (List Nat)) (found : m.faces = .ok faces)
    (below : ∀ v < m.vertexCount, move v < table.length) :
    m.merge s (.moving m.vertexCount move table) =
      .ok ({ m with vertices := table }.withFaces (faces.map (movedFace move))) := by
  let plan := Plan.moving m.vertexCount move table
  have image : plan.checkImage m = .ok () := by
    rw [Plan.check_image_ok_iff]
    simpa [plan, Plan.moving] using below
  have insertions : plan.checkInsertions m s = .ok () := rfl
  have records : plan.vertices m = .ok table := if_pos rfl
  have laid : faces.mapM (plan.layFace s) = .ok (faces.map (movedFace move)) :=
    map_m_ok _ _ faces fun refs member =>
      lay_face_moving m.vertexCount move table s refs (faces_inside m valid faces found refs member)
  simp only [merge_by_face, valid, image, insertions, records, found, laid, bind, Except.bind, pure, Except.pure, plan]

end Moving

-- Moving the vertices twice, each time with a table of the new ones, is moving them once by both moves and with the
-- second table.
theorem merge_in_stages (m : Mesh) (valid : m.check = .ok ()) (first second : Nat → Nat) (between final : List Vertex)
    (below : ∀ v < m.vertexCount, first v < between.length) (below' : ∀ v < between.length, second v < final.length)
    (s s' s'' : EdgeSet) :
    ∃ halfway result, m.merge s (.moving m.vertexCount first between) = .ok halfway ∧
      halfway.merge s' (.moving between.length second final) = .ok result ∧
      m.merge s'' (.moving m.vertexCount (second ∘ first) final) = .ok result := by
  obtain ⟨faces, laid⟩ := (check_ok_iff m).mp valid
  have found := faces_laid m faces laid.count laid.index laid.refs
  have stage := merge_moving first between s m valid faces found below
  have stageValid := merge_check _ s m _ stage
  have stageFaces : ({ m with vertices := between }.withFaces (faces.map (movedFace first))).faces =
      .ok (faces.map (movedFace first)) :=
    faces_laid _ _ ((List.length_map ..).trans laid.count) rfl rfl
  have again := merge_moving second final s' _ stageValid _ stageFaces below'
  have once := merge_moving (second ∘ first) final s'' m valid faces found fun v inside => below' _ (below v inside)
  have same : (faces.map (movedFace first)).map (movedFace second) = faces.map (movedFace (second ∘ first)) := by
    rw [List.map_map]
    exact List.map_congr_left fun refs _ => moved_face_again first second refs
  rw [same] at again
  exact ⟨_, _, stage, again, once⟩

def ribbon : Mesh :=
  { empty "ribbon" with
    faceGnums := [1], faceIndex := [0, 5], faceRefs := [0, 1, 2, 3, 4]
    vertices := (List.range 5).map fun i => ⟨.ofNat (i + 1), ⟨0⟩, ⟨⟨0⟩, ⟨0⟩, ⟨0⟩⟩⟩ }

theorem ribbon_folds_in_stages :
    let first := fun v => [0, 1, 1, 2, 0].getD v 0
    let second := fun v => [0, 1, 0].getD v 0
    let between := ribbon.vertices.take 3
    let final := ribbon.vertices.take 2
    ribbon.check = .ok () ∧ (∀ v < 5, first v < between.length) ∧ (∀ v < between.length, second v < final.length) ∧
      ∃ halfway result, ribbon.merge .empty (.moving 5 first between) = .ok halfway ∧ halfway.faces = .ok [[0, 1, 2]] ∧
        halfway.merge .empty (.moving 3 second final) = .ok result ∧
        ribbon.merge .empty (.moving 5 (second ∘ first) final) = .ok result ∧ result.faces = .ok [[0, 1]] := by
  intro first second between final
  have valid : ribbon.check = .ok () := by decide
  have below : ∀ v < 5, first v < between.length := by decide
  have below' : ∀ v < between.length, second v < final.length := by decide
  obtain ⟨halfway, result, one, two, once⟩ :=
    merge_in_stages ribbon valid first second between final below below' .empty .empty .empty
  have triangle : (ribbon.merge .empty (.moving 5 first between) >>= Mesh.faces) = .ok [[0, 1, 2]] := by
    rw [merge_by_face]
    decide
  have folded : (ribbon.merge .empty (.moving 5 (second ∘ first) final) >>= Mesh.faces) = .ok [[0, 1]] := by
    rw [merge_by_face]
    decide
  rw [show ribbon.merge .empty (.moving 5 first between) = .ok halfway from one] at triangle
  rw [show ribbon.merge .empty (.moving 5 (second ∘ first) final) = .ok result from once] at folded
  exact ⟨valid, below, below', halfway, result, one, triangle, two, once, folded⟩

end Seam.Mesh
