import Seam.Proofs.Mesh.Collapse
import Seam.Proofs.Mesh.Compaction
import Seam.Proofs.Mesh.Extraction
import Seam.Proofs.Mesh.PerFace
import Seam.Proofs.Mesh.Plans
import Seam.Proofs.Mesh.Tolerances

set_option autoImplicit false

namespace Seam.Mesh

theorem with_faces_check (m : Mesh) (faces : List (List Nat)) (count : faces.length = m.faceCount)
    (inside : ∀ row ∈ faces, ∀ v ∈ row, v < m.vertexCount) : (m.withFaces faces).check = .ok () :=
  (check_ok_iff _).mpr ⟨faces, count, rfl, rfl, inside⟩

theorem same_index_check (m other : Mesh) (valid : m.check = .ok ()) (index : other.faceIndex = m.faceIndex)
    (faces : other.faceCount = m.faceCount) (refs : other.faceRefs.length = m.faceRefs.length)
    (inside : ∀ v ∈ other.faceRefs, v < other.vertexCount) : other.check = .ok () := by
  obtain ⟨rows, laid⟩ := (check_ok_iff m).mp valid
  have indexed : m.checkIndex = .ok () := (check_index_ok_iff m).mpr ⟨rows, laid.count, laid.index, laid.refs⟩
  have same : other.checkIndex = m.checkIndex := by simp only [checkIndex, index, faces, refs]
  obtain ⟨others, count, fits, split⟩ := (check_index_ok_iff other).mp (same.trans indexed)
  refine (check_ok_iff other).mpr ⟨others, count, fits, split, fun row listed v member => inside v ?_⟩
  rw [split]
  exact List.mem_flatten.mpr ⟨row, listed, member⟩

theorem more_vertices_check (m : Mesh) (valid : m.check = .ok ()) (vertices : List Vertex)
    (enough : m.vertexCount ≤ vertices.length) : ({ m with vertices }).check = .ok () :=
  same_index_check m _ valid rfl rfl rfl fun v member => Nat.lt_of_lt_of_le (refs_inside m valid v member) enough

theorem empty_check (name : String) : (empty name).check = .ok () := with_faces_check (empty name) [] rfl (by simp)

theorem push_vertex_check (m : Mesh) (valid : m.check = .ok ()) (v : Vertex) : (m.pushVertex v).1.check = .ok () :=
  more_vertices_check m valid _ (by simp [vertexCount])

theorem push_face_eq (m : Mesh) (gnum : UInt64) (refs : List Nat) : m.pushFace gnum refs =
    match refs.find? fun v => m.vertexCount ≤ v with
    | some v => refuse (.vertexOutOfRange m.faceCount v m.vertexCount)
    | none => .ok (m.appendFace gnum refs, m.faceCount) := by
  rw [pushFace, pushingFace, Edit.outcome_get_bind]
  cases refs.find? fun v => decide (m.vertexCount ≤ v) <;> rfl

theorem pushing_face_atomic (m : Mesh) (gnum : UInt64) (refs : List Nat) : (pushingFace gnum refs).Atomic m := by
  refine Edit.atomic_get_bind m _ ?_
  split
  · exact Edit.atomic_throw m _
  · exact Edit.atomic_of_ok _ m m.faceCount rfl

theorem push_face_check (m result : Mesh) (valid : m.check = .ok ()) (gnum : UInt64) (refs : List Nat) (f : Nat)
    (ok : m.pushFace gnum refs = .ok (result, f)) : result.check = .ok () := by
  obtain ⟨rows, laid⟩ := (check_ok_iff m).mp valid
  rw [push_face_eq] at ok
  cases stray : refs.find? fun v => decide (m.vertexCount ≤ v) with
  | some v =>
      rw [stray] at ok
      cases ok
  | none =>
      rw [stray] at ok
      obtain rfl : m.appendFace gnum refs = result := congrArg Prod.fst (Except.ok.inj ok)
      have start : m = ({ m with faceGnums := m.faceGnums } : Mesh).withFaces rows := by rw [withFaces, ← laid.index, ← laid.refs]
      have pushed := append_faces m m.faceGnums rows [(gnum, refs)]
      rw [← start] at pushed
      have whole : m.appendFace gnum refs = _ := pushed
      rw [whole]
      refine with_faces_check _ _ (by simp [laid.count, faceCount]) fun row listed v member => ?_
      rcases List.mem_append.mp listed with old | new
      · exact laid.inside row old v member
      · obtain rfl : row = refs := by simpa using new
        have bound := List.find?_eq_none.mp stray v member
        rw [decide_eq_true_eq, not_le] at bound
        exact bound

theorem subset_checked (name : String) (selection : List Nat) (parent result : Mesh)
    (ok : subset name selection parent = .ok result) :
    parent.check = .ok () ∧ selection.IsChain (· < ·) ∧ ∀ f ∈ selection, f < parent.faceCount := by
  obtain ⟨_, valid, ok⟩ := bind_ok _ _ _ ok
  have rising := Ragged.first_break_none_iff (fun a b : Nat => decide (a < b)) selection
  cases breaks : Ragged.firstBreak (fun a b => decide (a < b)) selection with
  | some place =>
      rw [breaks] at ok
      cases ok
  | none =>
      rw [breaks] at ok
      cases stray : selection.find? fun f => decide (parent.faceCount ≤ f) with
      | some f =>
          rw [stray] at ok
          cases ok
      | none => exact ⟨valid, by simpa using rising.mp breaks, by simpa using stray⟩

theorem subset_check (name : String) (selection : List Nat) (parent result : Mesh)
    (ok : subset name selection parent = .ok result) : result.check = .ok () := by
  obtain ⟨valid, rising, inside⟩ := subset_checked name selection parent result ok
  obtain ⟨piece, done, cut⟩ := subset_cuts name selection parent valid rising inside
  obtain rfl := Except.ok.inj (done.symm.trans ok)
  exact cut.valid

theorem extract_check (name : String) (e : Extract) (result : Mesh) (ok : e.mesh name = .ok result) :
    result.check = .ok () := by
  have consistent := e.consistent_of_mesh name result ok
  obtain rfl : e.extracted name = result := Except.ok.inj ((e.mesh_consistent name consistent).symm.trans ok)
  exact (check_ok_iff _).mpr ⟨_, e.extracted_laid name consistent⟩

theorem compact_check (m result : Mesh) (removed : Nat) (ok : m.compact = .ok (result, removed)) : result.check = .ok () := by
  cases valid : m.check with
  | error e =>
      have refused : m.compact = .error e := Edit.outcome_refused m Mesh.check _ e valid
      cases ok.symm.trans refused
  | ok _ =>
      obtain ⟨_, done, spec⟩ := compact_spec m valid
      obtain rfl := congrArg Prod.fst (Except.ok.inj (done.symm.trans ok))
      exact spec.valid

theorem mem_extend (chain : List Nat) (v w : Nat) (member : w ∈ extend chain v) : w ∈ chain ∨ w = v := by
  rw [extend] at member
  split at member
  · exact .inl member
  · simpa using member

theorem mem_fold_extend (chain refs : List Nat) (w : Nat) (member : w ∈ refs.foldl extend chain) : w ∈ chain ∨ w ∈ refs := by
  induction refs generalizing chain with
  | nil => exact .inl member
  | cons v refs ih =>
      rcases ih (extend chain v) member with front | later
      · exact (mem_extend chain v w front).imp_right fun same => by simp [same]
      · exact .inr (List.mem_cons_of_mem v later)

theorem mem_close_up (chain : List Nat) (w : Nat) (member : w ∈ closeUp chain) : w ∈ chain := by
  cases chain with
  | nil => exact member
  | cons first rest =>
      rw [closeUp, List.mem_cons, List.mem_reverse] at member
      refine List.mem_cons.mpr (member.imp_right fun inner => ?_)
      exact List.mem_reverse.mp ((List.dropWhile_suffix _).mem inner)

theorem collapse_check (m result : Mesh) (removed : Nat) (ok : m.collapse = .ok (result, removed)) : result.check = .ok () := by
  obtain ⟨rows, laid, rfl⟩ := collapse_done m result removed ok
  refine with_faces_check m _ (by rw [List.length_map, laid.count]) ?_
  rw [List.forall_mem_map]
  intro row member v listed
  rw [← close_up_laid] at listed
  rcases mem_fold_extend [] row v (mem_close_up _ v listed) with none | inRow
  · cases none
  · exact laid.inside row member v inRow

theorem canonical_check (m result : Mesh) (dropped : Nat) (ok : m.canonical = .ok (result, dropped)) : result.check = .ok () := by
  cases valid : m.check with
  | error e =>
      have refused : m.canonical = .error e := Edit.outcome_refused m Mesh.check _ e valid
      cases ok.symm.trans refused
  | ok _ =>
      have spec := canonical_spec m valid
      rw [ok] at spec
      exact spec.valid

section Merging

theorem row_mem (index items row : List Nat) (i : Nat) (ok : Ragged.row index items i = .ok row) : ∀ v ∈ row, v ∈ items := by
  obtain ⟨start, _, ok⟩ := bind_ok _ _ _ ok
  obtain ⟨stop, _, ok⟩ := bind_ok _ _ _ ok
  intro v member
  unfold slice at ok
  split at ok
  · obtain rfl := Except.ok.inj ok
    exact List.mem_of_mem_take (List.mem_of_mem_drop member)
  · cases ok

variable (p : Plan)

structure Plan.Bounded : Prop where
  image : ∀ v ∈ p.image, v < p.newVertices
  planned : ∀ ins, p.insertions = some ins → ∀ v ∈ ins.vertices, v < p.newVertices

theorem check_insertions_bound (m : Mesh) (s : EdgeSet) (ok : p.checkInsertions m s = .ok ()) (ins : Insertions)
    (given : p.insertions = some ins) : ∀ v ∈ ins.vertices, v < p.newVertices := by
  simp only [Plan.checkInsertions, given] at ok
  split at ok
  · cases ok
  obtain ⟨rows, rfl, _, below⟩ := (ins.check_ok_iff _ _).mp ok
  exact List.forall_mem_flatten.mpr below

variable (bounded : p.Bounded) (s : EdgeSet)

include bounded

theorem between_bound (a b : Nat) (planned : List Nat) (ok : p.between s a b = .ok planned) :
    ∀ v ∈ planned, v < p.newVertices := by
  cases given : p.insertions with
  | none =>
      obtain rfl : [] = planned := by simpa [Plan.between, given] using ok
      simp
  | some ins =>
      simp only [Plan.between, given] at ok
      split at ok
      · obtain rfl := Except.ok.inj ok
        simp
      obtain ⟨number, _, ok⟩ := bind_ok _ _ _ ok
      obtain ⟨edge, _, ok⟩ := bind_ok _ _ _ ok
      obtain ⟨row, onEdge, ok⟩ := bind_ok _ _ _ ok
      have inside : ∀ v ∈ row, v < p.newVertices := fun v member =>
        bounded.planned ins given v (row_mem _ _ _ _ onEdge v member)
      obtain rfl := Except.ok.inj ok
      split
      · exact inside
      · exact fun v member => inside v (List.mem_reverse.mp member)

theorem lay_side_bound (chain laid : List Nat) (side : Nat × Nat) (below : ∀ v ∈ chain, v < p.newVertices)
    (ok : p.laySide s chain side = .ok laid) : ∀ v ∈ laid, v < p.newVertices := by
  obtain ⟨start, first, ok⟩ := bind_ok _ _ _ ok
  obtain ⟨stop, _, ok⟩ := bind_ok _ _ _ ok
  obtain ⟨planned, between, ok⟩ := bind_ok _ _ _ ok
  obtain rfl := Except.ok.inj ok
  intro v member
  rcases mem_fold_extend _ _ v member with front | inserted
  · rcases mem_extend chain start v front with old | rfl
    · exact below v old
    · exact bounded.image v (List.mem_of_getElem? ((fetch_eq_ok_iff _ _ _).mp first))
  · exact between_bound p bounded s side.1 side.2 planned between v (List.mem_of_mem_filter inserted)

theorem lay_face_bound (refs laid : List Nat) (ok : p.layFace s refs = .ok laid) : ∀ v ∈ laid, v < p.newVertices := by
  obtain ⟨chain, sides, ok⟩ := bind_ok _ _ _ ok
  obtain rfl := Except.ok.inj ok
  have below := fold_m_holds (p.laySide s) (fun chain => ∀ v ∈ chain, v < p.newVertices)
    (fun chain side laid => lay_side_bound p bounded s chain laid side) _ [] chain (by simp) sides
  exact fun v member => below v (mem_close_up chain v member)

omit bounded in
theorem merge_check (m result : Mesh) (ok : m.merge s p = .ok result) : result.check = .ok () := by
  rw [merge_by_face] at ok
  obtain ⟨_, _, ok⟩ := bind_ok _ _ _ ok
  obtain ⟨_, image, ok⟩ := bind_ok _ _ _ ok
  obtain ⟨_, insertions, ok⟩ := bind_ok _ _ _ ok
  obtain ⟨vertices, made, ok⟩ := bind_ok _ _ _ ok
  obtain ⟨rows, found, ok⟩ := bind_ok _ _ _ ok
  obtain ⟨faces, laid, ok⟩ := bind_ok _ _ _ ok
  obtain rfl := Except.ok.inj ok
  obtain ⟨length, below⟩ := (p.check_image_ok_iff m).mp image
  have bounded : p.Bounded := ⟨below, check_insertions_bound p m s insertions⟩
  have count : rows.length = m.faceCount := by rw [map_m_length _ _ _ found, List.length_range]
  refine with_faces_check { m with vertices } faces ((map_m_length _ _ _ laid).trans count) ?_
  rw [vertexCount, (p.vertices_provide m length below vertices made).count]
  exact map_m_all _ _ (fun refs row => lay_face_bound p bounded s refs row) _ _ laid

end Merging

theorem shorten_length (lengths shorter : List Binary64) (v : Nat) (len : Binary64) (ok : shorten lengths v len = .ok shorter) :
    shorter.length = lengths.length := by
  obtain ⟨_, _, ok⟩ := bind_ok _ _ _ ok
  exact store_length lengths shorter v _ ok

theorem shortest_length (m : Mesh) (s : EdgeSet) (lengths : List Binary64) (ok : m.shortest s = .ok lengths) :
    lengths.length = m.vertexCount := by
  refine fold_m_holds m.shortenEnds (fun lengths => lengths.length = m.vertexCount) (fun before ends after same step => ?_) s.ends _
    lengths List.length_replicate ok
  obtain ⟨first, _, step⟩ := bind_ok _ _ _ step
  obtain ⟨second, _, step⟩ := bind_ok _ _ _ step
  obtain ⟨middle, atFirst, atSecond⟩ := bind_ok _ _ _ step
  rw [shorten_length middle after ends.2 _ atSecond, shorten_length before middle ends.1 _ atFirst, same]

theorem setting_tolerances_atomic (m : Mesh) (s : EdgeSet) (fraction : Binary64) : (settingTolerances s fraction).Atomic m := by
  refine Edit.atomic_get_bind m _ ?_
  split
  · exact fun _ _ => rfl
  · exact Edit.atomic_look_bind m _ _ fun _ _ => Edit.atomic_of_ok _ m () rfl

theorem tolerances_check (m result : Mesh) (valid : m.check = .ok ()) (s : EdgeSet) (fraction : Binary64)
    (ok : m.setTolerances s fraction = .ok result) : result.check = .ok () := by
  rw [set_tolerances_eq] at ok
  split at ok
  · cases ok
  obtain ⟨lengths, shortest, rfl⟩ := map_ok _ _ _ ok
  refine more_vertices_check m valid _ ?_
  rw [List.length_zipWith, shortest_length m s lengths shortest]
  exact Nat.le_of_eq (Nat.min_self _).symm

end Seam.Mesh
