import Seam.Mesh.Basic
import Seam.Proofs.Ragged

set_option autoImplicit false

namespace Seam.Mesh

def withFaces (m : Mesh) (faces : List (List Nat)) : Mesh :=
  { m with faceIndex := Ragged.index faces, faceRefs := faces.flatten }

theorem append_faces (m : Mesh) (gnums : List UInt64) (rows : List (List Nat)) (items : List (UInt64 × List Nat)) :
    items.foldl (fun m item => m.appendFace item.1 item.2) ({ m with faceGnums := gnums }.withFaces rows) =
      { m with faceGnums := gnums ++ items.map Prod.fst }.withFaces (rows ++ items.map Prod.snd) := by
  induction items generalizing gnums rows with
  | nil => simp
  | cons item items ih =>
      have first : ({ m with faceGnums := gnums }.withFaces rows).appendFace item.1 item.2 =
          { m with faceGnums := gnums ++ [item.1] }.withFaces (rows ++ [item.2]) := by
        have closed := Ragged.boundaries_snoc 0 rows item.2
        rw [Nat.zero_add] at closed
        simp only [appendFace, endFace, withFaces, Ragged.index, closed, List.flatten_append, List.flatten_singleton]
      rw [List.foldl_cons, first, ih, List.map_cons, List.map_cons, List.append_assoc, List.append_assoc, List.singleton_append,
        List.singleton_append]

structure Laid (m : Mesh) (rows : List (List Nat)) : Prop where
  count : rows.length = m.faceCount
  index : m.faceIndex = Ragged.index rows
  refs : m.faceRefs = rows.flatten
  inside : ∀ row ∈ rows, ∀ v ∈ row, v < m.vertexCount

theorem check_index_fits (m : Mesh) :
    m.checkIndex = .ok () ↔ Ragged.fits m.faceIndex m.faceCount m.faceRefs.length = true := by
  by_cases length : m.faceIndex.length = m.faceCount + 1
  · obtain ⟨start, stop, first, head, last, ends⟩ := Ragged.ends_found m.faceIndex m.faceCount length
    by_cases starts : start = 0
    · cases falls : Ragged.firstBreak (fun a b => decide (a ≤ b)) m.faceIndex with
      | some place => simp [checkIndex, Ragged.fits, length, first, head, starts, falls, refuse, bind, Except.bind]
      | none =>
          by_cases stops : stop = m.faceRefs.length <;>
            simp [checkIndex, Ragged.fits, length, first, head, last, ends, starts, falls, stops, refuse, pure, Except.pure,
              bind, Except.bind]
    · simp [checkIndex, Ragged.fits, length, first, head, starts, refuse, bind, Except.bind]
  · simp [checkIndex, Ragged.fits, length, refuse, bind, Except.bind]

theorem check_index_ok_iff (m : Mesh) : m.checkIndex = .ok () ↔
    ∃ rows : List (List Nat), rows.length = m.faceCount ∧ m.faceIndex = Ragged.index rows ∧ m.faceRefs = rows.flatten := by
  rw [check_index_fits]
  constructor
  · exact Ragged.fits_rows m.faceIndex m.faceCount m.faceRefs
  · rintro ⟨rows, count, index, refs⟩
    rw [index, refs, ← count]
    exact Ragged.fits_index rows

theorem first_stray_none_iff (vertices : Nat) (faces : List (List Nat)) :
    firstStray vertices faces = none ↔ ∀ row ∈ faces, ∀ v ∈ row, v < vertices := by
  simp only [firstStray, List.findSome?_eq_none_iff, Option.map_eq_none_iff, List.find?_eq_none, decide_eq_true_eq, not_le]
  constructor
  · intro inside row member
    obtain ⟨f, found⟩ := List.getElem?_of_mem member
    exact inside (row, f) (List.mem_zipIdx_iff_getElem?.mpr found)
  · intro inside item member
    exact inside item.1 (List.mem_of_getElem? (List.mem_zipIdx_iff_getElem?.mp member))

theorem face_laid (m : Mesh) (rows : List (List Nat)) (index : m.faceIndex = Ragged.index rows)
    (refs : m.faceRefs = rows.flatten) (f : Nat) (row : List Nat) (found : rows[f]? = some row) : m.face f = .ok row := by
  rw [face, index, refs]
  exact Ragged.row_index rows f row found

theorem faces_laid (m : Mesh) (rows : List (List Nat)) (count : rows.length = m.faceCount)
    (index : m.faceIndex = Ragged.index rows) (refs : m.faceRefs = rows.flatten) : m.faces = .ok rows := by
  have each : ∀ f ∈ List.range m.faceCount, m.face f = .ok ((rows[f]?).getD []) := by
    intro f member
    have bound : f < rows.length := count ▸ List.mem_range.mp member
    exact face_laid m rows index refs f _ (by simp [bound])
  rw [faces, map_m_ok m.face _ _ each]
  refine congrArg Except.ok (List.ext_getElem (by simp [count]) fun f _ bound => ?_)
  simp [bound]

theorem check_ok_iff (m : Mesh) : m.check = .ok () ↔ ∃ rows, m.Laid rows := by
  constructor
  · intro ok
    cases indexed : m.checkIndex with
    | error e => simp [check, indexed, bind, Except.bind] at ok
    | ok _ =>
        obtain ⟨rows, count, index, refs⟩ := (check_index_ok_iff m).mp indexed
        refine ⟨rows, count, index, refs, ?_⟩
        simp only [check, indexed, faces_laid m rows count index refs, bind, Except.bind] at ok
        rw [← first_stray_none_iff]
        cases stray : firstStray m.vertexCount rows with
        | none => rfl
        | some place => simp [stray, refuse] at ok
  · rintro ⟨rows, laid⟩
    have indexed := (check_index_ok_iff m).mpr ⟨rows, laid.count, laid.index, laid.refs⟩
    have inside := (first_stray_none_iff m.vertexCount rows).mpr laid.inside
    simp [check, indexed, faces_laid m rows laid.count laid.index laid.refs, inside, bind, Except.bind]

theorem refs_inside (m : Mesh) (valid : m.check = .ok ()) : ∀ v ∈ m.faceRefs, v < m.vertexCount := by
  obtain ⟨rows, laid⟩ := (check_ok_iff m).mp valid
  intro v member
  obtain ⟨row, listed, inRow⟩ := List.mem_flatten.mp (laid.refs ▸ member)
  exact laid.inside row listed v inRow

end Seam.Mesh
