import Seam.Mesh.Merge
import Seam.Proofs.Edit
import Seam.Proofs.Mesh.Chains
import Seam.Proofs.Mesh.Layout

set_option autoImplicit false

namespace Seam.Mesh

def Plan.laySide (p : Plan) (s : EdgeSet) (chain : List Nat) (side : Nat × Nat) : Result (List Nat) := do
  let start ← fetch p.image side.1
  let stop ← fetch p.image side.2
  let planned ← p.between s side.1 side.2
  return (planned.filter (· ≠ stop)).foldl extend (extend chain start)

def Plan.layFace (p : Plan) (s : EdgeSet) (refs : List Nat) : Result (List Nat) := do
  return closeUp (← (sides refs).foldlM (p.laySide s) [])

section OneList

variable (before : List Nat)

theorem plant_append (stop : Nat) (chain : List Nat) (v : Nat) (begun : chain ≠ []) :
    Plan.plant stop (before ++ chain) v = before ++ if v ≠ stop then extend chain v else chain := by
  have ends : (before ++ chain).getLast? = chain.getLast? := List.getLast?_append_of_ne_nil before begun
  by_cases ahead : v = stop
  · rw [Plan.plant, if_neg fun both => both.2 ahead, if_neg (not_not.mpr ahead)]
  · rw [if_pos ahead]
    by_cases same : chain.getLast? = some v
    · rw [Plan.plant, ends, if_neg fun both => both.1 same, extend, if_pos same]
    · rw [Plan.plant, ends, if_pos ⟨same, ahead⟩, extend, if_neg same, List.append_assoc]

theorem extend_ne_nil (chain : List Nat) (v : Nat) : extend chain v ≠ [] := by
  intro empty
  have ends := extend_last chain v
  rw [empty] at ends
  cases ends

theorem plant_all (stop : Nat) (chain planned : List Nat) (begun : chain ≠ []) :
    planned.foldl (Plan.plant stop) (before ++ chain) = before ++ (planned.filter (· ≠ stop)).foldl extend chain := by
  induction planned generalizing chain with
  | nil => rfl
  | cons v planned ih =>
      rw [List.foldl_cons, plant_append before stop chain v begun]
      by_cases ahead : v = stop
      · rw [if_neg (not_not.mpr ahead), List.filter_cons_of_neg (by simpa using ahead), ih chain begun]
      · rw [if_pos ahead, List.filter_cons_of_pos (by simpa using ahead), ih _ (extend_ne_nil chain v), List.foldl_cons]

variable (p : Plan) (s : EdgeSet)

theorem lay_side_append (chain : List Nat) (side : Nat × Nat) :
    p.laySideFrom s before.length (before ++ chain) side = (p.laySide s chain side).map (before ++ ·) := by
  rw [Plan.laySideFrom, Plan.laySide]
  cases fetch p.image side.1 with
  | error e => rfl
  | ok first =>
      cases fetch p.image side.2 with
      | error e => rfl
      | ok stop =>
          cases p.between s side.1 side.2 with
          | error e => rfl
          | ok planned =>
              simp only [bind, Except.bind, pure, Except.pure, Except.map, extend_from_append,
                plant_all before stop _ planned (extend_ne_nil chain first)]

theorem lay_sides_append (walked : List (Nat × Nat)) (chain : List Nat) :
    walked.foldlM (p.laySideFrom s before.length) (before ++ chain) = (walked.foldlM (p.laySide s) chain).map (before ++ ·) := by
  induction walked generalizing chain with
  | nil => rfl
  | cons side walked ih =>
      rw [List.foldlM_cons, List.foldlM_cons, lay_side_append]
      cases p.laySide s chain side with
      | error e => rfl
      | ok next => exact ih next

end OneList

section Faces

variable (p : Plan) (s : EdgeSet)

-- On the list behind the faces that are done, a face comes out as if it were laid alone.
theorem lay_face_behind (done : List (List Nat)) (refs : List Nat) :
    p.layFaceOnto s (.laid done) refs = (p.layFace s refs).map fun row => .laid (done ++ [row]) := by
  have walk := lay_sides_append done.flatten p s (sides refs) []
  rw [List.append_nil] at walk
  simp only [Plan.layFaceOnto, Ragged.Rows.laid, walk, Plan.layFace]
  cases (sides refs).foldlM (p.laySide s) [] with
  | error e => rfl
  | ok chain =>
      simp only [Except.map, bind, Except.bind, pure, Except.pure, close_from_append, Ragged.Rows.close, Ragged.index,
        Ragged.boundaries_snoc, List.flatten_append, List.flatten_singleton, Nat.zero_add]

theorem lay_faces_behind (done faces : List (List Nat)) :
    faces.foldlM (p.layFaceOnto s) (.laid done) = (faces.mapM (p.layFace s)).map fun rows => .laid (done ++ rows) := by
  induction faces generalizing done with
  | nil =>
      rw [List.mapM_nil]
      exact congrArg Except.ok (congrArg Ragged.Rows.laid (List.append_nil done).symm)
  | cons refs faces ih =>
      rw [List.foldlM_cons, lay_face_behind, map_m_cons]
      cases p.layFace s refs with
      | error e => rfl
      | ok row =>
          refine (ih (done ++ [row])).trans ?_
          cases faces.mapM (p.layFace s) with
          | error e => rfl
          | ok rows => simp only [Except.map, bind, Except.bind, pure, Except.pure, List.append_assoc, List.singleton_append]

end Faces

section Merging

variable (m : Mesh) (s : EdgeSet) (p : Plan)

theorem merge_by_face : m.merge s p = do
    m.check
    p.checkImage m
    p.checkInsertions m s
    let vertices ← p.vertices m
    let faces ← (← m.faces).mapM (p.layFace s)
    return { m with vertices }.withFaces faces := by
  have start : (Ragged.Rows.blank : Ragged.Rows Nat) = .laid [] := rfl
  simp only [merge, merging, Edit.outcome_get_bind, Edit.outcome_look_bind, Edit.outcome_modify_bind, Edit.outcome_modify, start,
    lay_faces_behind]
  cases m.check with
  | error e => rfl
  | ok _ =>
      cases p.checkImage m with
      | error e => rfl
      | ok _ =>
          cases p.checkInsertions m s with
          | error e => rfl
          | ok _ =>
              cases p.vertices m with
              | error e => rfl
              | ok vertices =>
                  cases m.faces with
                  | error e => rfl
                  | ok faces =>
                      simp only [bind, Except.bind]
                      cases faces.mapM (p.layFace s) <;> rfl

theorem merging_atomic : (merging s p).Atomic m := by
  refine Edit.atomic_get_bind _ _ (Edit.atomic_look_bind _ _ _ fun _ _ => Edit.atomic_look_bind _ _ _ fun _ _ => ?_)
  refine Edit.atomic_look_bind _ _ _ fun _ _ => Edit.atomic_look_bind _ _ _ fun vertices _ => ?_
  refine Edit.atomic_look_bind _ _ _ fun faces _ => Edit.atomic_look_bind _ _ _ fun rows _ => ?_
  exact Edit.atomic_of_ok _ _ () rfl

theorem merge_refused_iff (e : Failure) : m.merge s p = .error e ↔ (merging s p).result m = .error e := by
  rw [← Edit.outcome_error_iff, merge]
  cases (merging s p).outcome m <;> simp [Except.map]

end Merging

end Seam.Mesh
