import Seam.Edit
import Seam.Proofs.Results

set_option autoImplicit false

namespace Seam.Edit

variable {σ α β : Type}

section Steps

variable (old : σ)

@[simp] theorem left_throw (e : Failure) : (throw e : Edit σ α).left old = old := (rfl)

@[simp] theorem result_get_bind (next : σ → Edit σ β) : (get >>= next).result old = (next old).result old := (rfl)

@[simp] theorem left_get_bind (next : σ → Edit σ β) : (get >>= next).left old = (next old).left old := (rfl)

theorem run_bind (first : Edit σ α) (next : α → Edit σ β) : (first >>= next).run.run old =
    match first.run.run old with
    | (.ok value, left) => (next value).run.run left
    | (.error e, left) => (.error e, left) := by
  rw [ExceptT.run_bind, StateT.run_bind]
  cases first.run.run old with
  | mk result left => cases result <;> rfl

theorem run_get_bind (next : σ → Edit σ β) : (get >>= next).run.run old = (next old).run.run old := (rfl)

@[simp] theorem ok_bind (value : α) (next : α → Edit σ β) : (ofResult (.ok value) >>= next) = next value := (rfl)

@[simp] theorem error_bind (e : Failure) (next : α → Edit σ β) : (ofResult (.error e) >>= next) = throw e := (rfl)

end Steps

section Ends

variable (edit : Edit σ α) (old : σ)

theorem outcome_ok_iff (new : σ) (value : α) :
    edit.outcome old = .ok (new, value) ↔ edit.result old = .ok value ∧ edit.left old = new := by
  rw [outcome]
  cases edit.result old with
  | error e => simp [Except.map]
  | ok found => simp [Except.map, and_comm]

theorem outcome_error_iff (e : Failure) : edit.outcome old = .error e ↔ edit.result old = .error e := by
  rw [outcome]
  cases edit.result old with
  | error cause => simp [Except.map]
  | ok found => simp [Except.map]

theorem outcome_of_run (new : σ) (value : α) (run : edit.run.run old = (.ok value, new)) : edit.outcome old = .ok (new, value) :=
  (outcome_ok_iff edit old new value).mpr ⟨congrArg Prod.fst run, congrArg Prod.snd run⟩

theorem outcome_get_bind (next : σ → Edit σ β) : (get >>= next).outcome old = (next old).outcome old := (rfl)

theorem outcome_modify (change : σ → σ) : (modify change : Edit σ PUnit).outcome old = .ok (change old, ()) := (rfl)

theorem outcome_modify_bind (change : σ → σ) (next : PUnit → Edit σ β) :
    (modify change >>= next).outcome old = (next ()).outcome (change old) := (rfl)

theorem outcome_look_bind (look : Result α) (next : α → Edit σ β) :
    (ofResult look >>= next).outcome old = look >>= fun value => (next value).outcome old := by
  cases look <;> rfl

theorem outcome_refused (look : σ → Result α) (next : σ → α → Edit σ β) (e : Failure) (fails : look old = .error e) :
    (get >>= fun value => ofResult (look value) >>= next value).outcome old = .error e := by
  simp only [outcome, result_get_bind, left_get_bind, fails]
  rfl

-- It leaves no trace when it fails.
def Atomic : Prop := ∀ e, edit.result old = .error e → edit.left old = old

theorem atomic_of_ok (value : α) (done : edit.result old = .ok value) : edit.Atomic old := by
  intro e fails
  cases done.symm.trans fails

theorem atomic_get_bind (next : σ → Edit σ β) (later : (next old).Atomic old) : (get >>= next).Atomic old := later

theorem atomic_throw (e : Failure) : (throw e : Edit σ α).Atomic old := fun _ _ => rfl

theorem atomic_look_bind (look : Result α) (next : α → Edit σ β) (later : ∀ value, look = .ok value → (next value).Atomic old) :
    (ofResult look >>= next).Atomic old := by
  cases look with
  | error e => exact fun _ _ => rfl
  | ok value => exact later value rfl

end Ends

end Seam.Edit
