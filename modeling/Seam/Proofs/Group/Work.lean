import Seam.Group.Basic
import Seam.Proofs.Network.Rounds
import Seam.Proofs.Results

set_option autoImplicit false

namespace Seam

namespace Collective

variable {α β : Type}

theorem run_round_bind (tag : UInt16) (legs : List Leg) (next : List (Option Bytes) → Collective β) :
    (round tag legs >>= next).run = .round tag legs fun answers => (next answers).run :=
  Program.bind_round tag legs _ _

theorem run_result_bind (result : Result α) (next : α → Collective β) :
    (ofResult result >>= next).run =
      match result with
      | .ok value => (next value).run
      | .error e => .done (.error e) := by
  cases result <;> rfl

theorem run_result_map (result : Result α) (finish : α → β) :
    (ofResult result >>= fun value => pure (finish value) : Collective β).run = .done (result.map finish) := by
  cases result <;> rfl

theorem run_pure (value : α) : (pure value : Collective α).run = .done (.ok value) := (rfl)

end Collective

namespace Work

variable {σ α β : Type}

def after (next : α → Work σ β) : Result α × σ → Program (Result β × σ)
  | (.ok value, left) => (next value).outcome left
  | (.error e, left) => .done (.error e, left)

theorem outcome_bind (first : Work σ α) (next : α → Work σ β) (old : σ) :
    (first >>= next).outcome old = (first.outcome old).bind (after next) := by
  have parts : (first >>= next).outcome old =
      (first.outcome old).bind fun came => (ExceptT.bindCont next came.1).run came.2 := rfl
  rw [parts]
  congr 1
  funext came
  obtain ⟨result, left⟩ := came
  cases result <;> rfl

section Steps

variable (old : σ)

theorem outcome_get_bind (next : σ → Work σ β) : (get >>= next).outcome old = (next old).outcome old := (rfl)

theorem outcome_set_bind (new : σ) (next : PUnit → Work σ β) : (set new >>= next).outcome old = (next ()).outcome new := (rfl)

theorem outcome_modify_bind (change : σ → σ) (next : PUnit → Work σ β) :
    (modify change >>= next).outcome old = (next ()).outcome (change old) := (rfl)

theorem outcome_result_bind (result : Result α) (next : α → Work σ β) : (ofResult result >>= next).outcome old =
    match result with
    | .ok value => (next value).outcome old
    | .error e => .done (.error e, old) := by
  cases result <;> rfl

theorem outcome_collective_bind (c : Collective α) (next : α → Work σ β) : (ofCollective c >>= next).outcome old =
    c.run.bind fun result =>
      match result with
      | .ok value => (next value).outcome old
      | .error e => .done (.error e, old) := by
  rw [outcome_bind]
  have came : (ofCollective c : Work σ α).outcome old = c.run.bind fun result => .done (result, old) := rfl
  rw [came, Program.bind_assoc]
  congr 1
  funext result
  cases result <;> rfl

theorem run_on (work : Work σ Unit) :
    (work.on old).run = (work.outcome old).bind fun came => .done (came.1.map fun _ => came.2) := rfl

end Steps

-- What work leaves that changes nothing before it knows the new value.
def atOnce (old : σ) : Result σ → Result Unit × σ
  | .ok new => (.ok (), new)
  | .error e => (.error e, old)

theorem at_once_failed (old : σ) (result : Result σ) (e : Failure) (fails : (atOnce old result).1 = .error e) :
    (atOnce old result).2 = old := by
  cases result with
  | ok new => cases fails
  | error cause => rfl

theorem at_once_guarded (old : σ) (result : Result σ) (guarded : Guarded result) : Guarded (atOnce old result).1 := by
  cases result with
  | ok new => exact guarded_ok ()
  | error e =>
      rintro ⟨⟩
      exact guarded rfl

theorem run_on_at_once (work : Work σ Unit) (old : σ) (program : Program (Result σ))
    (outcome : work.outcome old = program.bind fun result => .done (atOnce old result)) : (work.on old).run = program := by
  rw [run_on, outcome, Program.bind_assoc]
  have same : (fun result => (Program.done (atOnce old result)).bind fun came : Result Unit × σ =>
      .done (came.1.map fun _ => came.2)) = Program.done := by
    funext result
    cases result <;> rfl
  rw [same, Program.bind_done]

end Work

end Seam
