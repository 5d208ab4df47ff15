import Seam.Proofs.Group.Orderly
import Seam.Proofs.Group.Reconciliation
import Seam.Proofs.Group.Reduction
import Seam.Proofs.Group.Selection

set_option autoImplicit false

namespace Seam.Session

inductive Call where
  | gather (data : Bytes) (room : Nat)
  | sum (values : List UInt64)
  | barrier
  | exchangeCounts (counts : List Nat) (tag : UInt16)
  | exchangeBytes (buffers : List Bytes) (tag : UInt16)
  | reduceRecords (reducer : Reducer) (records : List Vertex)
  | reconcile (reducer : Reducer) (mesh : Mesh)
  | toleranceRange (mesh : Mesh)
  | countGlobally (edges : EdgeSet)
  | ship (plan : Shipment) (mesh : Mesh) (name : String)
  | select (name : String) (selection index : List UInt64) (mesh : Mesh)

inductive Answer where
  | gathered (result : Result Bytes)
  | sums (result : Result (List UInt64))
  | passed (result : Result Unit)
  | counts (result : Result (List Nat))
  | buffers (result : Result (List Bytes))
  | reduced (result : Result (List Vertex))
  | reconciled (mesh : Mesh) (result : Result Nat)
  | tolerances (result : Result (Option ToleranceRange))
  | counted (result : Result EdgeSet)
  | shipped (result : Result Mesh)
  | selected (outcome : Selection.Outcome)

def answering {α : Type} (program : Program α) (answer : α → Answer) : Program Answer :=
  program.bind fun value => .done (answer value)

def perform (s : Seat) : Call → Program Answer
  | .gather data room => answering (s.gatherInto data room).run .gathered
  | .sum values => answering (s.sum values).run .sums
  | .barrier => answering s.barrier.run .passed
  | .exchangeCounts counts tag => answering (s.exchangeCounts counts tag).run .counts
  | .exchangeBytes buffers tag => answering (s.exchangeBytes buffers tag).run .buffers
  | .reduceRecords reducer records => answering (s.reduceRecords reducer records).run .reduced
  | .reconcile reducer mesh => answering (Seam.reconcile s reducer mesh) fun (mesh, result) => .reconciled mesh result
  | .toleranceRange mesh => answering (Seam.toleranceRange s mesh).run .tolerances
  | .countGlobally edges => answering (edges.countGlobally s).run .counted
  | .ship plan mesh name => answering (Seam.ship s plan mesh name).run .shipped
  | .select name selection index mesh => answering (Seam.select s name selection index mesh) .selected

inductive Script where
  | finish
  | call (first : Call) (next : Answer → Script)

def Script.run (s : Seat) : Script → Program (List Answer)
  | .finish => .done []
  | .call first next =>
      (perform s first).bind fun answer => ((next answer).run s).bind fun later => .done (answer :: later)

-- Calls that the ranks of a group can make together. What is asked of the arguments is only what lets the messages
-- of the ranks fit to each other; they may be invalid in every other way, and different on each rank.
inductive Compatible {n : Nat} : (Fin n → Call) → Prop where
  | gather (data : Fin n → Bytes) (room : Fin n → Nat) (length : Nat) (same : ∀ me, (data me).length = length)
      (right : ∀ me, room me = length * n) : Compatible fun me => .gather (data me) (room me)
  | sum (values : Fin n → List UInt64) (length : Nat) (same : ∀ me, (values me).length = length) :
      Compatible fun me => .sum (values me)
  | barrier : Compatible fun _ => .barrier
  | exchangeCounts (counts : Fin n → List Nat) (tag : UInt16) (each : ∀ me, (counts me).length = n) :
      Compatible fun me => .exchangeCounts (counts me) tag
  | exchangeBytes (buffers : Fin n → List Bytes) (tag : UInt16) (each : ∀ me, (buffers me).length = n) :
      Compatible fun me => .exchangeBytes (buffers me) tag
  | reduceRecords (reducers : Fin n → Reducer) (records : Fin n → List Vertex) :
      Compatible fun me => .reduceRecords (reducers me) (records me)
  | reconcile (reducers : Fin n → Reducer) (meshes : Fin n → Mesh) (light : Reconciliation.Light meshes) :
      Compatible fun me => .reconcile (reducers me) (meshes me)
  | toleranceRange (meshes : Fin n → Mesh) : Compatible fun me => .toleranceRange (meshes me)
  | countGlobally (edges : Fin n → EdgeSet) : Compatible fun me => .countGlobally (edges me)
  | ship (plans : Fin n → Shipment) (meshes : Fin n → Mesh) (names : Fin n → String) :
      Compatible fun me => .ship (plans me) (meshes me) (names me)
  | select (names : Fin n → String) (selections indices : Fin n → List UInt64) (meshes : Fin n → Mesh)
      (light : n ≠ 1 → Selection.Light selections indices) :
      Compatible fun me => .select (names me) (selections me) (indices me) (meshes me)

-- All ranks make compatible calls, and go on in the same way with whatever these settle on, until all finish.
inductive Matched {n : Nat} : (Fin n → Script) → Prop where
  | finish : Matched fun _ => .finish
  | call (calls : Fin n → Call) (next : Fin n → Answer → Script) (compatible : Compatible calls)
      (rest : ∀ answers, Network.Settles (fun me => perform (Seat.member me) (calls me)) answers →
        Matched fun me => next me (answers me)) :
      Matched fun me => .call (calls me) (next me)

def Script.fixed : List Call → Script
  | [] => .finish
  | first :: rest => .call first fun _ => fixed rest

theorem matched_fixed {n : Nat} (calls : List (Fin n → Call)) (compatible : ∀ call ∈ calls, Compatible call) :
    Matched fun me => Script.fixed (calls.map fun call => call me) := by
  induction calls with
  | nil => exact .finish
  | cons call calls ih =>
      exact .call call (fun me _ => .fixed (calls.map fun call => call me)) (compatible call (by simp)) fun _ _ =>
        ih fun other member => compatible other (by simp [member])

theorem answering_orderly {α : Type} (program : Program α) (answer : α → Answer) (orderly : program.Orderly) :
    (answering program answer).Orderly :=
  Program.bind_orderly program _ orderly fun _ => Program.done_orderly _

theorem perform_orderly (s : Seat) (call : Call) : (perform s call).Orderly := by
  cases call with
  | gather => exact answering_orderly _ _ (s.gather_into_orderly _ _)
  | sum => exact answering_orderly _ _ (s.sum_orderly _)
  | barrier => exact answering_orderly _ _ s.barrier_orderly
  | exchangeCounts => exact answering_orderly _ _ (s.exchange_counts_orderly _ _)
  | exchangeBytes => exact answering_orderly _ _ (s.exchange_bytes_orderly _ _)
  | reduceRecords => exact answering_orderly _ _ (s.reduce_records_orderly _ _)
  | reconcile => exact answering_orderly _ _ (reconcile_orderly s _ _)
  | toleranceRange => exact answering_orderly _ _ (tolerance_range_orderly s _)
  | countGlobally edges => exact answering_orderly _ _ (count_globally_orderly edges s)
  | ship => exact answering_orderly _ _ (ship_orderly s _ _ _)
  | select => exact answering_orderly _ _ (select_orderly s _ _ _ _)

theorem run_orderly (s : Seat) (script : Script) : (script.run s).Orderly := by
  induction script with
  | finish => exact Program.done_orderly _
  | call call next ih =>
      refine Program.bind_orderly _ _ (perform_orderly s call) fun answer => ?_
      exact Program.bind_orderly _ _ (ih answer) fun _ => Program.done_orderly _

section Group

open Seam.Group (Lockstep)

variable {n : Nat}

theorem answering_lockstep {α : Type} (programs : Fin n → Program α) (values : Fin n → α) (answer : α → Answer)
    (steps : Lockstep programs fun me => .done (values me)) :
    ∃ answers : Fin n → Answer, Lockstep (fun me => answering (programs me) answer) fun me => .done (answers me) :=
  ⟨fun me => answer (values me), Group.lockstep_bind _ _ (fun _ value => .done (answer value)) steps⟩

theorem exchange_count_lists_lockstep (counts : Fin n → List Nat) (tag : UInt16) (each : ∀ me, (counts me).length = n) :
    Lockstep (fun me => ((Seat.member me).exchangeCounts (counts me) tag).run)
      fun me => .done (Group.toldCounts (fun source target => (counts source).getD target 0) me) := by
  have steps := Group.exchange_counts_lockstep (fun source (target : Fin n) => (counts source).getD target 0) tag
  simpa only [Group.of_fn_get_d _ _ (each _)] using steps

theorem select_ends (names : Fin n → String) (selections indices : Fin n → List UInt64) (meshes : Fin n → Mesh)
    (light : n ≠ 1 → Selection.Light selections indices) : ∃ outcomes : Fin n → Selection.Outcome,
      Lockstep (fun me => Seam.select (Seat.member me) (names me) (selections me) (indices me) (meshes me))
        fun me => .done (outcomes me) := by
  by_cases alone : n = 1
  · exact ⟨_, Group.lockstep_of_eq fun me => Selection.select_silent _ _ _ _ _ ((Group.member_silent me).mpr alone)⟩
  · exact ⟨_, Selection.select_lockstep names selections indices meshes alone (light alone)⟩

theorem perform_lockstep (calls : Fin n → Call) (compatible : Compatible calls) : ∃ answers : Fin n → Answer,
    Lockstep (fun me => perform (Seat.member me) (calls me)) fun me => .done (answers me) := by
  cases compatible with
  | gather data room length same right =>
      have fits : ∀ me, room me = (data me).length * n := fun me => by rw [right, same]
      exact answering_lockstep _ _ _ (Group.gather_into_lockstep data room fits)
  | sum values length same => exact answering_lockstep _ _ _ (Group.sum_lockstep values length same)
  | barrier => exact answering_lockstep _ _ _ Group.barrier_lockstep
  | exchangeCounts counts tag each => exact answering_lockstep _ _ _ (exchange_count_lists_lockstep counts tag each)
  | exchangeBytes buffers tag each => exact answering_lockstep _ _ _ (Group.exchange_lists_lockstep buffers tag each)
  | reduceRecords reducers records => exact answering_lockstep _ _ _ (Group.reduce_records_lockstep reducers records)
  | reconcile reducers meshes light => exact answering_lockstep _ _ _ (Reconciliation.reconcile_lockstep meshes reducers light)
  | toleranceRange meshes => exact answering_lockstep _ _ _ (Group.tolerance_range_lockstep meshes)
  | countGlobally edges => exact answering_lockstep _ _ _ (Group.count_globally_lockstep edges)
  | ship plans meshes names => exact answering_lockstep _ _ _ (ship_lockstep plans meshes names)
  | select names selections indices meshes light =>
      obtain ⟨outcomes, steps⟩ := select_ends names selections indices meshes light
      exact answering_lockstep _ _ _ steps

theorem matched_lockstep (scripts : Fin n → Script) (matched : Matched scripts) : ∃ answers : Fin n → List Answer,
    Lockstep (fun me => (scripts me).run (Seat.member me)) fun me => .done (answers me) := by
  induction matched with
  | finish => exact ⟨fun _ => [], .stay _⟩
  | call calls next compatible rest ih =>
      obtain ⟨answers, performed⟩ := perform_lockstep calls compatible
      have settles := Group.settles_of_lockstep _ answers (fun me => perform_orderly _ (calls me)) performed
      obtain ⟨later, followed⟩ := ih answers settles
      refine ⟨fun me => answers me :: later me, ?_⟩
      apply Group.lockstep_trans (Group.lockstep_bind _ _ _ performed)
      exact Group.lockstep_bind _ _ (fun me later => .done (answers me :: later)) followed

theorem matched_scripts_settle (scripts : Fin n → Script) (matched : Matched scripts) :
    ∃ answers : Fin n → List Answer, Network.Settles (fun me => (scripts me).run (Seat.member me)) answers := by
  obtain ⟨answers, steps⟩ := matched_lockstep scripts matched
  exact ⟨answers, Group.settles_of_lockstep _ answers (fun me => run_orderly _ (scripts me)) steps⟩

theorem failing_scripts_settle :
    let calls (me : Fin 2) : List Call :=
      [.sum [7], .reconcile .least (![Reconciliation.dot 5 2, Reconciliation.dot 0 0] me), .barrier,
        .select "faces" [1] (![[], [3, 1, 2]] me) (Mesh.empty "none")]
    Matched (fun me => .fixed (calls me)) ∧
    ∃ answers, Network.Settles (fun me => (Script.fixed (calls me)).run (Seat.member me)) answers := by
  intro calls
  have copies : Reconciliation.Light ![Reconciliation.dot 5 2, Reconciliation.dot 0 0] := by decide
  have requests : Selection.Light (fun _ : Fin 2 => [1]) ![[], [3, 1, 2]] := by decide
  have matched : Matched fun me => .fixed (calls me) := by
    apply matched_fixed [fun _ => .sum [7], fun me => .reconcile .least _, fun _ => .barrier, fun me => .select _ _ _ _]
    simp only [List.forall_mem_cons]
    refine ⟨.sum _ 1 fun _ => rfl, .reconcile (fun _ => .least) _ copies, .barrier, ?_, by simp⟩
    exact .select (fun _ => "faces") _ _ (fun _ => Mesh.empty "none") fun _ => requests
  exact ⟨matched, matched_scripts_settle _ matched⟩

end Group

end Seam.Session
