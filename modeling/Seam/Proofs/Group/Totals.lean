import Seam.Proofs.Group.Agreement
import Seam.Proofs.Group.Protocol
import Seam.Proofs.Wire.Grammar

set_option autoImplicit false

namespace Seam.Group

open Program (scripted)

variable {n : Nat}

def itemSums (values : Fin n → List UInt64) (length : Nat) : List UInt64 :=
  (List.range length).map fun i => .ofNat (∑ me, ((values me).getD i 0).toNat)

theorem totals_item_sums (values : Fin n → List UInt64) (length : Nat) (same : ∀ me, (values me).length = length) :
    totals values length = itemSums values length := by
  have width : ∀ row ∈ List.ofFn values, row.length = (List.replicate length (0 : UInt64)).length := by simp [same]
  rw [totals, fold_columns _ _ _ width]
  refine List.ext_getElem (by simp [itemSums]) fun i bound _ => ?_
  have inside : i < length := by simpa using bound
  have entries : column (List.ofFn values) i = (List.ofFn fun me => ((values me).getD i 0).toNat).map UInt64.ofNat := by
    rw [column, List.ofFn_eq_map, List.filterMap_map, List.ofFn_eq_map, List.map_map, ← List.filterMap_eq_map]
    refine List.filterMap_congr fun me _ => ?_
    have here : i < (values me).length := (same me).symm ▸ inside
    simp [here]
  have total := words_summed (List.ofFn fun me => ((values me).getD i 0).toNat) 0
  rw [← entries, Nat.zero_add, List.sum_ofFn] at total
  simpa [itemSums] using total

section Gathering

variable (me : Fin n) (script : List (Option Bytes))

def wordsFrom (length : Nat) (other : Fin n) : List UInt64 :=
  Wire.recordsIn Wire.gnum length ((heard script me 0 other).getD [])

-- How a rank that asks every other rank for some bytes comes out of it: with `next` when all of them bring as many, and
-- otherwise with the lowest one that does not.
structure AllOrNothing {α : Type} (length : Nat) (next : α) (result : Result α) : Prop where
  success : (∀ other, other ≠ me → Brings me script length other) → result = .ok next
  failure : ∀ peer, IsLeast {other | other ≠ me ∧ ¬ Brings me script length other} peer →
    result = refuse (.link peer.val (gatherFault length (heard script me 0 peer)))

theorem rows_all_or_nothing (length : Nat) :
    AllOrNothing me script length ((peers me).map fun other => (heard script me 0 other).getD []) (rowsBrought me script length) where
  success all := (checked_ok_iff me _ _ _ _).mpr ⟨all, rfl⟩
  failure peer least := checked_least me _ _ _ peer least

theorem summed_brought (values : List UInt64) (brings : ∀ other, other ≠ me → Brings me script (8 * values.length) other) :
    summed values.length ((Seat.member me).place (Wire.write Wire.gnum values)
      ((peers me).map fun other => (heard script me 0 other).getD [])).flatten =
    .ok (itemSums (Function.update (wordsFrom me script values.length) me values) values.length) := by
  let rows := Function.update (fun other => (heard script me 0 other).getD []) me (Wire.write Wire.gnum values)
  have own : Wire.recordsIn Wire.gnum values.length (Wire.write Wire.gnum values) = values := by
    have decoded := Wire.decode_chunks Wire.gnum _ Wire.gnum_faithful values (fun _ _ => trivial) []
    rwa [List.append_nil] at decoded
  have even : ∀ row ∈ List.ofFn rows, row.length = values.length * 8 := by
    intro row member
    obtain ⟨other, rfl⟩ := List.mem_ofFn.mp member
    by_cases same : other = me
    · simp only [rows, same, Function.update_self]
      exact Wire.write_length _ _ Wire.gnum_faithful values
    · simp only [rows, Function.update_of_ne same]
      exact (brought_length me script _ other (brings other same)).trans (Nat.mul_comm ..)
  have size : ∀ other, (Function.update (wordsFrom me script values.length) me values other).length = values.length := by
    intro other
    by_cases same : other = me
    · rw [same, Function.update_self]
    · rw [Function.update_of_ne same, wordsFrom, Wire.recordsIn, List.length_map, Wire.chunks_length]
  rw [place_peers, summed_rows _ _ even, ← totals_item_sums _ _ size, List.map_ofFn, Function.comp_update, own]
  rfl

theorem sum_all_or_nothing (values : List UInt64) :
    AllOrNothing me script (8 * values.length)
      (itemSums (Function.update (wordsFrom me script values.length) me values) values.length)
      (((Seat.member me).sum values).run.scripted script).1 := by
  have size : (Wire.write Wire.gnum values).length = 8 * values.length :=
    (Wire.write_length _ _ Wire.gnum_faithful values).trans (Nat.mul_comm ..)
  have room : values.length * 8 * (Seat.member me).ranks = (Wire.write Wire.gnum values).length * n := by
    rw [member_ranks, size, Nat.mul_comm values.length]
  rw [sum_run, Program.scripted_finish, gather_into_scripted me script _ _ room, size]
  have outcome := rows_all_or_nothing me script (8 * values.length)
  refine ⟨fun brings => ?_, fun peer least => ?_⟩
  · rw [outcome.success brings]
    exact summed_brought me script values brings
  · rw [outcome.failure peer least]
    rfl

theorem single_sums (own : UInt64) : (itemSums (Function.update (wordsFrom me script 1) me [own]) 1).headD 0 =
    .ofNat (∑ other, (Function.update (fun other => Wire.ofWord ((heard script me 0 other).getD [])) me own other).toNat) := by
  refine congrArg UInt64.ofNat (Finset.sum_congr rfl fun other _ => ?_)
  by_cases same : other = me
  · rw [same, Function.update_self, Function.update_self]
    rfl
  · rw [Function.update_of_ne same, Function.update_of_ne same]
    simp [wordsFrom, Wire.recordsIn, Wire.gnum, Wire.chunks, Wire.ofWord, List.take_take]

theorem count_all_or_nothing (edges : EdgeSet) :
    AllOrNothing me script 8
      { edges with globalEdges := .ofNat (∑ other, (Function.update
          (fun other => Wire.ofWord ((heard script me 0 other).getD [])) me (.ofNat edges.edgeCount) other).toNat) }
      ((edges.countGlobally (Seat.member me)).run.scripted script).1 := by
  obtain ⟨success, failure⟩ := sum_all_or_nothing me script [.ofNat edges.edgeCount]
  rw [count_run, Program.scripted_finish]
  refine ⟨fun brings => ?_, fun peer least => ?_⟩
  · have total := fetch_head (itemSums (Function.update (wordsFrom me script 1) me [.ofNat edges.edgeCount]) 1)
      (by simp [itemSums]) 0
    rw [single_sums] at total
    have summed := success brings
    simp only [List.length_singleton] at summed
    rw [summed]
    exact congrArg (Except.map fun count => ({ edges with globalEdges := count } : EdgeSet)) total
  · rw [failure peer least]
    rfl

end Gathering

theorem scripted_at_once_failed {σ : Type} (work : Work σ Unit) (old : σ) (program : Program (Result σ))
    (outcome : work.outcome old = program.bind fun result => .done (Work.atOnce old result)) (script : List (Option Bytes))
    (cause : Failure) (failed : ((work.outcome old).scripted script).1.1 = .error cause) :
    ((work.outcome old).scripted script).1.2 = old := by
  rw [outcome, Program.scripted_finish] at failed ⊢
  exact Work.at_once_failed old _ cause failed

-- A gathering does not ask whether its rank is isolated.
theorem gather_into_isolated (me : Fin n) (isolated : Bool) (data : Bytes) (length : Nat) :
    Seat.gatherInto ⟨me, n, isolated⟩ data length = (Seat.member me).gatherInto data length := rfl

theorem sum_isolated (me : Fin n) (isolated : Bool) (values : List UInt64) :
    (Seat.sum ⟨me, n, isolated⟩ values).run = ((Seat.member me).sum values).run := by
  rw [sum_run, sum_run, gather_into_isolated]
  rfl

theorem count_isolated (me : Fin n) (isolated : Bool) (e : EdgeSet) :
    (e.countGlobally ⟨me, n, isolated⟩).run = (e.countGlobally (Seat.member me)).run := by
  rw [count_run, count_run, sum_isolated]

-- All ranks come to the same sums. One of them that does not get what it needs from the others, whoever they are and
-- whatever they do, is left with what it had.
theorem sums_agree_or_nothing_changes (values : Fin n → List UInt64) (length : Nat) (same : ∀ me, (values me).length = length)
    (edges : Fin n → EdgeSet) :
    Network.Settles (fun me => ((Seat.member me).sum (values me)).run) (fun _ => .ok (itemSums values length)) ∧
    Network.Settles (fun me => ((edges me).countGlobally (Seat.member me)).run)
      (fun me => .ok { edges me with globalEdges := .ofNat (∑ other, (edges other).edgeCount) }) ∧
    (∀ (me : Fin n) (isolated : Bool) (script : List (Option Bytes)),
      AllOrNothing me script (8 * length) (itemSums (Function.update (wordsFrom me script length) me (values me)) length)
        ((Seat.sum ⟨me, n, isolated⟩ (values me)).run.scripted script).1 ∧
      AllOrNothing me script 8
        { edges me with globalEdges := .ofNat (∑ other, (Function.update
            (fun other => Wire.ofWord ((heard script me 0 other).getD [])) me (.ofNat (edges me).edgeCount) other).toNat) }
        (((edges me).countGlobally ⟨me, n, isolated⟩).run.scripted script).1) ∧
    ∀ (s : Seat) (held : List UInt64) (e : EdgeSet) (script : List (Option Bytes)) (cause : Failure),
      (((s.summing.outcome held).scripted script).1.1 = .error cause → ((s.summing.outcome held).scripted script).1.2 = held) ∧
      ((((countingGlobally s).outcome e).scripted script).1.1 = .error cause →
        (((countingGlobally s).outcome e).scripted script).1.2 = e) := by
  refine ⟨?sums, ?counts, fun me isolated script => ⟨?lone, ?count⟩, fun s held e script cause => ⟨?values, ?edges⟩⟩
  case sums =>
    have steps := sum_lockstep values length same
    rw [totals_item_sums values length same] at steps
    exact settles_of_lockstep _ _ (fun me => Seat.sum_orderly (Seat.member me) (values me)) steps
  case counts =>
    have steps := count_globally_lockstep edges
    simp only [totals_single, List.headD_cons] at steps
    have orderly (me : Fin n) := count_globally_orderly (edges me) (Seat.member me)
    exact settles_of_lockstep _ _ orderly steps
  case lone =>
    have outcome := sum_all_or_nothing me script (values me)
    rwa [same me, ← sum_isolated me isolated] at outcome
  case count =>
    rw [count_isolated]
    exact count_all_or_nothing me script (edges me)
  case values => exact scripted_at_once_failed s.summing held _ (summing_outcome s held) script cause
  case edges => exact scripted_at_once_failed (countingGlobally s) e _ (counting_outcome s e) script cause

theorem three_ranks_add_up :
    let values : Fin 3 → List UInt64 := ![[1, 0xFFFFFFFFFFFFFFFF], [2, 1], [3, 10]]
    let edges : Fin 3 → EdgeSet :=
      ![{ EdgeSet.empty with ends := [(0, 1)] }, EdgeSet.empty, { EdgeSet.empty with ends := [(0, 1), (1, 2)] }]
    (∀ me, (values me).length = 2) ∧
    Network.Settles (fun me => ((Seat.member me).sum (values me)).run) (fun _ => .ok [6, 10]) ∧
    Network.Settles (fun me => ((edges me).countGlobally (Seat.member me)).run) (fun me => .ok { edges me with globalEdges := 3 }) ∧
    ((Seat.sum ⟨1, 3, false⟩ [2, 1]).run.scripted [some (Wire.write Wire.gnum [5, 6]), some [9]]).1 =
      refuse (.link 2 (.gatherLength 16 1)) := by
  intro values edges
  have same : ∀ me, (values me).length = 2 := by decide
  obtain ⟨sums, counts, alone, _⟩ := sums_agree_or_nothing_changes values 2 same edges
  have added : itemSums values 2 = [6, 10] := by decide
  rw [added] at sums
  refine ⟨same, sums, counts, ((alone 1 false [some (Wire.write Wire.gnum [5, 6]), some [9]]).1.failure 2 ?_)⟩
  have lowest : ∀ other : Fin 3, other ≠ 1 ∧ ¬ Brings 1 [some (Wire.write Wire.gnum [5, 6]), some [9]] 16 other → 2 ≤ other := by
    decide
  exact ⟨by decide, fun other short => lowest other short⟩

end Seam.Group
