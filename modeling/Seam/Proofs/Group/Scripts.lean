import Seam.Proofs.Group.Members
import Seam.Proofs.Network.Rounds

set_option autoImplicit false

namespace Seam

namespace Program

variable {α β : Type}

theorem play_bind (program : Program α) (f : α → Program β) (tape : Tape) :
    (program.bind f).play tape =
      let first := program.play tape
      let second := (f first.1).play first.2.2
      (second.1, first.2.1 ++ second.2.1, second.2.2) := by
  induction program generalizing tape with
  | done value => rfl
  | post peer tag expected next ih => simp only [bind, play, ih, List.cons_append]
  | send peer tag data next ih => simp only [bind, play, ih, List.cons_append]
  | wait next ih => exact ih _ _

def Call.awaits : Call → Bool
  | .receive .. => true
  | .send .. => false

def heardBy (made : List Call) : Nat := made.countP Call.awaits

-- At its end an orderly program has waited for everything that has come.
theorem play_left (program : Program α) (pending : List (Nat × UInt16)) (held script : List (Option Bytes))
    (orderly : program.OrderlyWith pending) (same : held.length = pending.length) :
    (program.play ⟨held, script⟩).2.2 = ⟨[], script.drop (heardBy (program.play ⟨held, script⟩).2.1)⟩ := by
  induction program generalizing pending held script with
  | done value =>
      obtain rfl : pending = [] := orderly
      rw [List.eq_nil_of_length_eq_zero same]
      rfl
  | post peer tag expected next ih =>
      have later := ih (pending ++ [(peer, tag)]) (held ++ [script.head?.join]) script.tail orderly.2 (by simp [same])
      simp only [play, later, heardBy, List.drop_tail, List.countP_cons, Call.awaits, if_true]
  | send peer tag data next ih =>
      have later := ih pending held script orderly same
      simp only [play, later, heardBy, List.countP_cons, Call.awaits, Bool.false_eq_true, if_false, Nat.add_zero]
  | wait next ih => exact ih held.head?.join pending.tail held.tail script (orderly.2 _) (by simp [same])

theorem scripted_done (value : α) (script : List (Option Bytes)) : (done value).scripted script = (value, []) := rfl

theorem scripted_finish (program : Program α) (finish : α → β) (script : List (Option Bytes)) :
    (program.bind fun value => .done (finish value)).scripted script =
      (finish (program.scripted script).1, (program.scripted script).2) := by
  simp only [scripted, play_bind, play, List.append_nil]

theorem scripted_bind (program : Program α) (f : α → Program β) (script : List (Option Bytes)) (orderly : program.Orderly) :
    (program.bind f).scripted script =
      let first := program.scripted script
      let second := (f first.1).scripted (script.drop (heardBy first.2))
      (second.1, first.2 ++ second.2) := by
  simp only [scripted, play_bind, play_left program [] [] script orderly.ahead rfl]

theorem scripted_then (program : Program α) (f : α → Program β) (script : List (Option Bytes)) (orderly : program.Orderly) :
    ((program >>= f).scripted script).1 =
      ((f (program.scripted script).1).scripted (script.drop (heardBy (program.scripted script).2))).1 := by
  have both : program >>= f = program.bind f := rfl
  rw [both, scripted_bind program f script orderly]

def calls (tag : UInt16) (legs : List Leg) : List Call :=
  legs.map (fun leg => .receive leg.peer tag leg.expected) ++ legs.map fun leg => .send leg.peer tag leg.data

theorem heard_by_calls (tag : UInt16) (legs : List Leg) : heardBy (calls tag legs) = legs.length := by
  have receives : (legs.map fun leg => Call.receive leg.peer tag leg.expected).countP Call.awaits = legs.length := by
    rw [List.countP_map]
    exact List.countP_eq_length.mpr fun _ _ => rfl
  have sends : (legs.map fun leg => Call.send leg.peer tag leg.data).countP Call.awaits = 0 := by
    rw [List.countP_map]
    exact List.countP_eq_zero.mpr fun _ _ => Bool.false_ne_true
  rw [heardBy, calls, List.countP_append, receives, sends, Nat.add_zero]

def taken (count : Nat) (script : List (Option Bytes)) : List (Option Bytes) :=
  (List.range count).map fun i => script[i]?.join

theorem taken_succ (count : Nat) (script : List (Option Bytes)) :
    taken (count + 1) script = script.head?.join :: taken count script.tail := by
  rw [taken, List.range_succ_eq_map, List.map_cons, List.map_map, List.head?_eq_getElem?]
  refine congrArg _ (List.map_congr_left fun i _ => ?_)
  simp

theorem play_post_all (tag : UInt16) (legs : List Leg) (next : Program α) (held script : List (Option Bytes)) :
    (postAll tag legs next).play ⟨held, script⟩ =
      let rest := next.play ⟨held ++ taken legs.length script, script.drop legs.length⟩
      (rest.1, legs.map (fun leg => .receive leg.peer tag leg.expected) ++ rest.2.1, rest.2.2) := by
  induction legs generalizing held script with
  | nil => simp [postAll, taken]
  | cons leg legs ih =>
      simp only [postAll, play, ih, List.length_cons, taken_succ, List.append_assoc, List.nil_append, List.drop_tail,
        List.map_cons, List.cons_append]

theorem play_send_all (tag : UInt16) (legs : List Leg) (next : Program α) (tape : Tape) :
    (sendAll tag legs next).play tape =
      let rest := next.play tape
      (rest.1, legs.map (fun leg => .send leg.peer tag leg.data) ++ rest.2.1, rest.2.2) := by
  induction legs with
  | nil => rfl
  | cons leg legs ih => simp only [sendAll, play, ih, List.map_cons, List.cons_append]

theorem play_wait_all (answers : List (Option Bytes)) (next : List (Option Bytes) → Program α) (script : List (Option Bytes)) :
    (waitAll answers.length next).play ⟨answers, script⟩ = (next answers).play ⟨[], script⟩ := by
  induction answers generalizing next with
  | nil => rfl
  | cons answer answers ih => exact ih fun later => next (answer :: later)

theorem scripted_legs (tag : UInt16) (legs : List Leg) (next : List (Option Bytes) → Program α) (script : List (Option Bytes)) :
    (round tag legs next).scripted script =
      let rest := (next (taken legs.length script)).scripted (script.drop legs.length)
      (rest.1, calls tag legs ++ rest.2) := by
  have waits := play_wait_all (taken legs.length script) next (script.drop legs.length)
  rw [taken, List.length_map, List.length_range] at waits
  simp only [scripted, round, play_post_all, play_send_all, List.nil_append, taken, waits, calls, List.append_assoc]

end Program

namespace Group

open Program (scripted calls heardBy)

variable {n : Nat} {α : Type}

def turn (me other : Fin n) : Nat := if other.val < me.val then other.val else other.val - 1

theorem peers_length (me : Fin n) : (peers me).length = n - 1 := by
  rw [peers_split, List.length_append, List.length_take, List.length_drop, List.length_finRange]
  omega

theorem peers_get (me : Fin n) (i : Nat) (bound : i < (peers me).length) :
    ((peers me)[i]).val = if i < me.val then i else i + 1 := by
  have front : ((List.finRange n).take me.val).length = me.val := by simp
  simp only [peers_split, List.getElem_append, front]
  by_cases before : i < me.val
  · simp [before]
  · simp only [before, dite_false, if_false, List.getElem_drop, List.getElem_finRange, Fin.val_cast]
    omega

theorem peers_zip_idx (me : Fin n) : (peers me).zipIdx = (peers me).map fun other => (other, turn me other) := by
  refine List.ext_getElem (by simp) fun i bound _ => ?_
  rw [List.length_zipIdx] at bound
  have place : turn me (peers me)[i] = i := by
    rw [turn, peers_get]
    by_cases before : i < me.val
    · rw [if_pos before, if_pos before]
    · rw [if_neg before, if_neg (by omega), Nat.add_sub_cancel]
  simp [place]

-- What the script brings from a peer in one of its rounds.
def heard (script : List (Option Bytes)) (me : Fin n) (round : Nat) (other : Fin n) : Option Bytes :=
  script[round * (n - 1) + turn me other]?.join

theorem heard_later (script : List (Option Bytes)) (me : Fin n) (past round : Nat) :
    heard (script.drop (past * (n - 1))) me round = heard script me (past + round) := by
  funext other
  rw [heard, heard, List.getElem?_drop, Nat.add_mul, Nat.add_assoc]

theorem scripted_round (tag : UInt16) (me : Fin n) (leg : Fin n → Leg) (next : List (Option Bytes) → Program α)
    (script : List (Option Bytes)) :
    scripted (.round tag ((peers me).map leg) next) script =
      let rest := (next ((peers me).map (heard script me 0))).scripted (script.drop (n - 1))
      (rest.1, calls tag ((peers me).map leg) ++ rest.2) := by
  have answers : Program.taken (peers me).length script = (peers me).map (heard script me 0) := by
    have turns : List.range (peers me).length = (peers me).map (turn me) := by
      have places := congrArg (List.map Prod.snd) (peers_zip_idx me)
      rwa [List.zipIdx_map_snd, ← List.range_eq_range', List.map_map] at places
    rw [Program.taken, turns, List.map_map]
    exact List.map_congr_left fun other _ => by simp [heard]
  rw [Program.scripted_legs, List.length_map, answers, peers_length]

end Group

end Seam
