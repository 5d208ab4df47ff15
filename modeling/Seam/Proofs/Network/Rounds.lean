import Seam.Proofs.Network.Schedules

set_option autoImplicit false

namespace Seam.Program

variable {α β γ : Type}

theorem bind_done (program : Program α) : program.bind .done = program := by
  induction program with
  | done value => rfl
  | post peer tag expected next ih => exact congrArg (Program.post peer tag expected) ih
  | send peer tag data next ih => exact congrArg (Program.send peer tag data) ih
  | wait next ih => exact congrArg Program.wait (funext ih)

theorem bind_assoc (program : Program α) (f : α → Program β) (g : β → Program γ) :
    (program.bind f).bind g = program.bind fun value => (f value).bind g := by
  induction program with
  | done value => rfl
  | post peer tag expected next ih => exact congrArg (Program.post peer tag expected) ih
  | send peer tag data next ih => exact congrArg (Program.send peer tag data) ih
  | wait next ih => exact congrArg Program.wait (funext ih)

instance : LawfulMonad Program :=
  LawfulMonad.mk' Program bind_done (fun _ _ => rfl) bind_assoc

section Rounds

variable (tag : UInt16) (legs : List Leg)

theorem bind_post_all (next : Program α) (f : α → Program β) :
    (postAll tag legs next).bind f = postAll tag legs (next.bind f) := by
  induction legs with
  | nil => rfl
  | cons leg legs ih => exact congrArg (Program.post leg.peer tag leg.expected) ih

theorem bind_send_all (next : Program α) (f : α → Program β) :
    (sendAll tag legs next).bind f = sendAll tag legs (next.bind f) := by
  induction legs with
  | nil => rfl
  | cons leg legs ih => exact congrArg (Program.send leg.peer tag leg.data) ih

theorem bind_wait_all (count : Nat) (next : List (Option Bytes) → Program α) (f : α → Program β) :
    (waitAll count next).bind f = waitAll count fun answers => (next answers).bind f := by
  induction count generalizing next with
  | zero => rfl
  | succ count ih => exact congrArg Program.wait (funext fun answer => ih _)

theorem bind_round (next : List (Option Bytes) → Program α) (f : α → Program β) :
    (round tag legs next).bind f = round tag legs fun answers => (next answers).bind f := by
  rw [round, bind_post_all, bind_send_all, bind_wait_all, round]

theorem post_all_orderly (next : Program α) (pending : List (Nat × UInt16)) (once : (legs.map Leg.peer).Nodup)
    (fresh : ∀ leg ∈ legs, (leg.peer, tag) ∉ pending)
    (rest : next.OrderlyWith (pending ++ legs.map fun leg => (leg.peer, tag))) :
    (postAll tag legs next).OrderlyWith pending := by
  induction legs generalizing pending with
  | nil => simpa [postAll] using rest
  | cons leg legs ih =>
      obtain ⟨new, once⟩ := List.nodup_cons.mp once
      refine ⟨fresh leg (by simp), ih _ once (fun other member known => ?_) (by simpa using rest)⟩
      rcases List.mem_append.mp known with known | same
      · exact fresh other (by simp [member]) known
      · have peer : other.peer = leg.peer := congrArg Prod.fst (List.mem_singleton.mp same)
        exact new (peer ▸ List.mem_map_of_mem member)

theorem send_all_orderly (next : Program α) (pending : List (Nat × UInt16)) (rest : next.OrderlyWith pending) :
    (sendAll tag legs next).OrderlyWith pending := by
  induction legs with
  | nil => exact rest
  | cons leg legs ih => exact ih

theorem wait_all_orderly (pending : List (Nat × UInt16)) (next : List (Option Bytes) → Program α)
    (rest : ∀ answers, (next answers).Orderly) : (waitAll pending.length next).OrderlyWith pending := by
  induction pending generalizing next with
  | nil => exact (rest []).ahead
  | cons origin pending ih => exact ⟨List.cons_ne_nil _ _, fun answer => ih _ fun answers => rest (answer :: answers)⟩

theorem round_orderly (next : List (Option Bytes) → Program α) (once : (legs.map Leg.peer).Nodup)
    (rest : ∀ answers, (next answers).Orderly) : (round tag legs next).Orderly := by
  have waits := wait_all_orderly (legs.map fun leg => (leg.peer, tag)) next rest
  rw [List.length_map] at waits
  exact ⟨post_all_orderly tag legs _ [] once (by simp) (send_all_orderly tag legs _ _ waits)⟩

end Rounds

theorem done_orderly (value : α) : (done value).Orderly := ⟨rfl⟩

theorem bind_orderly_with (program : Program α) (f : α → Program β) (pending : List (Nat × UInt16))
    (first : program.OrderlyWith pending) (rest : ∀ value, (f value).Orderly) : (program.bind f).OrderlyWith pending := by
  induction program generalizing pending with
  | done value =>
      obtain rfl : pending = [] := first
      exact (rest value).ahead
  | post peer tag expected next ih => exact ⟨first.1, ih _ first.2⟩
  | send peer tag data next ih => exact ih _ first
  | wait next ih => exact ⟨first.1, fun answer => ih answer _ (first.2 answer)⟩

theorem bind_orderly (program : Program α) (f : α → Program β) (first : program.Orderly)
    (rest : ∀ value, (f value).Orderly) : (program.bind f).Orderly :=
  ⟨bind_orderly_with program f [] first.ahead rest⟩

end Seam.Program
