import Mathlib.Data.List.FinRange
import Seam.Group.Basic
import Seam.Proofs.Network.Rounds

set_option autoImplicit false

namespace Seam

open Function (update)

def Seat.member {n : Nat} (me : Fin n) : Seat := ⟨me, n, false⟩

namespace Network

variable {n : Nat} {α : Type}

-- Whatever the order of the steps, nobody waits forever, and all runs end with these values and no message under
-- way.
structure Settles (ranks : Fin n → Program α) (values : Fin n → α) : Prop where
  alive : ∀ net, Reaches (start ranks) net →
    (∃ next, Step net next) ∨ (net.Ended values ∧ ∀ route, net.queues route = [])
  bounded : ∃ bound, ∀ k net, Walk k (start ranks) net → k ≤ bound

def finished (values : Fin n → α) : Network n α := ⟨fun me => .ended (values me), fun _ => []⟩

theorem finished_stuck (values : Fin n → α) : (finished values).Stuck := by
  rintro ⟨next, step⟩
  obtain ⟨me, effect, stage, queues, move, _, _⟩ := step_cases _ next step
  exact Stage.ended_still me.val (values me) _ _ move

theorem settles_of_reaches (ranks : Fin n → Program α) (values : Fin n → α) (orderly : ∀ me, (ranks me).Orderly)
    (reaches : Reaches (start ranks) (finished values)) : Settles ranks values := by
  obtain ⟨bound, toEnd⟩ := reaches
  have remaining : ∀ k net, Walk k (start ranks) net → ∃ i, bound = k + i ∧ Walk i net (finished values) :=
    fun k net walk => walk_to_end _ net _ (start_orderly ranks orderly) (finished_stuck values) walk toEnd
  refine ⟨?_, bound, ?_⟩
  · rintro net ⟨k, walk⟩
    obtain ⟨i, _, rest⟩ := remaining k net walk
    cases rest with
    | stay => exact .inr ⟨fun me => rfl, fun route => rfl⟩
    | step first _ => exact .inl ⟨_, first⟩
  · intro k net walk
    obtain ⟨i, total, _⟩ := remaining k net walk
    omega

end Network

namespace Group

variable {n : Nat} {α β : Type}

def peers (me : Fin n) : List (Fin n) := (List.finRange n).filter fun other => other ≠ me

theorem mem_peers (me other : Fin n) : other ∈ peers me ↔ other ≠ me := by simp [peers]

theorem peers_nodup (me : Fin n) : (peers me).Nodup := (List.nodup_finRange n).filter _

theorem alone_no_peers (me : Fin n) (alone : n = 1) : peers me = [] := by
  subst alone
  rw [List.eq_nil_iff_forall_not_mem]
  intro other member
  exact (mem_peers me other).mp member (Subsingleton.elim other me)

structure Traffic (n : Nat) where
  expected : Fin n → Fin n → Nat
  data : Fin n → Fin n → Bytes

namespace Traffic

def leg (t : Traffic n) (me other : Fin n) : Leg := ⟨other, t.expected me other, t.data me other⟩

def legs (t : Traffic n) (me : Fin n) : List Leg := (peers me).map (t.leg me)

def arrival (t : Traffic n) (me other : Fin n) : Bytes := (t.data other me).take (t.expected me other)

def answers (t : Traffic n) (me : Fin n) : List (Option Bytes) := (peers me).map fun other => some (t.arrival me other)

end Traffic

def Round (before after : Fin n → Program α) : Prop :=
  ∃ (tag : UInt16) (traffic : Traffic n) (next : Fin n → List (Option Bytes) → Program α),
    ∀ me, before me = .round tag (traffic.legs me) (next me) ∧ after me = next me (traffic.answers me)

inductive Lockstep : (Fin n → Program α) → (Fin n → Program α) → Prop where
  | stay (ranks : Fin n → Program α) : Lockstep ranks ranks
  | round {before between after : Fin n → Program α} (first : Round before between)
      (rest : Lockstep between after) : Lockstep before after

theorem lockstep_of_eq {before after : Fin n → Program α} (same : ∀ me, before me = after me) : Lockstep before after := by
  rw [show before = after from funext same]
  exact .stay after

theorem lockstep_trans {before between after : Fin n → Program α} (first : Lockstep before between)
    (second : Lockstep between after) : Lockstep before after := by
  induction first with
  | stay => exact second
  | round head _ ih => exact .round head (ih second)

theorem lockstep_round (tag : UInt16) (traffic : Traffic n) (next : Fin n → List (Option Bytes) → Program α) :
    Lockstep (fun me => .round tag (traffic.legs me) (next me)) (fun me => next me (traffic.answers me)) :=
  .round ⟨tag, traffic, next, fun _ => ⟨rfl, rfl⟩⟩ (.stay _)

theorem round_bind (before after : Fin n → Program α) (f : Fin n → α → Program β) (round : Round before after) :
    Round (fun me => (before me).bind (f me)) (fun me => (after me).bind (f me)) := by
  obtain ⟨tag, traffic, next, stands⟩ := round
  have stood (me : Fin n) : (before me).bind (f me) =
      .round tag (traffic.legs me) fun answers => (next me answers).bind (f me) := by
    rw [(stands me).1, Program.bind_round]
  exact ⟨tag, traffic, fun me answers => (next me answers).bind (f me), fun me =>
    ⟨stood me, congrArg (fun p => p.bind (f me)) (stands me).2⟩⟩

theorem lockstep_bind (before after : Fin n → Program α) (f : Fin n → α → Program β) (steps : Lockstep before after) :
    Lockstep (fun me => (before me).bind (f me)) (fun me => (after me).bind (f me)) := by
  induction steps with
  | stay => exact .stay _
  | round first _ ih => exact .round (round_bind _ _ f first) ih

theorem lockstep_alone (before after : Fin 1 → Program α) (steps : Lockstep before after) (me : Fin 1) :
    (before me).alone = (after me).alone := by
  induction steps with
  | stay => rfl
  | round first _ ih =>
      obtain ⟨tag, traffic, next, stands⟩ := first
      rw [← ih, (stands me).1, (stands me).2, Traffic.legs, Traffic.answers, alone_no_peers me rfl]
      rfl

theorem call_reaches (stages : Fin n → Stage α) (me : Fin n) (stage : Stage α)
    (call : Stage.Calls me.val (stages me) .nothing stage) :
    Network.Reaches ⟨stages, fun _ => []⟩ ⟨update stages me stage, fun _ => []⟩ :=
  Network.reaches_step (Network.step_of_move ⟨stages, fun _ => []⟩ me .nothing stage _ (.inl call) (.nothing _))

theorem post_all_reaches (tag : UInt16) (me : Fin n) (legs : List Leg) (next : Program α) (stages : Fin n → Stage α)
    (receipts : List Receipt) (stands : stages me = ⟨.postAll tag legs next, receipts⟩) :
    Network.Reaches ⟨stages, fun _ => []⟩
      ⟨update stages me ⟨next, receipts ++ legs.map fun leg => ⟨leg.peer, tag, leg.expected, none⟩⟩, fun _ => []⟩ := by
  induction legs generalizing stages receipts with
  | nil =>
      have same : stages me = ⟨next, receipts ++ [].map fun leg : Leg => ⟨leg.peer, tag, leg.expected, none⟩⟩ := by
        simpa [Program.postAll] using stands
      rw [← same, Function.update_eq_self]
      exact Network.reaches_refl _
  | cons leg legs ih =>
      let posted : Stage α := ⟨.postAll tag legs next, receipts ++ [⟨leg.peer, tag, leg.expected, none⟩]⟩
      have first := call_reaches stages me posted (by rw [stands]; exact .post leg.peer tag leg.expected _ receipts)
      have later := ih (update stages me posted) posted.receipts (Function.update_self ..)
      rw [Function.update_idem, List.append_assoc] at later
      exact Network.reaches_trans first later

theorem wait_all_reaches (me : Fin n) (receipts : List Receipt) (next : List (Option Bytes) → Program α)
    (stages : Fin n → Stage α) (stands : stages me = ⟨.waitAll receipts.length next, receipts⟩)
    (arrived : ∀ receipt ∈ receipts, receipt.message ≠ none) :
    Network.Reaches ⟨stages, fun _ => []⟩
      ⟨update stages me ⟨next (receipts.map Receipt.message), []⟩, fun _ => []⟩ := by
  induction receipts generalizing stages next with
  | nil =>
      have same : stages me = ⟨next ([].map Receipt.message), []⟩ := stands
      rw [← same, Function.update_eq_self]
      exact Network.reaches_refl _
  | cons receipt receipts ih =>
      obtain ⟨peer, tag, expected, message⟩ := receipt
      cases message with
      | none => exact absurd rfl (arrived ⟨peer, tag, expected, none⟩ (by simp))
      | some data =>
          let waited : Stage α := ⟨.waitAll receipts.length fun answers => next (some data :: answers), receipts⟩
          have first := call_reaches stages me waited (by rw [stands]; exact .wait _ peer tag expected data receipts)
          have later := ih _ (update stages me waited) (Function.update_self ..) fun other member => arrived other (by simp [member])
          rw [Function.update_idem] at later
          exact Network.reaches_trans first later

theorem pass_message (stages : Fin n → Stage α) (source target : Fin n) (different : target ≠ source) (tag : UInt16)
    (data : Bytes) (expected : Nat) (next next' : Program α) (receipts before after : List Receipt)
    (sender : stages source = ⟨.send target tag data next, receipts⟩)
    (receiver : stages target = ⟨next', before ++ ⟨source, tag, expected, none⟩ :: after⟩) :
    Network.Reaches ⟨stages, fun _ => []⟩
      ⟨update (update stages source ⟨next, receipts⟩) target
         ⟨next', before ++ ⟨source, tag, expected, some (data.take expected)⟩ :: after⟩, fun _ => []⟩ := by
  let route : Route := ⟨source, target, tag⟩
  let sent := update stages source ⟨next, receipts⟩
  let filled : Stage α := ⟨next', before ++ ⟨source, tag, expected, some (data.take expected)⟩ :: after⟩
  have sends : Stage.Calls source.val (stages source) (.push route data) ⟨next, receipts⟩ := by
    rw [sender]
    exact .send target tag data next receipts
  have arrives : Stage.Arrives target.val (sent target) (.pop route data) filled := by
    simp only [sent, Function.update_of_ne different, receiver]
    exact .arrive next' before after source tag expected data
  have emptied : Effect.Acts (.pop route data) (update (fun _ => []) route [data]) fun _ => [] := by
    have act : Effect.Acts (.pop route data) (update (fun _ => []) route [data]) _ :=
      .pop _ route data [] (Function.update_self ..)
    rwa [Function.update_idem, Function.update_eq_self] at act
  have first := Network.step_of_move ⟨stages, fun _ => []⟩ source _ _ _ (.inl sends) (.push _ route data)
  have second := Network.step_of_move ⟨sent, update (fun _ => []) route [data]⟩ target _ _ _ (.inr arrives) emptied
  exact Network.reaches_trans (Network.reaches_step first) (Network.reaches_step second)

section Passing

variable (tag : UInt16) (t : Traffic n) (next : Fin n → List (Option Bytes) → Program α)

def receipt (unsent : Fin n → List (Fin n)) (me other : Fin n) : Receipt :=
  ⟨other, tag, t.expected me other, if me ∈ unsent other then none else some (t.arrival me other)⟩

-- A round in progress in which everything that was sent has arrived.
def during (unsent : Fin n → List (Fin n)) (me : Fin n) : Stage α :=
  ⟨.sendAll tag ((unsent me).map (t.leg me)) (.waitAll (t.legs me).length (next me)), (peers me).map (receipt tag t unsent me)⟩

theorem receipt_update (unsent : Fin n → List (Fin n)) (source target me other : Fin n) (rest : List (Fin n))
    (pending : unsent source = target :: rest) (elsewhere : me ≠ target ∨ other ≠ source) :
    receipt tag t (update unsent source rest) me other = receipt tag t unsent me other := by
  by_cases same : other = source
  · subst same
    have different : me ≠ target := elsewhere.resolve_right (fun differs => differs rfl)
    simp [receipt, pending, different]
  · simp [receipt, Function.update_of_ne same]

theorem receipts_split (unsent : Fin n → List (Fin n)) (source target : Fin n) (rest : List (Fin n))
    (pending : unsent source = target :: rest) (fresh : target ∉ rest) (different : target ≠ source) :
    ∃ before after,
      (peers target).map (receipt tag t unsent target) = before ++ ⟨source, tag, t.expected target source, none⟩ :: after ∧
      (peers target).map (receipt tag t (update unsent source rest) target) =
        before ++ ⟨source, tag, t.expected target source, some (t.arrival target source)⟩ :: after := by
  obtain ⟨before, after, split⟩ := List.append_of_mem ((mem_peers target source).mpr (Ne.symm different))
  have nodup := peers_nodup target
  rw [split, List.nodup_append] at nodup
  have keep : ∀ other, other ≠ source →
      receipt tag t (update unsent source rest) target other = receipt tag t unsent target other :=
    fun other differs => receipt_update tag t unsent source target target other rest pending (.inr differs)
  have keepBefore : before.map (receipt tag t (update unsent source rest) target) = before.map (receipt tag t unsent target) :=
    List.map_congr_left fun other member => keep other (nodup.2.2 other member source (by simp))
  have keepAfter : after.map (receipt tag t (update unsent source rest) target) = after.map (receipt tag t unsent target) :=
    List.map_congr_left fun other member => keep other fun same => (List.nodup_cons.mp nodup.2.1).1 (same ▸ member)
  refine ⟨before.map (receipt tag t unsent target), after.map (receipt tag t unsent target), ?_, ?_⟩
  · simp [split, receipt, pending]
  · rw [split, List.map_append, List.map_cons, keepBefore, keepAfter]
    simp [receipt, fresh]

theorem hand_over (unsent : Fin n → List (Fin n)) (source target : Fin n) (rest : List (Fin n))
    (pending : unsent source = target :: rest) (fresh : target ∉ rest) (different : target ≠ source) :
    Network.Reaches ⟨during tag t next unsent, fun _ => []⟩ ⟨during tag t next (update unsent source rest), fun _ => []⟩ := by
  obtain ⟨before, after, awaiting, filled⟩ := receipts_split tag t unsent source target rest pending fresh different
  let wait (me : Fin n) : Program α := .waitAll (t.legs me).length (next me)
  have run := pass_message (during tag t next unsent) source target different tag (t.data source target)
    (t.expected target source) (.sendAll tag (rest.map (t.leg source)) (wait source))
    (.sendAll tag ((unsent target).map (t.leg target)) (wait target)) ((peers source).map (receipt tag t unsent source)) before after
    (by rw [during, pending]; rfl) (by rw [during, awaiting])
  -- The receipts of all ranks but the target read as before.
  have same : update (update (during tag t next unsent) source
        ⟨.sendAll tag (rest.map (t.leg source)) (wait source), (peers source).map (receipt tag t unsent source)⟩) target
        ⟨.sendAll tag ((unsent target).map (t.leg target)) (wait target),
          before ++ ⟨source, tag, t.expected target source, some (t.arrival target source)⟩ :: after⟩ =
      during tag t next (update unsent source rest) := by
    funext me
    have keep : me ≠ target →
        (peers me).map (receipt tag t (update unsent source rest) me) = (peers me).map (receipt tag t unsent me) := fun differs =>
      List.map_congr_left fun other _ => receipt_update tag t unsent source target me other rest pending (.inl differs)
    by_cases receiver : me = target
    · subst receiver
      simp only [Function.update_self, during, Function.update_of_ne different, filled, wait]
    · by_cases sender : me = source
      · subst sender
        simp only [Function.update_of_ne receiver, Function.update_self, during, keep receiver, wait]
      · simp only [Function.update_of_ne receiver, Function.update_of_ne sender, during, keep receiver]
  rw [← same]
  exact run

theorem hand_over_all (unsent : Fin n → List (Fin n)) (source : Fin n) (targets : List (Fin n)) (pending : unsent source = targets)
    (nodup : targets.Nodup) (others : ∀ target ∈ targets, target ≠ source) :
    Network.Reaches ⟨during tag t next unsent, fun _ => []⟩ ⟨during tag t next (update unsent source []), fun _ => []⟩ := by
  induction targets generalizing unsent with
  | nil =>
      rw [← pending, Function.update_eq_self]
      exact Network.reaches_refl _
  | cons target rest ih =>
      have first := hand_over tag t next unsent source target rest pending (List.nodup_cons.mp nodup).1 (others target (by simp))
      have later := ih (update unsent source rest) (Function.update_self ..) (List.nodup_cons.mp nodup).2
        (fun other member => others other (by simp [member]))
      rw [Function.update_idem] at later
      exact Network.reaches_trans first later

theorem one_after_another (before after : Fin n → Stage α) (each : ∀ (stages : Fin n → Stage α) (me : Fin n),
      stages me = before me → Network.Reaches ⟨stages, fun _ => []⟩ ⟨update stages me (after me), fun _ => []⟩)
    (ranks : List (Fin n)) (nodup : ranks.Nodup) :
    Network.Reaches ⟨fun me => if me ∈ ranks then before me else after me, fun _ => []⟩ ⟨after, fun _ => []⟩ := by
  induction ranks with
  | nil => simpa using Network.reaches_refl (⟨after, fun _ => []⟩ : Network n α)
  | cons rank rest ih =>
      have first := each (fun me => if me ∈ rank :: rest then before me else after me) rank (by simp)
      have same : update (fun me => if me ∈ rank :: rest then before me else after me) rank (after rank) =
          fun me => if me ∈ rest then before me else after me := by
        funext me
        by_cases equal : me = rank
        · simp [equal, (List.nodup_cons.mp nodup).1]
        · simp [equal]
      rw [same] at first
      exact Network.reaches_trans first (ih (List.nodup_cons.mp nodup).2)

theorem all_one_after_another (before after : Fin n → Stage α) (each : ∀ (stages : Fin n → Stage α) (me : Fin n),
      stages me = before me → Network.Reaches ⟨stages, fun _ => []⟩ ⟨update stages me (after me), fun _ => []⟩) :
    Network.Reaches ⟨before, fun _ => []⟩ ⟨after, fun _ => []⟩ := by
  simpa using one_after_another before after each (List.finRange n) (List.nodup_finRange n)

theorem all_hand_over (sources : List (Fin n)) (nodup : sources.Nodup) :
    Network.Reaches ⟨during tag t next fun me => if me ∈ sources then peers me else [], fun _ => []⟩
      ⟨during tag t next fun _ => [], fun _ => []⟩ := by
  induction sources with
  | nil => simpa using Network.reaches_refl (⟨during tag t next fun _ => [], fun _ => []⟩ : Network n α)
  | cons source rest ih =>
      have first := hand_over_all tag t next (fun me => if me ∈ source :: rest then peers me else []) source (peers source)
        (by simp) (peers_nodup source) (fun target member => (mem_peers source target).mp member)
      have same : update (fun me => if me ∈ source :: rest then peers me else []) source [] =
          fun me => if me ∈ rest then peers me else [] := by
        funext me
        by_cases equal : me = source
        · simp [equal, (List.nodup_cons.mp nodup).1]
        · simp [equal]
      rw [same] at first
      exact Network.reaches_trans first (ih (List.nodup_cons.mp nodup).2)

theorem all_post : Network.Reaches (Network.start fun me => .round tag (t.legs me) (next me))
    ⟨during tag t next peers, fun _ => []⟩ := by
  refine all_one_after_another _ _ fun stages me stands => ?_
  have posted := post_all_reaches tag me (t.legs me) _ stages [] stands
  have receipts : (t.legs me).map (fun leg => (⟨leg.peer, tag, leg.expected, none⟩ : Receipt)) =
      (peers me).map (receipt tag t peers me) := by
    rw [Traffic.legs, List.map_map]
    refine List.map_congr_left fun other member => ?_
    have sender : me ∈ peers other := (mem_peers other me).mpr (Ne.symm ((mem_peers me other).mp member))
    simp [receipt, sender, Traffic.leg]
  rwa [List.nil_append, receipts] at posted

theorem all_wait : Network.Reaches ⟨during tag t next fun _ => [], fun _ => []⟩
    (Network.start fun me => next me (t.answers me)) := by
  refine all_one_after_another _ _ fun stages me stands => ?_
  have messages : ((peers me).map (receipt tag t (fun _ => []) me)).map Receipt.message = t.answers me := by
    simp [receipt, Traffic.answers, Function.comp_def]
  have waited := wait_all_reaches me ((peers me).map (receipt tag t (fun _ => []) me)) (next me) stages
    (by simpa [during, Traffic.legs, Program.sendAll] using stands) (by simp [receipt])
  rwa [messages] at waited

end Passing

theorem round_reaches (before after : Fin n → Program α) (round : Round before after) :
    Network.Reaches (Network.start before) (Network.start after) := by
  obtain ⟨tag, traffic, next, stands⟩ := round
  obtain rfl : before = fun me => .round tag (traffic.legs me) (next me) := funext fun me => (stands me).1
  obtain rfl : after = fun me => next me (traffic.answers me) := funext fun me => (stands me).2
  have sent := all_hand_over tag traffic next (List.finRange n) (List.nodup_finRange n)
  simp only [List.mem_finRange, if_true] at sent
  exact Network.reaches_trans (all_post tag traffic next) (Network.reaches_trans sent (all_wait tag traffic next))

theorem lockstep_reaches (before after : Fin n → Program α) (steps : Lockstep before after) :
    Network.Reaches (Network.start before) (Network.start after) := by
  induction steps with
  | stay => exact Network.reaches_refl _
  | round first _ ih => exact Network.reaches_trans (round_reaches _ _ first) ih

theorem settles_of_lockstep (ranks : Fin n → Program α) (values : Fin n → α) (orderly : ∀ me, (ranks me).Orderly)
    (steps : Lockstep ranks fun me => .done (values me)) : Network.Settles ranks values :=
  Network.settles_of_reaches ranks values orderly (lockstep_reaches _ _ steps)

end Group

end Seam
