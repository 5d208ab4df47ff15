import Seam.Proofs.Network.Lockstep

set_option autoImplicit false

namespace Seam

open Function (update)

def Program.Awaits {α : Type} (program : Program α) (peer : Nat) : Prop :=
  ∃ tag legs next, program = .round tag legs next ∧ ∃ leg ∈ legs, leg.peer = peer

theorem Program.bind_awaits {α β : Type} (program : Program α) (f : α → Program β) (peer : Nat) (awaits : program.Awaits peer) :
    (program.bind f).Awaits peer := by
  obtain ⟨tag, legs, next, rfl, leg⟩ := awaits
  exact ⟨tag, legs, _, bind_round tag legs next f, leg⟩

theorem Effect.acts_keep_empty (effect : Effect) (queues after : Route → List Bytes) (route : Route)
    (acts : effect.Acts queues after) (empty : queues route = []) (silent : ∀ data, effect ≠ .push route data) :
    after route = [] := by
  cases acts with
  | nothing => exact empty
  | push _ other data =>
      have different : route ≠ other := fun same => silent data (by rw [same])
      rwa [Function.update_of_ne different]
  | pop _ other data later waiting =>
      have different : route ≠ other := by
        rintro rfl
        cases empty.symm.trans waiting
      rwa [Function.update_of_ne different]

theorem Stage.move_push_source {α : Type} (me : Nat) (stage after : Stage α) (effect : Effect)
    (move : Move me stage effect after) (route : Route) (data : Bytes) (push : effect = .push route data) : route.source = me := by
  rcases move with call | arrival
  · cases call with
    | post => cases push
    | send =>
        cases push
        rfl
    | wait => cases push
  · cases arrival
    cases push

namespace Network

variable {n : Nat} {α : Type}

theorem ended_stays (net later : Network n α) (me : Fin n) (value : α) (reaches : Reaches net later)
    (ended : net.stages me = .ended value) : later.stages me = .ended value := by
  obtain ⟨k, walk⟩ := reaches
  induction walk with
  | stay => exact ended
  | @step k net middle later first _ ih =>
      apply ih
      obtain ⟨mover, effect, stage, queues, move, _, rfl⟩ := step_cases net middle first
      by_cases same : me = mover
      · subst same
        rw [ended] at move
        exact absurd move (Stage.ended_still _ value _ _)
      · simpa only [Function.update_of_ne same] using ended

theorem ended_agrees (net left right : Network n α) (orderly : net.Orderly) (me : Fin n) (x y : α)
    (first : Reaches net left) (second : Reaches net right) (endedLeft : left.stages me = .ended x)
    (endedRight : right.stages me = .ended y) : x = y := by
  obtain ⟨j, walkLeft⟩ := first
  obtain ⟨k, walkRight⟩ := second
  obtain ⟨joined, fromLeft, fromRight⟩ := walks_meet net left right orderly walkLeft walkRight
  have atLeft := ended_stays left joined me x fromLeft endedLeft
  have atRight := ended_stays right joined me y fromRight endedRight
  exact Stage.ended_inj (atLeft.symm.trans atRight)

structure Waits (net : Network n α) (me other : Fin n) : Prop where
  ended : ∃ value, net.stages other = .ended value
  waiting : ∃ program before tag expected after,
    net.stages me = ⟨program, before ++ ⟨other, tag, expected, none⟩ :: after⟩ ∧ net.queues ⟨other, me, tag⟩ = []

theorem waits_move (me other : Nat) (tag : UInt16) (expected : Nat) (program : Program α) (before after : List Receipt)
    (effect : Effect) (stage : Stage α) (queues later : Route → List Bytes)
    (move : Stage.Move me ⟨program, before ++ ⟨other, tag, expected, none⟩ :: after⟩ effect stage)
    (acts : effect.Acts queues later) (empty : queues ⟨other, me, tag⟩ = []) :
    ∃ program before after, stage = ⟨program, before ++ ⟨other, tag, expected, none⟩ :: after⟩ := by
  generalize place : before ++ ⟨other, tag, expected, none⟩ :: after = receipts at move
  rcases move with call | arrival
  · cases call with
    | post peer tag' expected' next => exact ⟨next, before, after ++ [⟨peer, tag', expected', none⟩], by simp [← place]⟩
    | send _ _ _ next => exact ⟨next, before, after, by rw [place]⟩
    | wait next _ _ _ data rest =>
        cases before with
        | nil => cases place
        | cons receipt before =>
            obtain ⟨-, rfl⟩ := List.cons.inj place
            exact ⟨next (some data), before, after, rfl⟩
  · cases arrival with
    | arrive _ front back peer tag' expected' data =>
        cases acts with
        | pop _ _ _ rest waiting =>
            rcases Stage.two_places _ _ _ _ _ _ place with ⟨_, same, _⟩ | ⟨between, rfl, rfl⟩ | ⟨between, rfl, rfl⟩
            · cases same
              cases empty.symm.trans waiting
            · exact ⟨program, before, between ++ ⟨peer, tag', expected', some (data.take expected')⟩ :: back, by simp⟩
            · exact ⟨program, front ++ ⟨peer, tag', expected', some (data.take expected')⟩ :: between, after, by simp⟩

theorem waits_step (net next : Network n α) (me other : Fin n) (step : Step net next) (waits : Waits net me other) :
    Waits next me other := by
  obtain ⟨⟨value, ended⟩, program, before, tag, expected, after, stands, empty⟩ := waits
  have stays := ended_stays net next other value (reaches_step step) ended
  obtain ⟨mover, effect, stage, queues, move, acts, rfl⟩ := step_cases net next step
  have elsewhere : mover ≠ other := by
    rintro rfl
    rw [ended] at move
    exact Stage.ended_still _ value _ _ move
  have silent : ∀ data, effect ≠ .push ⟨other, me, tag⟩ data := by
    intro data push
    exact elsewhere (Fin.ext (Stage.move_push_source _ _ _ _ move _ data push).symm)
  have stillEmpty := Effect.acts_keep_empty effect net.queues queues _ acts empty silent
  refine ⟨⟨value, stays⟩, ?_⟩
  by_cases same : me = mover
  · subst same
    rw [stands] at move
    obtain ⟨program, before, after, rfl⟩ :=
      waits_move me other tag expected program before after effect stage _ _ move acts empty
    exact ⟨program, before, tag, expected, after, by simp, stillEmpty⟩
  · exact ⟨program, before, tag, expected, after, by simpa only [Function.update_of_ne same] using stands, stillEmpty⟩

theorem waits_forever (net later : Network n α) (me other : Fin n) (reaches : Reaches net later) (waits : Waits net me other)
    (value : α) : later.stages me ≠ .ended value := by
  obtain ⟨k, walk⟩ := reaches
  induction walk with
  | stay =>
      obtain ⟨_, _, before, _, _, _, stands, _⟩ := waits
      rw [stands]
      intro same
      cases before <;> cases same
  | step first _ ih => exact ih (waits_step _ _ me other first waits)

theorem waits_from_start (ranks : Fin n → Program α) (me other : Fin n) (value : α) (ended : ranks other = .done value)
    (awaits : (ranks me).Awaits other.val) : ∃ net, Reaches (start ranks) net ∧ Waits net me other := by
  obtain ⟨tag, legs, next, stands, leg, member, peer⟩ := awaits
  obtain ⟨before, after, rfl⟩ := List.append_of_mem member
  have different : other ≠ me := by
    rintro rfl
    rw [ended] at stands
    cases before <;> cases stands
  have stage : (start ranks).stages me = ⟨.round tag (before ++ leg :: after) next, []⟩ := by simp only [start, stands]
  let rest := Program.sendAll tag (before ++ leg :: after) (.waitAll (before ++ leg :: after).length next)
  let receipt (leg : Leg) : Receipt := ⟨leg.peer, tag, leg.expected, none⟩
  have posted := Group.post_all_reaches tag me (before ++ leg :: after) rest (start ranks).stages [] stage
  have receipts : (before ++ leg :: after).map receipt =
      before.map receipt ++ ⟨other, tag, leg.expected, none⟩ :: after.map receipt := by simp [receipt, peer]
  refine ⟨_, posted, ⟨value, ?_⟩, rest, before.map receipt, tag, leg.expected, after.map receipt, ?_, rfl⟩
  · simp only [Function.update_of_ne different, start, ended]
    rfl
  · simp only [Function.update_self, List.nil_append, ← receipts, receipt]

-- A rank that ends at some point of one run keeps those from ending, in any run, that then await something from it.
theorem starved (first : Network n α) (orderly : first.Orderly) (ranks : Fin n → Program α) (middle : Reaches first (start ranks))
    (me other : Fin n) (value : α) (gone : ranks other = .done value) (awaits : (ranks me).Awaits other.val)
    (net : Network n α) (reaches : Reaches first net) (late : α) : net.stages me ≠ .ended late := by
  intro ended
  obtain ⟨j, walk⟩ := reaches
  obtain ⟨k, toMiddle⟩ := middle
  obtain ⟨posted, ⟨i, toPosted⟩, waits⟩ := waits_from_start ranks me other value gone awaits
  obtain ⟨joined, fromNet, fromPosted⟩ := walks_meet _ _ _ orderly walk (walk_append toMiddle toPosted)
  exact waits_forever _ joined me other fromPosted waits late (ended_stays net joined me late fromNet ended)

end Network

end Seam
