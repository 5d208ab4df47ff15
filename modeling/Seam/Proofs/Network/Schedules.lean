import Mathlib.Data.List.Nodup
import Seam.Network

set_option autoImplicit false

/- The order of steps does not matter. Two steps that a network can make at once can also follow each other, in
   either order and with the same outcome. So all runs from one network meet again, and if one of them comes to
   an end then every run ends there, after equally many steps. -/
namespace Seam

open Function (update)

namespace Network

inductive Walk {n : Nat} {α : Type} : Nat → Network n α → Network n α → Prop where
  | stay (net : Network n α) : Walk 0 net net
  | step {k : Nat} {a b c : Network n α} (first : Step a b) (rest : Walk k b c) : Walk (k + 1) a c

def Reaches {n : Nat} {α : Type} (a b : Network n α) : Prop := ∃ k, Walk k a b

def Stuck {n : Nat} {α : Type} (net : Network n α) : Prop := ¬ ∃ next, Step net next

theorem walk_append {n : Nat} {α : Type} {j k : Nat} {a b c : Network n α}
    (first : Walk j a b) (second : Walk k b c) : Walk (j + k) a c := by
  induction first with
  | stay net => simpa using second
  | step head _ ih =>
      rw [Nat.add_right_comm]
      exact .step head (ih second)

theorem reaches_refl {n : Nat} {α : Type} (net : Network n α) : Reaches net net := ⟨0, .stay net⟩

theorem reaches_step {n : Nat} {α : Type} {a b : Network n α} (step : Step a b) : Reaches a b :=
  ⟨1, .step step (.stay b)⟩

theorem reaches_trans {n : Nat} {α : Type} {a b c : Network n α}
    (first : Reaches a b) (second : Reaches b c) : Reaches a c := by
  obtain ⟨j, first⟩ := first
  obtain ⟨k, second⟩ := second
  exact ⟨j + k, walk_append first second⟩

end Network

inductive Effect where
  | nothing
  | push (route : Route) (data : Bytes)
  | pop (route : Route) (data : Bytes)

namespace Effect

inductive Acts : Effect → (Route → List Bytes) → (Route → List Bytes) → Prop where
  | nothing (queues : Route → List Bytes) : Acts .nothing queues queues
  | push (queues : Route → List Bytes) (route : Route) (data : Bytes) :
      Acts (.push route data) queues (update queues route (queues route ++ [data]))
  | pop (queues : Route → List Bytes) (route : Route) (data : Bytes) (later : List Bytes)
      (waiting : queues route = data :: later) : Acts (.pop route data) queues (update queues route later)

def Apart : Effect → Effect → Prop
  | .push a _, .push b _ => a ≠ b
  | .pop a _, .pop b _ => a ≠ b
  | _, _ => True

theorem apart_symm (e f : Effect) (apart : Apart e f) : Apart f e := by
  cases e <;> cases f <;> first | exact Ne.symm apart | trivial

theorem acts_deterministic (effect : Effect) (queues left right : Route → List Bytes)
    (first : Acts effect queues left) (second : Acts effect queues right) : left = right := by
  cases first with
  | nothing => cases second; rfl
  | push _ route data => cases second; rfl
  | pop _ route data later waiting =>
      cases second with
      | pop _ _ _ other same => rw [(List.cons.inj (waiting.symm.trans same)).2]

theorem pops_agree (queues left right : Route → List Bytes) (route : Route) (a b : Bytes)
    (first : Acts (.pop route a) queues left) (second : Acts (.pop route b) queues right) : a = b := by
  cases first with
  | pop _ _ _ later waiting =>
      cases second with
      | pop _ _ _ other same => exact (List.cons.inj (waiting.symm.trans same)).1

theorem push_push_commute (queues : Route → List Bytes) (a b : Route) (x y : Bytes) (apart : a ≠ b) :
    ∃ joined, Acts (.push b y) (update queues a (queues a ++ [x])) joined ∧
      Acts (.push a x) (update queues b (queues b ++ [y])) joined := by
  refine ⟨_, .push _ b y, ?_⟩
  have step := Acts.push (update queues b (queues b ++ [y])) a x
  simpa only [Function.update_of_ne apart, Function.update_of_ne apart.symm, Function.update_comm apart] using step

theorem pop_pop_commute (queues : Route → List Bytes) (a b : Route) (x y : Bytes) (restA restB : List Bytes)
    (waitingA : queues a = x :: restA) (waitingB : queues b = y :: restB) (apart : a ≠ b) :
    ∃ joined, Acts (.pop b y) (update queues a restA) joined ∧ Acts (.pop a x) (update queues b restB) joined := by
  refine ⟨update (update queues a restA) b restB, .pop _ b y restB ?_, ?_⟩
  · rwa [Function.update_of_ne apart.symm]
  · rw [Function.update_comm apart]
    exact .pop _ a x restA (by rwa [Function.update_of_ne apart])

theorem push_pop_commute (queues : Route → List Bytes) (a b : Route) (x y : Bytes) (rest : List Bytes)
    (waiting : queues b = y :: rest) :
    ∃ joined, Acts (.pop b y) (update queues a (queues a ++ [x])) joined ∧
      Acts (.push a x) (update queues b rest) joined := by
  by_cases same : a = b
  · subst same
    refine ⟨update queues a (rest ++ [x]), ?_, ?_⟩
    · have step := Acts.pop (update queues a (queues a ++ [x])) a y (rest ++ [x]) (by simp [waiting])
      rwa [Function.update_idem] at step
    · have step := Acts.push (update queues a rest) a x
      rwa [Function.update_idem, Function.update_self] at step
  · refine ⟨update (update queues a (queues a ++ [x])) b rest, .pop _ b y rest ?_, ?_⟩
    · rwa [Function.update_of_ne (Ne.symm same)]
    · rw [Function.update_comm same]
      have step := Acts.push (update queues b rest) a x
      rwa [Function.update_of_ne same] at step

theorem acts_commute (e f : Effect) (queues left right : Route → List Bytes) (apart : Apart e f)
    (first : Acts e queues left) (second : Acts f queues right) :
    ∃ joined, Acts f left joined ∧ Acts e right joined := by
  cases first with
  | nothing => exact ⟨right, second, .nothing right⟩
  | push _ a x =>
      cases second with
      | nothing => exact ⟨_, .nothing _, .push queues a x⟩
      | push _ b y => exact push_push_commute queues a b x y apart
      | pop _ b y rest waiting => exact push_pop_commute queues a b x y rest waiting
  | pop _ a x restA waitingA =>
      cases second with
      | nothing => exact ⟨_, .nothing _, .pop queues a x restA waitingA⟩
      | push _ b y =>
          obtain ⟨joined, popped, pushed⟩ := push_pop_commute queues b a y x restA waitingA
          exact ⟨joined, pushed, popped⟩
      | pop _ b y restB waitingB => exact pop_pop_commute queues a b x y restA restB waitingA waitingB apart

end Effect

def Receipt.origin (receipt : Receipt) : Nat × UInt16 := (receipt.peer, receipt.tag)

@[simp] theorem Receipt.origin_mk (peer : Nat) (tag : UInt16) (expected : Nat) (message : Option Bytes) :
    (⟨peer, tag, expected, message⟩ : Receipt).origin = (peer, tag) := rfl

-- Whatever is answered, no two receives from one peer under one tag are open at once, and each of them is waited for.
-- The list tells which are open.
def Program.OrderlyWith {α : Type} : Program α → List (Nat × UInt16) → Prop
  | .done _, pending => pending = []
  | .post peer tag _ next, pending => (peer, tag) ∉ pending ∧ next.OrderlyWith (pending ++ [(peer, tag)])
  | .send _ _ _ next, pending => next.OrderlyWith pending
  | .wait next, pending => pending ≠ [] ∧ ∀ answer, (next answer).OrderlyWith pending.tail

structure Program.Orderly {α : Type} (program : Program α) : Prop where
  ahead : program.OrderlyWith []

namespace Stage

variable {α : Type}

structure Orderly (stage : Stage α) : Prop where
  apart : (stage.receipts.map Receipt.origin).Nodup
  ahead : stage.program.OrderlyWith (stage.receipts.map Receipt.origin)

inductive Calls (me : Nat) : Stage α → Effect → Stage α → Prop where
  | post (peer : Nat) (tag : UInt16) (expected : Nat) (next : Program α) (receipts : List Receipt) :
      Calls me ⟨.post peer tag expected next, receipts⟩ .nothing ⟨next, receipts ++ [⟨peer, tag, expected, none⟩]⟩
  | send (peer : Nat) (tag : UInt16) (data : Bytes) (next : Program α) (receipts : List Receipt) :
      Calls me ⟨.send peer tag data next, receipts⟩ (.push ⟨me, peer, tag⟩ data) ⟨next, receipts⟩
  | wait (next : Option Bytes → Program α) (peer : Nat) (tag : UInt16) (expected : Nat) (data : Bytes)
      (receipts : List Receipt) :
      Calls me ⟨.wait next, ⟨peer, tag, expected, some data⟩ :: receipts⟩ .nothing ⟨next (some data), receipts⟩

inductive Arrives (me : Nat) : Stage α → Effect → Stage α → Prop where
  | arrive (program : Program α) (before after : List Receipt) (peer : Nat) (tag : UInt16) (expected : Nat) (data : Bytes) :
      Arrives me ⟨program, before ++ ⟨peer, tag, expected, none⟩ :: after⟩ (.pop ⟨peer, me, tag⟩ data)
        ⟨program, before ++ ⟨peer, tag, expected, some (data.take expected)⟩ :: after⟩

def Move (me : Nat) (stage : Stage α) (effect : Effect) (after : Stage α) : Prop :=
  Calls me stage effect after ∨ Arrives me stage effect after

theorem move_orderly (me : Nat) (stage after : Stage α) (effect : Effect) (move : Move me stage effect after)
    (orderly : stage.Orderly) : after.Orderly := by
  obtain ⟨apart, ahead⟩ := orderly
  rcases move with call | arrival
  · cases call with
    | post peer tag expected next receipts =>
        obtain ⟨fresh, later⟩ := ahead
        refine ⟨?_, by simpa using later⟩
        rw [List.map_append, List.nodup_append]
        refine ⟨apart, by simp, ?_⟩
        rintro origin member other single rfl
        simp only [List.map_cons, List.map_nil, Receipt.origin_mk, List.mem_singleton] at single
        exact fresh (single ▸ member)
    | send => exact ⟨apart, ahead⟩
    | wait next peer tag expected data receipts => exact ⟨(List.nodup_cons.mp apart).2, ahead.2 (some data)⟩
  · cases arrival with
    | arrive program before after peer tag expected data =>
        exact ⟨by simpa using apart, by simpa using ahead⟩

theorem ended_inj {x y : α} (same : ended x = ended y) : x = y := Program.done.inj (congrArg Stage.program same)

theorem ended_still (me : Nat) (value : α) (effect : Effect) (after : Stage α) : ¬ Move me (ended value) effect after := by
  rintro (call | arrival)
  · cases call
  · generalize standsEq : ended value = stands at arrival
    cases arrival with
    | arrive program before => cases before <;> cases standsEq

theorem two_places {β : Type} (before after before' after' : List β) (x y : β)
    (same : before ++ x :: after = before' ++ y :: after') :
    (before = before' ∧ x = y ∧ after = after') ∨
    (∃ between, before' = before ++ x :: between ∧ after = between ++ y :: after') ∨
    (∃ between, before = before' ++ y :: between ∧ after' = between ++ x :: after) := by
  rcases List.append_eq_append_iff.mp same with ⟨middle, left, right⟩ | ⟨middle, left, right⟩
  · cases middle with
    | nil => exact .inl ⟨by simpa using left.symm, (List.cons.inj right).1, (List.cons.inj right).2⟩
    | cons z between =>
        obtain ⟨rfl, rest⟩ := List.cons.inj right
        exact .inr (.inl ⟨between, left, rest⟩)
  · cases middle with
    | nil => exact .inl ⟨by simpa using left, (List.cons.inj right).1.symm, (List.cons.inj right).2.symm⟩
    | cons z between =>
        obtain ⟨rfl, rest⟩ := List.cons.inj right
        exact .inr (.inr ⟨between, left, rest⟩)

theorem calls_agree (me : Nat) (stage left right : Stage α) (e f : Effect) (first : Calls me stage e left)
    (second : Calls me stage f right) : e = f ∧ left = right := by
  cases first <;> cases second <;> exact ⟨rfl, rfl⟩

theorem call_beside_arrival (me : Nat) (stage left right : Stage α) (e f : Effect) (call : Calls me stage e left)
    (arrival : Arrives me stage f right) :
    ∃ joined, Arrives me left f joined ∧ Calls me right e joined ∧ e.Apart f := by
  cases arrival with
  | arrive program before after peer tag expected data =>
      generalize place : before ++ ⟨peer, tag, expected, none⟩ :: after = receipts at call
      cases call with
      | post peer' tag' expected' next =>
          subst place
          refine ⟨_, ?_, .post peer' tag' expected' next _, trivial⟩
          have later : Arrives me _ _ _ :=
            .arrive next before (after ++ [⟨peer', tag', expected', none⟩]) peer tag expected data
          simpa using later
      | send peer' tag' sent next =>
          subst place
          exact ⟨_, .arrive next before after peer tag expected data, .send peer' tag' sent next _, trivial⟩
      | wait next peer' tag' expected' given rest =>
          -- The oldest receive has its message, so the arrival is for a later one.
          cases before with
          | nil => cases place
          | cons receipt before =>
              obtain ⟨rfl, rfl⟩ := List.cons.inj place
              exact ⟨_, .arrive (next (some given)) before after peer tag expected data,
                .wait next peer' tag' expected' given _, trivial⟩

theorem arrivals_in_order (me : Nat) (program : Program α) (before between after : List Receipt) (first second : Nat × UInt16)
    (room room' : Nat) (x y : Bytes) (different : first ≠ second) :
    let waits (origin : Nat × UInt16) (expected : Nat) (message : Option Bytes) : Receipt :=
      ⟨origin.1, origin.2, expected, message⟩
    let stage (a b : Option Bytes) : Stage α :=
      ⟨program, before ++ waits first room a :: (between ++ waits second room' b :: after)⟩
    let e : Effect := .pop ⟨first.1, me, first.2⟩ x
    let f : Effect := .pop ⟨second.1, me, second.2⟩ y
    ∃ joined, Arrives me (stage (some (x.take room)) none) f joined ∧
      Arrives me (stage none (some (y.take room'))) e joined ∧ e.Apart f := by
  intro waits stage e f
  refine ⟨stage (some (x.take room)) (some (y.take room')), ?_, .arrive program before _ first.1 first.2 room x, ?_⟩
  · have later : Arrives me _ _ _ :=
      .arrive program (before ++ waits first room (some (x.take room)) :: between) after second.1 second.2 room' y
    simpa [stage, waits] using later
  · intro same
    exact different (Prod.ext (congrArg Route.source same) (congrArg Route.tag same))

theorem arrivals_agree (me : Nat) (stage left right : Stage α) (e f : Effect) (orderly : stage.Orderly)
    (first : Arrives me stage e left) (second : Arrives me stage f right)
    (agree : ∀ route x y, e = .pop route x → f = .pop route y → x = y) :
    (e = f ∧ left = right) ∨ ∃ joined, Arrives me left f joined ∧ Arrives me right e joined ∧ e.Apart f := by
  cases first with
  | arrive program before after peer tag expected x =>
      generalize place : before ++ ⟨peer, tag, expected, none⟩ :: after = receipts at second orderly
      cases second with
      | arrive _ before' after' peer' tag' expected' y =>
          have apart := orderly.apart
          rcases two_places _ _ _ _ _ _ place with ⟨rfl, same, rfl⟩ | ⟨between, rfl, rfl⟩ | ⟨between, rfl, rfl⟩
          · cases same
            obtain rfl := agree _ _ _ rfl rfl
            exact .inl ⟨rfl, rfl⟩
          · have different : (peer, tag) ≠ (peer', tag') := by
              intro same
              simp [Receipt.origin, List.nodup_append, same] at apart
            have both := arrivals_in_order me program before between after' (peer, tag) (peer', tag') expected expected' x y different
            exact .inr (by simpa using both)
          · have different : (peer', tag') ≠ (peer, tag) := by
              intro same
              simp [Receipt.origin, List.nodup_append, same] at apart
            obtain ⟨joined, one, two, apart⟩ :=
              arrivals_in_order me program before' between after (peer', tag') (peer, tag) expected' expected y x different
            exact .inr ⟨joined, by simpa using two, by simpa using one, Ne.symm apart⟩

theorem moves_of_one_rank (me : Nat) (stage left right : Stage α) (e f : Effect) (orderly : stage.Orderly)
    (first : Move me stage e left) (second : Move me stage f right)
    (agree : ∀ route x y, e = .pop route x → f = .pop route y → x = y) :
    (e = f ∧ left = right) ∨ ∃ joined, Move me left f joined ∧ Move me right e joined ∧ e.Apart f := by
  rcases first with call | arrival <;> rcases second with call' | arrival'
  · exact .inl (calls_agree me stage left right e f call call')
  · obtain ⟨joined, later, made, apart⟩ := call_beside_arrival me stage left right e f call arrival'
    exact .inr ⟨joined, .inr later, .inl made, apart⟩
  · obtain ⟨joined, later, made, apart⟩ := call_beside_arrival me stage right left f e call' arrival
    exact .inr ⟨joined, .inl made, .inr later, Effect.apart_symm f e apart⟩
  · rcases arrivals_agree me stage left right e f orderly arrival arrival' agree with same | ⟨joined, one, two, apart⟩
    · exact .inl same
    · exact .inr ⟨joined, .inr one, .inr two, apart⟩

end Stage

namespace Network

variable {n : Nat} {α : Type}

def Orderly (net : Network n α) : Prop := ∀ me, (net.stages me).Orderly

theorem start_orderly (ranks : Fin n → Program α) (orderly : ∀ me, (ranks me).Orderly) : (start ranks).Orderly :=
  fun me => ⟨by simp [start], (orderly me).ahead⟩

theorem assign_eq_update {ι β : Type} [DecidableEq ι] (table : ι → β) (place : ι) (entry : β) :
    assign table place entry = update table place entry := by
  funext i
  simp [assign, Function.update_apply]

theorem step_cases (net next : Network n α) (step : Step net next) :
    ∃ me effect stage queues, Stage.Move me.val (net.stages me) effect stage ∧ effect.Acts net.queues queues ∧
      next = ⟨update net.stages me stage, queues⟩ := by
  cases step with
  | @post me peer tag expected next receipts stands =>
      exact ⟨me, _, _, _, .inl (by rw [stands]; exact .post peer tag expected next receipts), .nothing _, by rw [assign_eq_update]⟩
  | @send me peer tag data next receipts stands =>
      exact ⟨me, _, _, _, .inl (by rw [stands]; exact .send peer tag data next receipts), .push _ _ _, by simp only [assign_eq_update]⟩
  | @arrive me program before after peer tag expected data later stands waiting =>
      exact ⟨me, _, _, _, .inr (by rw [stands]; exact .arrive program before after peer tag expected data), .pop _ _ _ _ waiting,
        by simp only [assign_eq_update]⟩
  | @wait me next peer tag expected data receipts stands =>
      exact ⟨me, _, _, _, .inl (by rw [stands]; exact .wait next peer tag expected data receipts), .nothing _, by rw [assign_eq_update]⟩

theorem step_of_move (net : Network n α) (me : Fin n) (effect : Effect) (stage : Stage α)
    (queues : Route → List Bytes) (move : Stage.Move me.val (net.stages me) effect stage)
    (acts : effect.Acts net.queues queues) : Step net ⟨update net.stages me stage, queues⟩ := by
  rw [← assign_eq_update]
  generalize standsEq : net.stages me = stands at move
  rcases move with call | arrival
  · cases call with
    | post peer tag expected next receipts => cases acts; exact .post standsEq
    | send peer tag data next receipts =>
        cases acts
        rw [← assign_eq_update]
        exact .send standsEq
    | wait next peer tag expected data receipts => cases acts; exact .wait standsEq
  · cases arrival with
    | arrive program before after peer tag expected data =>
        cases acts with
        | pop _ _ _ later waiting =>
            rw [← assign_eq_update]
            exact .arrive standsEq waiting

theorem advance_step (net next : Network n α) (me : Fin n) (advanced : net.advance me = some next) : Step net next := by
  unfold advance at advanced
  split at advanced
  case h_1 => cases advanced
  case h_2 peer tag expected rest receipts stands => cases advanced; exact .post stands
  case h_3 peer tag data rest receipts stands => cases advanced; exact .send stands
  case h_4 rest peer tag expected data receipts stands => cases advanced; exact .wait stands
  case h_5 rest peer tag expected receipts stands =>
    split at advanced
    case h_1 => cases advanced
    case h_2 data later waiting =>
        cases advanced
        have oldest : net.stages me = ⟨.wait rest, [] ++ ⟨peer, tag, expected, none⟩ :: receipts⟩ := stands
        exact .arrive oldest waiting
  case h_6 => cases advanced

theorem sweep_reaches (net : Network n α) : Reaches net net.sweep := by
  have each : ∀ (ranks : List (Fin n)) (net : Network n α),
      Reaches net (ranks.foldl (fun net me => (net.advance me).getD net) net) := by
    intro ranks
    induction ranks with
    | nil => exact reaches_refl
    | cons me ranks ih =>
        intro net
        cases advanced : net.advance me with
        | none => simpa [advanced] using ih net
        | some next =>
            have first := reaches_step (advance_step net next me advanced)
            simpa [advanced] using reaches_trans first (ih next)
  exact each _ net

theorem step_orderly (net next : Network n α) (orderly : net.Orderly) (step : Step net next) : next.Orderly := by
  obtain ⟨me, effect, stage, queues, move, _, rfl⟩ := step_cases net next step
  intro other
  by_cases same : other = me
  · subst same
    simpa only [Function.update_self] using Stage.move_orderly _ _ _ _ move (orderly other)
  · simpa only [Function.update_of_ne same] using orderly other

theorem moves_apart (me other : Nat) (different : me ≠ other) (a a' b b' : Stage α) (e f : Effect)
    (first : Stage.Move me a e a') (second : Stage.Move other b f b') : e.Apart f := by
  rcases first with first | first <;> rcases second with second | second <;> cases first <;> cases second <;>
    simp [Effect.Apart, different]

theorem diamond (net left right : Network n α) (orderly : net.Orderly) (first : Step net left) (second : Step net right) :
    left = right ∨ ∃ joined, Step left joined ∧ Step right joined := by
  obtain ⟨a, e, stageA, queuesA, moveA, actsA, rfl⟩ := step_cases net left first
  obtain ⟨b, f, stageB, queuesB, moveB, actsB, rfl⟩ := step_cases net right second
  by_cases same : a = b
  -- One rank can only choose between receipts from different peers.
  · subst same
    have agree : ∀ route x y, e = .pop route x → f = .pop route y → x = y := by
      rintro route x y rfl rfl
      exact Effect.pops_agree _ _ _ _ _ _ actsA actsB
    rcases Stage.moves_of_one_rank a.val _ _ _ e f (orderly a) moveA moveB agree with
      ⟨rfl, rfl⟩ | ⟨stage, afterA, afterB, apart⟩
    · rw [Effect.acts_deterministic _ _ _ _ actsA actsB]
      exact .inl rfl
    · obtain ⟨queues, lateB, lateA⟩ := Effect.acts_commute e f _ _ _ apart actsA actsB
      have stepA := step_of_move ⟨update net.stages a stageA, queuesA⟩ a f stage queues (by simpa using afterA) lateB
      have stepB := step_of_move ⟨update net.stages a stageB, queuesB⟩ a e stage queues (by simpa using afterB) lateA
      simp only [Function.update_idem] at stepA stepB
      exact .inr ⟨_, stepA, stepB⟩
  · have apart := moves_apart a.val b.val (fun equal => same (Fin.ext equal)) _ _ _ _ e f moveA moveB
    obtain ⟨queues, lateB, lateA⟩ := Effect.acts_commute e f _ _ _ apart actsA actsB
    have stepA := step_of_move ⟨update net.stages a stageA, queuesA⟩ b f stageB queues
      (by simpa [Function.update_of_ne (Ne.symm same)] using moveB) lateB
    have stepB := step_of_move ⟨update net.stages b stageB, queuesB⟩ a e stageA queues
      (by simpa [Function.update_of_ne same] using moveA) lateA
    -- Both orders leave the same stages, those of `a` and of `b`.
    simp only [Function.update_comm same] at stepA
    exact .inr ⟨_, stepA, stepB⟩

-- A step beside a walk either is one of the walk's steps, made earlier, or can still be made at its end.
theorem step_beside_walk {k : Nat} (net aside after : Network n α) (orderly : net.Orderly)
    (step : Step net aside) (walk : Walk k net after) :
    (∃ j, k = j + 1 ∧ Walk j aside after) ∨ (∃ joined, Walk k aside joined ∧ Step after joined) := by
  induction walk generalizing aside with
  | stay net => exact .inr ⟨aside, .stay aside, step⟩
  | @step k net middle after first rest ih =>
      rcases diamond net aside middle orderly step first with rfl | ⟨joined, fromAside, fromMiddle⟩
      · exact .inl ⟨k, rfl, rest⟩
      · rcases ih joined (step_orderly net middle orderly first) fromMiddle with ⟨j, rfl, walk⟩ | ⟨last, walk, final⟩
        · exact .inl ⟨j + 1, rfl, .step fromAside walk⟩
        · exact .inr ⟨last, .step fromAside walk, final⟩

theorem walks_meet {j k : Nat} (net left right : Network n α) (orderly : net.Orderly)
    (first : Walk j net left) (second : Walk k net right) : ∃ joined, Reaches left joined ∧ Reaches right joined := by
  induction first generalizing k right with
  | stay net => exact ⟨right, ⟨k, second⟩, reaches_refl right⟩
  | @step j net middle left step rest ih =>
      have later := step_orderly net middle orderly step
      rcases step_beside_walk net middle right orderly step second with ⟨i, _, walk⟩ | ⟨aside, walk, final⟩
      · exact ih right later walk
      · obtain ⟨joined, fromLeft, fromAside⟩ := ih aside later walk
        exact ⟨joined, fromLeft, reaches_trans (reaches_step final) fromAside⟩

theorem walk_to_end {j k : Nat} (net between final : Network n α) (orderly : net.Orderly) (stuck : final.Stuck)
    (first : Walk j net between) (second : Walk k net final) : ∃ i, k = j + i ∧ Walk i between final := by
  induction first generalizing k with
  | stay net => exact ⟨k, (Nat.zero_add k).symm, second⟩
  | @step j net middle between step rest ih =>
      rcases step_beside_walk net middle final orderly step second with ⟨i, rfl, walk⟩ | ⟨joined, _, more⟩
      · obtain ⟨left, rfl, remaining⟩ := ih (step_orderly net middle orderly step) walk
        exact ⟨left, by omega, remaining⟩
      · exact absurd ⟨joined, more⟩ stuck

end Network

end Seam
