import Seam.Group.Basic
import Seam.Proofs.Network.Rounds

set_option autoImplicit false

namespace Seam

variable {α β : Type}

inductive Program.Ends : Program α → α → Prop where
  | done (value : α) : Ends (.done value) value
  | post (peer : Nat) (tag : UInt16) (expected : Nat) (next : Program α) (value : α) (rest : Ends next value) :
      Ends (.post peer tag expected next) value
  | send (peer : Nat) (tag : UInt16) (data : Bytes) (next : Program α) (value : α) (rest : Ends next value) :
      Ends (.send peer tag data next) value
  | wait (next : Option Bytes → Program α) (answer : Option Bytes) (value : α) (rest : Ends (next answer) value) :
      Ends (.wait next) value

namespace Program

theorem ends_done (value final : α) (ends : Ends (.done value) final) : final = value := by
  cases ends
  rfl

theorem ends_bind (program : Program α) (f : α → Program β) (final : β) (ends : Ends (program >>= f) final) :
    ∃ value, Ends program value ∧ Ends (f value) final := by
  induction program with
  | done value => exact ⟨value, .done value, ends⟩
  | post peer tag expected next ih =>
      cases ends with
      | post _ _ _ _ _ rest =>
          obtain ⟨value, first, second⟩ := ih rest
          exact ⟨value, .post peer tag expected next value first, second⟩
  | send peer tag data next ih =>
      cases ends with
      | send _ _ _ _ _ rest =>
          obtain ⟨value, first, second⟩ := ih rest
          exact ⟨value, .send peer tag data next value first, second⟩
  | wait next ih =>
      cases ends with
      | wait _ answer _ rest =>
          obtain ⟨value, first, second⟩ := ih answer rest
          exact ⟨value, .wait next answer value first, second⟩

end Program

theorem Stage.ends_before (me : Nat) (stage after : Stage α) (effect : Effect) (move : Move me stage effect after) (final : α)
    (ends : after.program.Ends final) : stage.program.Ends final := by
  rcases move with call | arrival
  · cases call with
    | post peer tag expected next => exact .post peer tag expected next final ends
    | send peer tag data next => exact .send peer tag data next final ends
    | wait next _ _ _ data => exact .wait next (some data) final ends
  · cases arrival
    exact ends

theorem Network.ends_step {n : Nat} (net next : Network n α) (step : Step net next) (me : Fin n) (value : α)
    (ends : (next.stages me).program.Ends value) : (net.stages me).program.Ends value := by
  obtain ⟨mover, effect, stage, queues, move, _, rfl⟩ := step_cases net next step
  by_cases same : me = mover
  · subst same
    simp only [Function.update_self] at ends
    exact Stage.ends_before me _ _ effect move value ends
  · simpa only [Function.update_of_ne same] using ends

theorem Network.ends_walk {n k : Nat} (net last : Network n α) (walk : Walk k net last) (me : Fin n) (value : α)
    (ends : (last.stages me).program.Ends value) : (net.stages me).program.Ends value := by
  induction walk with
  | stay => exact ends
  | step first _ ih => exact ends_step _ _ first me value (ih ends)

theorem Network.ended_ends {n : Nat} (ranks : Fin n → Program α) (net : Network n α) (reaches : Reaches (start ranks) net)
    (me : Fin n) (value : α) (ended : net.stages me = .ended value) : (ranks me).Ends value := by
  obtain ⟨k, walk⟩ := reaches
  have last : (net.stages me).program.Ends value := by rw [ended]; exact .done value
  exact ends_walk _ net walk me value last

end Seam
