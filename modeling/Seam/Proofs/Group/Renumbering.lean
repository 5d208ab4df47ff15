import Seam.Proofs.Group.Reconciliation
import Seam.Proofs.Neutrality

set_option autoImplicit false

namespace Seam.Reconciliation

section Group

variable {n : Nat} (meshes : Fin n → Mesh) (r : Reducer)

theorem fault_none (me : Fin n) (fine : fault meshes me = none) :
    contribution (meshes me) = (meshes me).vertices ∧ ∀ owner, (sent meshes me owner).length < UInt32.size := by
  obtain ⟨numbered, sendable⟩ := (Option.orElse_eq_none ..).mp fine
  refine ⟨by simp [contribution, Option.map_eq_none_iff.mp numbered], fun owner => ?_⟩
  exact encode_all_fits _ sendable _ (by simp)

def settled (me : Fin n) (v : Vertex) : Vertex :=
  agreed r (met meshes ⟨blockOwner v.gnum (block meshes) n, block_owner_lt v.gnum (block meshes) me⟩) v

theorem answered_ok (me : Fin n) (light : ∀ owner, (copiesTo meshes me owner).length < UInt32.size) (left : Mesh) (numbers : Nat)
    (ok : answered meshes (fun _ => r) me = (left, .ok numbers)) :
    left = { meshes me with vertices := (meshes me).vertices.map (settled meshes r me) } ∧ fault meshes me = none := by
  cases reason : pending meshes (fun _ => r) me with
  | some e =>
      rw [answered, reason] at ok
      cases ok
  | none =>
      have fine := fault_of_pending meshes _ me reason
      obtain ⟨whole, few⟩ := fault_none meshes me fine
      have replies : ∀ owner, repliesTo meshes (fun _ => r) owner me =
          Wire.message Wire.vertex Wire.verticesKind ((sent meshes me owner).map (settled meshes r me)) := by
        intro owner
        rw [(replies_message meshes _ owner me (light owner)).1, (copies_message meshes me owner (few owner)).2]
        refine congrArg _ (List.map_congr_left fun v member => ?_)
        have owned : blockOwner v.gnum (block meshes) n = owner := by simpa using (List.mem_filter.mp member).2
        simp only [settled, owned]
      have written := write_back_changes meshes (settled meshes r me) me few whole
      simp only [answered, reason, concluded, replies, written] at ok
      exact ⟨(Prod.mk.inj ok).1.symm, fine⟩

theorem ended_settled (net : Network n (Mesh × Result Nat))
    (reaches : Network.Reaches (Network.start fun me => reconcile (Seat.member me) r (meshes me)) net) (me : Fin n)
    (left : Mesh) (numbers : Nat) (ended : net.stages me = .ended (left, .ok numbers)) :
    left = { meshes me with vertices := (meshes me).vertices.map (settled meshes r me) } ∧ fault meshes me = none := by
  by_cases light : ∀ source owner, (copiesTo meshes source owner).length < UInt32.size
  · have steps := answers_lockstep meshes (fun _ => r) light
    have orderly : (Network.start fun me => reconcile (Seat.member me) r (meshes me)).Orderly :=
      Network.start_orderly _ fun _ => reconcile_orderly _ _ _
    have same := Network.ended_agrees _ _ _ orderly me _ _ reaches (Group.lockstep_reaches _ _ steps) ended rfl
    exact answered_ok meshes r me (light me) left numbers same.symm
  · obtain ⟨source, heavy⟩ := not_forall.mp light
    cases sends : Group.exchanged (copiesTo meshes) source with
    | ok incoming => exact absurd ((Group.exchanged_ok_iff _ _ _).mp sends).1 heavy
    | error e => exact absurd ended (starved_without_copies meshes (fun _ => r) net reaches me source e sends left numbers)

theorem settled_held (me : Fin n) (fine : fault meshes me = none) (v : Vertex) (member : v ∈ (meshes me).vertices) :
    ((settled meshes r me v).gnum = v.gnum ∧ ∃ rank, settled meshes r me v ∈ (meshes rank).vertices) ∨
      settled meshes r me v = r.identity ∧ r.Overtakes v := by
  obtain ⟨whole, few⟩ := fault_none meshes me fine
  let owner : Fin n := ⟨blockOwner v.gnum (block meshes) n, block_owner_lt v.gnum (block meshes) me⟩
  have here : v ∈ (met meshes owner).filter fun copy => copy.gnum == v.gnum := by
    have own : v ∈ arrived meshes me owner := by
      rw [(copies_message meshes me owner (few owner)).2, sent, whole]
      exact List.mem_filter.mpr ⟨member, by simp [owner]⟩
    refine List.mem_filter.mpr ⟨List.mem_flatten.mpr ⟨arrived meshes me owner, ?_, own⟩, by simp⟩
    exact List.mem_ofFn.mpr ⟨me, rfl⟩
  rcases r.reduce_held ((met meshes owner).filter fun copy => copy.gnum == v.gnum) with held | ⟨lost, overtaken⟩
  · obtain ⟨among, number⟩ := List.mem_filter.mp held
    obtain ⟨_, listed, arrives⟩ := List.mem_flatten.mp among
    obtain ⟨source, rfl⟩ := List.mem_ofFn.mp listed
    exact .inl ⟨beq_iff_eq.mp number, source, arrived_held meshes source owner _ arrives⟩
  · exact .inr ⟨lost, overtaken v here⟩

end Group

-- Each vertex keeps its number and gets a record that was held before, or its own record was overtaken by the identity,
-- and it becomes the identity.
structure Kept (r : Reducer) (before after : Mesh) (held : List Vertex) : Prop where
  frame : after = { before with vertices := after.vertices }
  records : List.Forall₂ (fun v w => (w.gnum = v.gnum ∧ w ∈ held) ∨ (w = r.identity ∧ r.Overtakes v)) before.vertices after.vertices

theorem ended_kept {n : Nat} (meshes : Fin n → Mesh) (r : Reducer) (net : Network n (Mesh × Result Nat))
    (reaches : Network.Reaches (Network.start fun me => reconcile (Seat.member me) r (meshes me)) net) (me : Fin n)
    (left : Mesh) (numbers : Nat) (ended : net.stages me = .ended (left, .ok numbers)) :
    Kept r (meshes me) left (List.ofFn fun rank => (meshes rank).vertices).flatten := by
  obtain ⟨rfl, fine⟩ := ended_settled meshes r net reaches me left numbers ended
  refine ⟨rfl, List.forall₂_map_right_iff.mpr (List.forall₂_same.mpr fun v member => ?_)⟩
  rcases settled_held meshes r me fine v member with ⟨number, rank, held⟩ | lost
  · exact .inl ⟨number, List.mem_flatten.mpr ⟨_, List.mem_ofFn.mpr ⟨rank, rfl⟩, held⟩⟩
  · exact .inr lost

theorem solo_ends (r : Reducer) (m : Mesh) : ∃ outcomes : Fin 1 → Mesh × Result Nat,
    Group.Lockstep (fun me : Fin 1 => reconcile (Seat.member me) r m) fun me => .done (outcomes me) := by
  let meshes : Fin 1 → Mesh := fun _ => m
  cases sends : Group.exchanged (copiesTo meshes) 0 with
  | error e =>
      refine ⟨fun _ => (m, .error e), Group.lockstep_trans (copies_lockstep meshes fun _ => r) (Group.lockstep_of_eq fun me => ?_)⟩
      rw [Subsingleton.elim me 0, sends]
      rfl
  | ok incoming =>
      obtain ⟨light, _⟩ := (Group.exchanged_ok_iff _ _ _).mp sends
      refine ⟨_, answers_lockstep meshes (fun _ => r) fun source owner => ?_⟩
      rw [Subsingleton.elim source 0]
      exact light owner

theorem solo_kept (r : Reducer) (m left : Mesh) (numbers : Nat) (ok : (reconcile Seat.solo r m).alone = (left, .ok numbers)) :
    Kept r m left m.vertices := by
  obtain ⟨outcomes, steps⟩ := solo_ends r m
  rw [reconcile_solo, Group.lockstep_alone _ _ steps 0] at ok
  have ended : (Network.start fun me : Fin 1 => .done (outcomes me)).stages 0 = .ended (left, .ok numbers) := congrArg Stage.ended ok
  have kept := ended_kept (fun _ : Fin 1 => m) r _ (Group.lockstep_reaches _ _ steps) 0 left numbers ended
  simpa using kept

theorem reconcile_keeps_numbers (r : Reducer) :
    (∀ (n : Nat) (meshes : Fin n → Mesh) (net : Network n (Mesh × Result Nat)),
      Network.Reaches (Network.start fun me => reconcile (Seat.member me) r (meshes me)) net →
      ∀ me left numbers, net.stages me = .ended (left, .ok numbers) →
        Kept r (meshes me) left (List.ofFn fun rank => (meshes rank).vertices).flatten) ∧
    (∀ (m left : Mesh) (numbers : Nat), (reconcile Seat.solo r m).alone = (left, .ok numbers) → Kept r m left m.vertices) ∧
    ∀ v : Vertex, v.tolerance.isNaN = false → v.gnum ≠ r.identity.gnum → ¬ r.Overtakes v := by
  refine ⟨?group, solo_kept r, r.not_overtakes⟩
  intro n meshes net reaches me left numbers ended
  exact ended_kept meshes r net reaches me left numbers ended

theorem dots_keep_their_number :
    (∃ net left numbers, Network.Reaches (Network.start fun me => reconcile (Seat.member me) .least (![dot 5 2, dot 5 1] me)) net ∧
      net.stages 0 = .ended (left, .ok numbers) ∧
      Kept .least (dot 5 2) left (List.ofFn fun rank => (![dot 5 2, dot 5 1] rank).vertices).flatten) ∧
    (∃ left numbers, (reconcile Seat.solo .greatest (dot 5 2)).alone = (left, .ok numbers) ∧
      Kept .greatest (dot 5 2) left (dot 5 2).vertices) ∧
    ¬ Reducer.least.Overtakes ⟨5, ⟨2⟩, ⟨⟨0⟩, ⟨0⟩, ⟨0⟩⟩⟩ := by
  obtain ⟨inGroup, _, real⟩ := reconcile_keeps_numbers .least
  obtain ⟨_, alone, _⟩ := reconcile_keeps_numbers .greatest
  refine ⟨?_, ⟨_, _, rfl, alone (dot 5 2) _ _ rfl⟩, real _ (by decide) (by decide)⟩
  have light : Light ![dot 5 2, dot 5 1] := by decide
  have steps := reconcile_lockstep ![dot 5 2, dot 5 1] (fun _ => .least) light
  rw [outcome_one_reducer _ .least light] at steps
  have reaches := Group.lockstep_reaches _ _ steps
  exact ⟨_, _, _, reaches, rfl, inGroup 2 ![dot 5 2, dot 5 1] _ reaches 0 _ _ rfl⟩

theorem reconcile_renumbers_a_dot : ∃ left numbers,
    (reconcile Seat.solo .least (dot 7 0x7FF8000000000000)).alone = (left, .ok numbers) ∧
      (dot 7 0x7FF8000000000000).vertices.map Vertex.gnum = [7] ∧ left.vertices.map Vertex.gnum = [0xFFFFFFFFFFFFFFFF] := by
  refine ⟨_, _, rfl, rfl, ?_⟩
  decide

end Seam.Reconciliation
