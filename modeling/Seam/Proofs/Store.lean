import Mathlib.Logic.Function.Basic
import Seam.Proofs.Group.Reconciliation
import Seam.Proofs.Group.Selection
import Seam.Proofs.Intake
import Seam.Proofs.Mesh.Soundness
import Seam.Proofs.Network.Answers

set_option autoImplicit false

namespace Seam

namespace Assembly

theorem decode_all_facets (a : Assembly) (messages : List Bytes) (result : Assembly) (ok : a.decodeAll messages = .ok result) :
    ∃ items, result = a.addFacets items := by
  induction messages generalizing a with
  | nil => exact ⟨[], (Except.ok.inj ok).symm⟩
  | cons bytes messages ih =>
      simp only [decodeAll] at ok
      obtain ⟨_, _, rest⟩ := bind_ok _ _ _ ok
      obtain ⟨items, first⟩ := decode_facets a bytes
      obtain ⟨more, later⟩ := ih _ rest
      exact ⟨items ++ more, by rw [later, first, add_facets_append]⟩

end Assembly

theorem Shipment.unload_check (p : Shipment) (ranks : Nat) (m : Mesh) (name : String) (received : List Bytes) (result : Mesh)
    (ok : p.unload ranks m name received = .ok result) : result.check = .ok () := by
  obtain ⟨_, _, decoding⟩ := bind_ok _ _ _ ok
  obtain ⟨assembly, decoded, done⟩ := bind_ok _ _ _ decoding
  obtain ⟨items, rfl⟩ := Assembly.decode_all_facets _ _ _ decoded
  obtain rfl := Except.ok.inj done
  exact Assembly.assembled_check items name

theorem ship_check (s : Seat) (p : Shipment) (m : Mesh) (name : String) (result : Mesh)
    (ends : (ship s p m name).run.Ends (.ok result)) : result.check = .ok () := by
  rw [ship_run] at ends
  obtain ⟨received, _, done⟩ := Program.ends_bind _ _ _ ends
  obtain ⟨messages, _, unloaded⟩ := bind_ok _ _ _ (Program.ends_done _ _ done).symm
  exact p.unload_check s.ranks m name messages result unloaded

theorem shipping_check (s : Seat) (p : Shipment) (m old left : Mesh) (result : Result Unit) (valid : old.check = .ok ())
    (ends : ((shipping s p m).outcome old).Ends (result, left)) : left.check = .ok () := by
  rw [shipping_outcome, ← ship_run] at ends
  obtain ⟨shipped, ends, done⟩ := Program.ends_bind _ _ _ ends
  cases shipped with
  | error e =>
      obtain ⟨_, rfl⟩ := Prod.mk.inj (Program.ends_done _ _ done)
      exact valid
  | ok new =>
      obtain ⟨_, rfl⟩ := Prod.mk.inj (Program.ends_done _ _ done)
      exact ship_check s p m old.name left ends

namespace Selection

theorem pick_check (name : String) (selection index : List UInt64) (m result : Mesh)
    (ok : pick name selection index m = .ok result) : result.check = .ok () := by
  obtain ⟨_, _, ok⟩ := bind_ok _ _ _ ok
  obtain ⟨faces, _, ok⟩ := bind_ok _ _ _ ok
  obtain ⟨assembly, folded, ok⟩ := bind_ok _ _ _ ok
  obtain rfl := Except.ok.inj ok
  obtain ⟨items, rfl⟩ : ∃ items, assembly = Assembly.empty.addFacets items := by
    refine fold_m_holds _ (fun a => ∃ items, a = Assembly.empty.addFacets items) ?_ faces _ assembly ⟨[], rfl⟩ folded
    rintro _ f after ⟨items, rfl⟩ added
    obtain ⟨gnum, _, added⟩ := bind_ok _ _ _ added
    obtain ⟨refs, _, added⟩ := bind_ok _ _ _ added
    obtain ⟨records, _, added⟩ := bind_ok _ _ _ added
    obtain rfl := Except.ok.inj added
    exact ⟨items ++ [(gnum, records)], (Assembly.add_facets_append _ items [(gnum, records)]).symm⟩
  exact Assembly.assembled_check items name

theorem conclude_check (me shipped : Nat) (selection : List UInt64) (pending : Option Failure) (mesh result : Mesh)
    (valid : mesh.check = .ok ()) (ok : (conclude me shipped selection pending mesh).mesh = .ok result) :
    result.check = .ok () := by
  unfold conclude at ok
  split at ok
  · cases ok
  split at ok
  · cases ok
  obtain rfl := Except.ok.inj ok
  exact valid

theorem select_check (s : Seat) (name : String) (selection index : List UInt64) (m : Mesh) (outcome : Outcome) (result : Mesh)
    (ends : (select s name selection index m).Ends outcome) (ok : outcome.mesh = .ok result) : result.check = .ok () := by
  cases silent : s.silent with
  | true =>
      rw [select_silent s _ _ _ _ silent] at ends
      obtain rfl := Program.ends_done _ _ ends
      obtain ⟨_, _, picked⟩ := bind_ok _ _ _ ok
      exact pick_check name selection index m result picked
  | false =>
      rw [select_asks s _ _ _ _ (by simp [silent])] at ends
      obtain ⟨asked, _, ends⟩ := Program.ends_bind _ _ _ ends
      cases asked with
      | error e =>
          obtain rfl := Program.ends_done _ _ ends
          cases ok
      | ok incoming =>
          obtain ⟨shipped, shipping, ends⟩ := Program.ends_bind _ _ _ ends
          cases shipped with
          | error e =>
              obtain rfl := Program.ends_done _ _ ends
              cases ok
          | ok mesh =>
              obtain rfl := Program.ends_done _ _ ends
              exact conclude_check _ _ _ _ mesh result (ship_check _ _ _ _ mesh shipping) ok

end Selection

namespace Reconciliation

theorem reconcile_check (s : Seat) (r : Reducer) (m left : Mesh) (result : Result Nat) (valid : m.check = .ok ())
    (ends : (reconcile s r m).Ends (left, result)) : left.check = .ok () := by
  obtain ⟨greatest, _, ends⟩ := Program.ends_bind _ _ _ ends
  have early (e : Failure) (stopped : (Program.done (m, .error e)).Ends (left, result)) : left.check = .ok () := by
    obtain ⟨rfl, _⟩ := Prod.mk.inj (Program.ends_done _ _ stopped)
    exact valid
  cases greatest with
  | error e => exact early e ends
  | ok greatest =>
      dsimp only at ends
      split at ends
      · exact early _ ends
      obtain ⟨copies, _, ends⟩ := Program.ends_bind _ _ _ ends
      cases copies with
      | error e => exact early e ends
      | ok incoming =>
          obtain ⟨answers, _, ends⟩ := Program.ends_bind _ _ _ ends
          cases answers with
          | error e => exact early e ends
          | ok answers =>
              dsimp only at ends
              split at ends
              · exact early _ ends
              · obtain ⟨rfl, _⟩ := Prod.mk.inj (Program.ends_done _ _ ends)
                exact Mesh.more_vertices_check m valid _ (Nat.le_of_eq (write_back_length ..).symm)

end Reconciliation

abbrev Store := Nat → Mesh

-- What an operation on mesh `m` can leave in its place, whether it succeeds or not; one that makes a new mesh puts it
-- there if it succeeds. Only a copy reads another slot: other meshes, edges and plans may be any at all, and so may be
-- what comes from other ranks.
inductive Change (store : Store) (m : Mesh) : Mesh → Prop where
  | pushVertex (v : Vertex) : Change store m (m.pushVertex v).1
  | pushFace (gnum : UInt64) (refs : List Nat) : Change store m ((Mesh.pushingFace gnum refs).left m)
  | reset : Change store m m.reset
  | copy (slot : Nat) : Change store m (store slot)
  | subset (name : String) (selection : List Nat) (parent new : Mesh) (made : Mesh.subset name selection parent = .ok new) :
      Change store m new
  | extract (name : String) (e : Mesh.Extract) (new : Mesh) (made : e.mesh name = .ok new) : Change store m new
  | compact : Change store m (Mesh.compacting.left m)
  | collapse : Change store m (Mesh.collapsing.left m)
  | canonical : Change store m (Mesh.arranging.left m)
  | merge (s : EdgeSet) (p : Mesh.Plan) : Change store m ((Mesh.merging s p).left m)
  | setTolerances (s : EdgeSet) (fraction : Binary64) : Change store m ((Mesh.settingTolerances s fraction).left m)
  | reconcile (seat : Seat) (r : Reducer) (left : Mesh) (result : Result Nat)
      (ends : (reconcile seat r m).Ends (left, result)) : Change store m left
  | ship (seat : Seat) (p : Shipment) (source left : Mesh) (result : Result Unit)
      (ends : ((shipping seat p source).outcome m).Ends (result, left)) : Change store m left
  | select (seat : Seat) (name : String) (selection index : List UInt64) (source new : Mesh) (outcome : Selection.Outcome)
      (ends : (select seat name selection index source).Ends outcome) (made : outcome.mesh = .ok new) : Change store m new

inductive Run (first : Store) : Store → Prop where
  | start : Run first first
  | step (before : Store) (slot : Nat) (left : Mesh) (run : Run first before) (change : Change before (before slot) left) :
      Run first (Function.update before slot left)

theorem left_check {α : Type} (edit : Edit Mesh α) (m : Mesh) (valid : m.check = .ok ()) (atomic : edit.Atomic m)
    (each : ∀ new extra, edit.outcome m = .ok (new, extra) → new.check = .ok ()) : (edit.left m).check = .ok () := by
  cases result : edit.result m with
  | error e => rw [atomic e result, valid]
  | ok value => exact each _ value ((Edit.outcome_ok_iff edit m _ value).mpr ⟨result, rfl⟩)

theorem change_check (store : Store) (sound : ∀ slot, (store slot).check = .ok ()) (m left : Mesh) (valid : m.check = .ok ())
    (change : Change store m left) : left.check = .ok () := by
  cases change with
  | pushVertex v => exact m.push_vertex_check valid v
  | pushFace gnum refs => exact left_check _ m valid (m.pushing_face_atomic gnum refs) fun new f => m.push_face_check new valid gnum refs f
  | reset => exact Mesh.empty_check m.name
  | copy slot => exact sound slot
  | subset name selection parent _ made => exact Mesh.subset_check name selection parent left made
  | extract name e _ made => exact Mesh.extract_check name e left made
  | compact => exact left_check _ m valid m.compacting_atomic fun new removed => m.compact_check new removed
  | collapse => exact left_check _ m valid m.collapsing_atomic fun new removed => m.collapse_check new removed
  | canonical => exact left_check _ m valid m.arranging_atomic fun new dropped => m.canonical_check new dropped
  | merge s p =>
      exact left_check _ m valid (m.merging_atomic s p) fun new _ done => Mesh.merge_check p s m new (by rw [Mesh.merge, done]; rfl)
  | setTolerances s fraction =>
      exact left_check _ m valid (m.setting_tolerances_atomic s fraction) fun new _ done =>
        m.tolerances_check new valid s fraction (by rw [Mesh.setTolerances, done]; rfl)
  | reconcile seat r _ result ends => exact Reconciliation.reconcile_check seat r m left result valid ends
  | ship seat p source _ result ends => exact shipping_check seat p source m left result valid ends
  | select seat name selection index source _ outcome ends made =>
      exact Selection.select_check seat name selection index source outcome left ends made

theorem run_check (first last : Store) (sound : ∀ slot, (first slot).check = .ok ()) (run : Run first last) :
    ∀ slot, (last slot).check = .ok () := by
  induction run with
  | start => exact sound
  | step before slot left _ change ih =>
      intro other
      by_cases here : other = slot
      · subst here
        rw [Function.update_self]
        exact change_check before ih _ left (ih other) change
      · rw [Function.update_of_ne here]
        exact ih other

theorem meshes_stay_sound (names : Nat → String) (last : Store) (run : Run (fun slot => Mesh.empty (names slot)) last)
    (slot : Nat) : (last slot).check = .ok () :=
  run_check _ last (fun slot => Mesh.empty_check (names slot)) run slot

open Reconciliation (dot Light reconciled outcome_one_reducer reconcile_lockstep) in
theorem reconciled_ends {n : Nat} (r : Reducer) (meshes : Fin n → Mesh) (light : Light meshes) (me : Fin n) :
    (reconcile (Seat.member me) r (meshes me)).Ends (reconciled meshes r me) := by
  have steps := reconcile_lockstep meshes (fun _ => r) light
  rw [outcome_one_reducer meshes r light] at steps
  exact Network.ended_ends _ _ (Group.lockstep_reaches _ _ steps) me _ rfl

theorem a_dot_stays_sound : ∃ last : Store, Run (fun _ => Mesh.empty "dot") last ∧ (last 0).faceGnums = [3] ∧
    (last 0).vertices = (Reconciliation.dot 5 1).vertices ∧ (last 0).check = .ok () := by
  have light : Reconciliation.Light ![Reconciliation.dot 5 2, Reconciliation.dot 5 1] := by decide
  have blank : Run (fun _ => Mesh.empty "dot") fun _ => Mesh.empty "dot" := .start
  have laid := Run.step _ 0 _ blank (.pushVertex ⟨5, ⟨2⟩, ⟨⟨0⟩, ⟨0⟩, ⟨0⟩⟩⟩)
  have agreed := Run.step _ 0 _ laid (.reconcile _ .least _ _ (reconciled_ends .least _ light 0))
  have faced := Run.step _ 0 _ agreed (.pushFace 3 [0])
  have refused := Run.step _ 0 _ faced (.pushFace 4 [1])
  exact ⟨_, refused, by decide, by decide, meshes_stay_sound (fun _ => "dot") _ refused 0⟩

end Seam
