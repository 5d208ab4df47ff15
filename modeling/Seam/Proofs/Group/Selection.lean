import Seam.Group.Selection
import Seam.Proofs.Group.Collectives
import Seam.Proofs.Ownership

set_option autoImplicit false

namespace Seam

namespace Group

variable {n : Nat} {α : Type}

theorem exchange_lists_lockstep (messages : Fin n → List Bytes) (tag : UInt16) (lengths : ∀ me, (messages me).length = n) :
    Lockstep (fun me => ((Seat.member me).exchangeBytes (messages me) tag).run)
      fun me => .done (exchanged (fun source target => (messages source).getD target []) me) := by
  have steps := exchange_bytes_lockstep (fun source (target : Fin n) => (messages source).getD target []) tag
  simpa only [of_fn_get_d _ _ (lengths _)] using steps

end Group

namespace Shipment

def ofRows (rows : List (List Nat)) : Shipment := ⟨Ragged.index rows, rows.flatten⟩

def outgoing (p : Shipment) (ranks : Nat) (m : Mesh) : List Bytes :=
  (p.messages ranks m).toOption.getD (List.replicate ranks [])

theorem messages_length (p : Shipment) (ranks : Nat) (m : Mesh) (messages : List Bytes)
    (ok : p.messages ranks m = .ok messages) : messages.length = ranks := by
  rw [Shipment.messages] at ok
  cases checked : p.check ranks m with
  | error e => simp [checked, bind, Except.bind] at ok
  | ok _ =>
      simp only [checked, bind, Except.bind] at ok
      simpa using map_m_length _ _ _ ok

theorem outgoing_length (p : Shipment) (ranks : Nat) (m : Mesh) : (p.outgoing ranks m).length = ranks := by
  cases ok : p.messages ranks m with
  | error e => simp [outgoing, ok, Except.toOption]
  | ok messages => simpa [outgoing, ok, Except.toOption] using messages_length p ranks m messages ok

def unload (p : Shipment) (ranks : Nat) (m : Mesh) (name : String) (received : List Bytes) : Result Mesh := do
  let _ ← p.messages ranks m
  let assembly ← Assembly.empty.decodeAll received
  return { assembly.mesh name with globalFaces := m.globalFaces, globalVertices := m.globalVertices }

end Shipment

theorem shipping_outcome (s : Seat) (p : Shipment) (m old : Mesh) : (shipping s p m).outcome old =
    ((s.exchangeBytes (p.outgoing s.ranks m) facesTag).run.bind fun result =>
      .done (result >>= p.unload s.ranks m old.name)).bind fun result => .done (Work.atOnce old result) := by
  simp only [shipping, Work.outcome_collective_bind, Work.outcome_result_bind, Work.outcome_get_bind, Program.bind_assoc]
  refine congrArg _ (funext fun result => ?_)
  cases result with
  | error e => rfl
  | ok received =>
      have goes : (Except.ok received >>= p.unload s.ranks m old.name) = p.unload s.ranks m old.name received := rfl
      simp only [goes, Shipment.unload]
      cases p.messages s.ranks m with
      | error e => rfl
      | ok messages =>
          simp only [bind, Except.bind]
          cases Assembly.empty.decodeAll received <;> rfl

theorem ship_run (s : Seat) (p : Shipment) (m : Mesh) (name : String) : (ship s p m name).run =
    (s.exchangeBytes (p.outgoing s.ranks m) facesTag).run.bind fun result => .done (result >>= p.unload s.ranks m name) :=
  Work.run_on_at_once _ _ _ (shipping_outcome s p m (.empty name))

section Shipping

variable {n : Nat} (plans : Fin n → Shipment) (meshes : Fin n → Mesh) (names : Fin n → String)

def shipped (me : Fin n) : Result Mesh :=
  Group.exchanged (fun source target => ((plans source).outgoing n (meshes source)).getD target []) me >>=
    (plans me).unload n (meshes me) (names me)

theorem ship_lockstep :
    Group.Lockstep (fun me => (ship (Seat.member me) (plans me) (meshes me) (names me)).run)
      fun me => .done (shipped plans meshes names me) := by
  simp only [ship_run, Group.member_ranks]
  exact Group.lockstep_bind _ _ _
    (Group.exchange_lists_lockstep _ facesTag fun me => (plans me).outgoing_length n (meshes me))

theorem shipping_lockstep (targets : Fin n → Mesh) :
    Group.Lockstep (fun me => (shipping (Seat.member me) (plans me) (meshes me)).outcome (targets me))
      fun me => .done (Work.atOnce (targets me) (shipped plans meshes (fun me => (targets me).name) me)) := by
  have steps := ship_lockstep plans meshes fun me => (targets me).name
  simp only [ship_run] at steps
  simp only [shipping_outcome]
  exact Group.lockstep_bind _ _ _ steps

end Shipping

namespace Selection

-- A selection that passes the check and has an owner for each element.
structure Resolvable (ranks : Nat) (selection index : List UInt64) : Prop where
  checked : check selection index ranks = .ok ()
  owned : ∀ gnum ∈ selection, ∃ r, owner gnum index = some r

def planned (me ranks : Nat) (selection index : List UInt64) : Result (List (List UInt64)) :=
  (check selection index ranks).bind fun _ => route me ranks selection index

def requests (me ranks : Nat) (selection index : List UInt64) : List (List UInt64) :=
  (planned me ranks selection index).toOption.getD (List.replicate ranks [])

def requestMessages (me ranks : Nat) (selection index : List UInt64) : List Bytes :=
  (requests me ranks selection index).map fun asked => (encodeRequests asked).toOption.getD []

def planFault (me ranks : Nat) (selection index : List UInt64) : Option Failure :=
  match planned me ranks selection index with
  | .ok _ => none
  | .error e => some e

def requestFault (me ranks : Nat) (selection index : List UInt64) : Option Failure :=
  planFault me ranks selection index <|>
  ((requests me ranks selection index).map encodeRequests).findSome? fun message =>
    match message with
    | .error e => some e
    | .ok _ => none

def reply (me ranks : Nat) (incoming : List Bytes) (selection index : List UInt64) (m : Mesh) : Shipment × Option Failure :=
  if (check selection index ranks).toOption.isSome then answer me incoming index m
  else (⟨List.replicate (ranks + 1) 0, []⟩, none)

def conclude (me shipped : Nat) (selection : List UInt64) (pending : Option Failure) (mesh : Mesh) : Outcome :=
  match pending with
  | some e => ⟨some (shipped, mesh), .error e⟩
  | none =>
      if mesh.faceCount ≠ selection.length then
        ⟨some (shipped, mesh), refuse (.selection (.incomplete me mesh.faceCount selection.length))⟩
      else ⟨some (shipped, mesh), .ok mesh.withLocalCounts⟩

-- How a rank goes on when it knows what it is asked for.
def serveAll (s : Seat) (name : String) (selection index : List UInt64) (m : Mesh) : Result (List Bytes) → Program Outcome
  | .error e => .done (.failed e)
  | .ok incoming => do
      let (plan, refused) := reply s.rank s.ranks incoming selection index m
      match ← (ship s plan m name).run with
      | .error e => return .failed e
      | .ok mesh =>
          return conclude s.rank plan.faces.length selection (requestFault s.rank s.ranks selection index <|> refused) mesh

theorem select_silent (s : Seat) (name : String) (selection index : List UInt64) (m : Mesh) (silent : s.silent = true) :
    select s name selection index m =
      .done ⟨none, (check selection index s.ranks).bind fun _ => pick name selection index m⟩ := by
  simp only [select, silent, if_true]
  rfl

theorem pure_conclude (me shipped : Nat) (selection : List UInt64) (pending : Option Failure) (mesh : Mesh) :
    (pure (conclude me shipped selection pending mesh) : Program Outcome) =
      match pending with
      | some e => pure ⟨some (shipped, mesh), .error e⟩
      | none =>
          if mesh.faceCount ≠ selection.length then
            pure ⟨some (shipped, mesh), refuse (.selection (.incomplete me mesh.faceCount selection.length))⟩
          else pure ⟨some (shipped, mesh), .ok mesh.withLocalCounts⟩ := by
  cases pending with
  | some e => rfl
  | none =>
      simp only [conclude]
      split <;> rfl

theorem select_asks (s : Seat) (name : String) (selection index : List UInt64) (m : Mesh) (talks : s.silent ≠ true) :
    select s name selection index m =
      (s.exchangeBytes (requestMessages s.rank s.ranks selection index) requestTag).run >>=
        serveAll s name selection index m := by
  simp only [select, if_neg talks]
  cases plan : (check selection index s.ranks).bind fun _ => route s.rank s.ranks selection index
  all_goals
    have asked : requests s.rank s.ranks selection index = (planned s.rank s.ranks selection index).toOption.getD _ := rfl
    have fault := planFault.eq_def s.rank s.ranks selection index
    rw [planned, plan] at asked fault
    refine congrArg₂ (· >>= ·) (by rw [requestMessages, asked, List.map_map]; rfl) (funext fun result => ?_)
    cases result with
    | error e => rfl
    | ok incoming =>
        simp only [serveAll, requestFault, asked, fault]
        refine congrArg₂ (· >>= ·) rfl (funext fun result => ?_)
        cases result with
        | error e => rfl
        | ok mesh =>
            dsimp only
            rw [pure_conclude]
            rfl

theorem planned_ok_iff (me ranks : Nat) (selection index : List UInt64) (lists : List (List UInt64)) :
    planned me ranks selection index = .ok lists ↔
      Resolvable ranks selection index ∧ lists = shares ranks selection index := by
  rw [planned]
  cases checked : check selection index ranks with
  | error e =>
      simp only [Except.bind, reduceCtorEq, false_iff, not_and]
      intro resolvable
      cases checked.symm.trans resolvable.checked
  | ok _ =>
      obtain ⟨length, sorted, _⟩ := (check_ok_iff selection index ranks).mp checked
      simp only [Except.bind, route_ok_iff me ranks selection index (owner_lt index ranks length sorted)]
      constructor
      · rintro ⟨owned, lists⟩
        exact ⟨⟨checked, owned⟩, lists⟩
      · rintro ⟨resolvable, lists⟩
        exact ⟨resolvable.owned, lists⟩

theorem requests_resolvable (me ranks : Nat) (selection index : List UInt64) (resolvable : Resolvable ranks selection index) :
    requests me ranks selection index = shares ranks selection index := by
  rw [requests, (planned_ok_iff me ranks selection index _).mpr ⟨resolvable, rfl⟩]
  rfl

theorem requests_unresolvable (me ranks : Nat) (selection index : List UInt64) (unresolvable : ¬ Resolvable ranks selection index) :
    requests me ranks selection index = List.replicate ranks [] := by
  rw [requests]
  cases plan : planned me ranks selection index with
  | error e => rfl
  | ok lists => exact absurd ((planned_ok_iff _ _ _ _ _).mp plan).1 unresolvable

theorem requests_length (me ranks : Nat) (selection index : List UInt64) :
    (requests me ranks selection index).length = ranks := by
  by_cases resolvable : Resolvable ranks selection index
  · rw [requests_resolvable me ranks selection index resolvable, shares, List.length_map, List.length_range]
  · rw [requests_unresolvable me ranks selection index resolvable, List.length_replicate]

def heeded (me : Nat) (index : List UInt64) (m : Mesh) (asked : Bytes × Nat) : Result (List Nat) := do
  serve me asked.2 (← decodeRequests asked.1) index m

theorem answer_next_eq (me : Nat) (index : List UInt64) (m : Mesh) (before : Ragged.Rows Nat × Option Failure)
    (next : Bytes × Nat) : answerNext me index m before next =
      (before.1.append ((heeded me index m next).toOption.getD []), before.2 <|> fault (heeded me index m next)) := by
  simp only [answerNext]
  have same : (decodeRequests next.1 >>= fun asked => serve me next.2 asked index m) = heeded me index m next := rfl
  rw [same]
  cases heeded me index m next with
  | ok faces => simp [Except.toOption, fault]
  | error e => simp [Except.toOption, fault, Ragged.Rows.append]

theorem answer_fold (me : Nat) (index : List UInt64) (m : Mesh) (incoming : List (Bytes × Nat)) (done : List (List Nat))
    (refused : Option Failure) : incoming.foldl (answerNext me index m) (.laid done, refused) =
      (.laid (done ++ incoming.map fun asked => (heeded me index m asked).toOption.getD []),
        refused <|> incoming.findSome? fun asked => fault (heeded me index m asked)) := by
  induction incoming generalizing done refused with
  | nil => simp
  | cons asked incoming ih =>
      rw [List.foldl_cons, answer_next_eq, Ragged.Rows.append_laid, ih, List.map_cons, List.append_assoc,
        List.singleton_append, List.findSome?_cons]
      cases heeded me index m asked <;> simp [fault]

theorem answer_eq (me : Nat) (incoming : List Bytes) (index : List UInt64) (m : Mesh) :
    answer me incoming index m =
      (.ofRows (incoming.zipIdx.map fun asked => (heeded me index m asked).toOption.getD []),
        incoming.zipIdx.findSome? fun asked => fault (heeded me index m asked)) := by
  have walked := answer_fold me index m incoming.zipIdx [] none
  rw [Ragged.Rows.laid_nil] at walked
  rw [answer, walked]
  simp [Ragged.Rows.laid, Shipment.ofRows]

section Group

variable {n : Nat} (names : Fin n → String) (selections indices : Fin n → List UInt64) (meshes : Fin n → Mesh)

def asks (source target : Fin n) : Bytes := (requestMessages source n (selections source) (indices source)).getD target []

def Light : Prop := ∀ source target, (asks selections indices source target).length < UInt32.size

instance : Decidable (Light selections indices) := inferInstanceAs (Decidable (∀ _ _, _ < _))

def plan (me : Fin n) : Shipment × Option Failure :=
  reply me n (List.ofFn fun source => asks selections indices source me) (selections me) (indices me) (meshes me)

def selected (me : Fin n) : Outcome :=
  match shipped (fun me => (plan selections indices meshes me).1) meshes names me with
  | .error e => .failed e
  | .ok mesh =>
      conclude me (plan selections indices meshes me).1.faces.length (selections me)
        (requestFault me n (selections me) (indices me) <|> (plan selections indices meshes me).2) mesh

theorem select_asks_lockstep (several : n ≠ 1) :
    Group.Lockstep (fun me => select (Seat.member me) (names me) (selections me) (indices me) (meshes me)) fun me =>
      serveAll (Seat.member me) (names me) (selections me) (indices me) (meshes me)
        (Group.exchanged (asks selections indices) me) := by
  have talks : ∀ me : Fin n, (Seat.member me).silent ≠ true := fun me silent => several ((Group.member_silent me).mp silent)
  have lengths : ∀ me : Fin n, (requestMessages me n (selections me) (indices me)).length = n := by
    intro me
    rw [requestMessages, List.length_map, requests_length]
  simp only [select_asks _ _ _ _ _ (talks _), Group.member_ranks, Group.member_rank]
  exact Group.lockstep_after _ _ _ (Group.exchange_lists_lockstep _ requestTag lengths)

theorem select_lockstep (several : n ≠ 1) (light : Light selections indices) :
    Group.Lockstep (fun me => select (Seat.member me) (names me) (selections me) (indices me) (meshes me))
      fun me => .done (selected names selections indices meshes me) := by
  apply Group.lockstep_trans (select_asks_lockstep names selections indices meshes several)
  simp only [Group.exchanged_light (asks selections indices) _ light, serveAll, Group.member_ranks, Group.member_rank]
  refine Group.lockstep_trans (Group.lockstep_after _ _ _
    (ship_lockstep (fun me => (plan selections indices meshes me).1) meshes names)) (Group.lockstep_of_eq fun me => ?_)
  rw [selected]
  cases shipped (fun me => (plan selections indices meshes me).1) meshes names me <;> rfl

end Group

end Selection

end Seam
