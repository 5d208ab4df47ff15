import Seam.Proofs.Assembly
import Seam.Proofs.Group.Selection
import Seam.Proofs.Ownership

set_option autoImplicit false

namespace Seam

namespace Shipment

theorem check_rows_ok_iff (rows : List (List Nat)) (m : Mesh) : (ofRows rows).check rows.length m = .ok () ↔
    (∀ row ∈ rows, ∀ f ∈ row, f < m.faceCount) ∧ m.check = .ok () := by
  have length : ¬ (ofRows rows).index.length ≠ rows.length + 1 := by simp [ofRows, Ragged.index, Ragged.boundaries_length]
  have fits : Ragged.shaped (ofRows rows).index rows.length (ofRows rows).faces.length = .ok true := by
    rw [Ragged.shaped_eq _ _ _ (not_not.mp length)]
    exact congrArg Except.ok (Ragged.fits_index rows)
  have inside : (ofRows rows).faces.find? (fun f => decide (m.faceCount ≤ f)) = none ↔
      ∀ row ∈ rows, ∀ f ∈ row, f < m.faceCount := by
    simp only [ofRows, List.find?_eq_none, List.mem_flatten, decide_eq_true_eq, not_le]
    constructor
    · intro each row member f listed
      exact each f ⟨row, member, listed⟩
    · rintro each f ⟨row, member, listed⟩
      exact each row member f listed
  rw [← inside]
  simp only [check, if_neg length, fits, Bool.not_true, Bool.false_eq_true, if_false, bind, Except.bind]
  cases (ofRows rows).faces.find? (fun f => decide (m.faceCount ≤ f)) <;> simp [refuse]

theorem messages_rows_ok_iff (rows : List (List Nat)) (m : Mesh) (messages : List Bytes) :
    (ofRows rows).messages rows.length m = .ok messages ↔
      (∀ row ∈ rows, ∀ f ∈ row, f < m.faceCount) ∧ m.check = .ok () ∧
        List.Forall₂ (fun row bytes => m.encodeFaces row = .ok bytes) rows messages := by
  have each : (List.range rows.length).mapM (fun r => do m.encodeFaces (← Ragged.row (ofRows rows).index (ofRows rows).faces r)) =
      rows.mapM m.encodeFaces := by
    have same : ∀ r ∈ List.range rows.length,
        (do m.encodeFaces (← Ragged.row (ofRows rows).index (ofRows rows).faces r) : Result Bytes) =
          m.encodeFaces (rows.getD r []) := by
      intro r member
      have bound : r < rows.length := List.mem_range.mp member
      have found := Ragged.row_index rows r rows[r] (by simp)
      simp only [ofRows, found, bind, Except.bind, List.getD_eq_getElem?_getD, List.getElem?_eq_getElem bound, Option.getD_some]
    have items : (List.range rows.length).map (fun r => rows.getD r []) = rows :=
      List.ext_getElem (by simp) fun r _ bound => by simp [bound]
    calc (List.range rows.length).mapM _ = (List.range rows.length).mapM fun r => m.encodeFaces (rows.getD r []) :=
          map_m_congr _ _ _ same
      _ = ((List.range rows.length).map fun r => rows.getD r []).mapM m.encodeFaces := by
          rw [List.mapM_map]
          rfl
      _ = rows.mapM m.encodeFaces := by rw [items]
  rw [← map_m_ok_iff, ← and_assoc, ← check_rows_ok_iff, Shipment.messages, each]
  cases (ofRows rows).check rows.length m <;> simp [bind, Except.bind]

end Shipment

theorem shipped_ok {n : Nat} (plans : Fin n → Shipment) (meshes : Fin n → Mesh) (names : Fin n → String) (me : Fin n) (got : Mesh)
    (ok : shipped plans meshes names me = .ok got) :
    ∃ assembly, Assembly.empty.decodeAll (List.ofFn fun owner =>
        Group.capped (((plans owner).outgoing n (meshes owner)).getD me [])) = .ok assembly ∧
      got = { assembly.mesh (names me) with
        globalFaces := (meshes me).globalFaces, globalVertices := (meshes me).globalVertices } := by
  obtain ⟨received, came, unloaded⟩ := bind_ok _ _ _ ok
  obtain ⟨_, _, decoding⟩ := bind_ok _ _ _ unloaded
  obtain ⟨assembly, decoded, done⟩ := bind_ok _ _ _ decoding
  rw [Group.exchanged] at came
  split at came
  · cases came
  exact ⟨assembly, Except.ok.inj came ▸ decoded, (Except.ok.inj done).symm⟩

namespace Selection

theorem request_message_decodes (asked : List UInt64) (fits : asked.length < UInt32.size) :
    decodeRequests (Wire.message Wire.gnum Wire.requestKind asked) = .ok asked := by
  have size : Wire.gnum.size = 8 := rfl
  have some : Wire.message Wire.gnum Wire.requestKind asked ≠ [] := by
    intro empty
    have length := Wire.message_length Wire.gnum _ Wire.gnum_faithful Wire.requestKind asked
    rw [empty, List.length_nil, Wire.messageSize] at length
    omega
  rw [decodeRequests, if_neg some]
  apply Wire.decode_list_message _ _ Wire.gnum_faithful _ asked (fun _ _ => trivial) fits
  rw [size]
  simp only [UInt32.size, UInt64.size] at fits ⊢
  omega

theorem encode_requests_ok_iff (asked : List UInt64) :
    (∃ bytes, encodeRequests asked = .ok bytes) ↔ asked.length < UInt32.size := by
  by_cases fits : asked.length < UInt32.size
  · simp [encodeRequests, Wire.encode_list_ok _ _ asked fits, fits]
  · simp [encodeRequests, Wire.encodeList, Wire.narrow, fits, refuse, bind, Except.bind]

theorem request_fault_none_iff (me ranks : Nat) (selection index : List UInt64) :
    requestFault me ranks selection index = none ↔
      Resolvable ranks selection index ∧ ∀ r < ranks, (share index selection r).length < UInt32.size := by
  rw [requestFault, Option.orElse_eq_none, planFault]
  cases plan : planned me ranks selection index with
  | error e =>
      simp only [reduceCtorEq, false_and, false_iff, not_and]
      intro resolvable
      cases plan.symm.trans ((planned_ok_iff me ranks selection index _).mpr ⟨resolvable, rfl⟩)
  | ok lists =>
      obtain ⟨resolvable, _⟩ := (planned_ok_iff me ranks selection index lists).mp plan
      simp only [true_and, requests_resolvable me ranks selection index resolvable, shares, List.findSome?_eq_none_iff,
        List.mem_map, List.mem_range]
      constructor
      · intro none
        refine ⟨resolvable, fun r bound => (encode_requests_ok_iff _).mp ?_⟩
        have fine := none _ ⟨_, ⟨r, bound, rfl⟩, rfl⟩
        split at fine
        · cases fine
        · rename_i bytes encoded
          exact ⟨bytes, encoded⟩
      · rintro ⟨_, fits⟩ _ ⟨_, ⟨r, bound, rfl⟩, rfl⟩
        obtain ⟨bytes, encoded⟩ := (encode_requests_ok_iff _).mpr (fits r bound)
        rw [encoded]

section Group

variable {n : Nat} (selections indices : Fin n → List UInt64)

theorem asks_resolvable (source target : Fin n) (resolvable : Resolvable n (selections source) (indices source)) :
    asks selections indices source target =
      (encodeRequests (share (indices source) (selections source) target)).toOption.getD [] := by
  simp [asks, requestMessages, requests_resolvable source n _ _ resolvable, shares]

theorem asks_decode (source target : Fin n) (resolvable : Resolvable n (selections source) (indices source))
    (fits : (share (indices source) (selections source) target).length < UInt32.size) :
    decodeRequests (asks selections indices source target) = .ok (share (indices source) (selections source) target) := by
  rw [asks_resolvable selections indices source target resolvable, encodeRequests, Wire.encode_list_ok _ _ _ fits]
  exact request_message_decodes _ fits

variable (meshes : Fin n → Mesh) (names : Fin n → String)

def found (me requester : Fin n) : Result (List Nat) := do
  serve me requester (← decodeRequests (asks selections indices requester me)) (indices me) (meshes me)

def row (me requester : Fin n) : List Nat :=
  if (check (selections me) (indices me) n).toOption.isSome then
    (found selections indices meshes me requester).toOption.getD []
  else []

theorem row_of_found (me requester : Fin n) (faces : List Nat)
    (checked : (check (selections me) (indices me) n).toOption.isSome)
    (served : found selections indices meshes me requester = .ok faces) :
    row selections indices meshes me requester = faces := by
  rw [row, if_pos checked, served]
  rfl

theorem row_of_refused (me requester : Fin n) (e : Failure)
    (served : found selections indices meshes me requester = .error e) :
    row selections indices meshes me requester = [] := by
  rw [row, served]
  exact ite_self _

theorem index_of_empty_rows (ranks : Nat) : Ragged.index (List.replicate ranks ([] : List Nat)) = List.replicate (ranks + 1) 0 := by
  rw [Ragged.index]
  induction ranks with
  | zero => rfl
  | succ ranks ih => rw [List.replicate_succ, Ragged.boundaries, List.length_nil, ih, ← List.replicate_succ]

theorem plan_rows (me : Fin n) :
    (plan selections indices meshes me).1 = Shipment.ofRows (List.ofFn (row selections indices meshes me)) := by
  by_cases checked : (check (selections me) (indices me) n).toOption.isSome
  · have rows : (List.ofFn fun source => asks selections indices source me).zipIdx.map
        (fun asked => (heeded me (indices me) (meshes me) asked).toOption.getD []) = List.ofFn (row selections indices meshes me) := by
      rw [Group.zip_idx_of_fn, List.map_map, List.ofFn_eq_map]
      exact List.map_congr_left fun requester _ => (if_pos checked).symm
    rw [plan, reply, if_pos checked, answer_eq, rows]
  · have rows : List.ofFn (row selections indices meshes me) = List.replicate n [] := by
      rw [← List.ofFn_const]
      exact congrArg List.ofFn (funext fun requester => if_neg checked)
    rw [plan, reply, if_neg checked, Shipment.ofRows, rows, index_of_empty_rows]
    simp

def sent (owner me : Fin n) : Bytes :=
  ((plan selections indices meshes owner).1.outgoing n (meshes owner)).getD me []

theorem sent_of_messages (owner me : Fin n) (messages : List Bytes)
    (ok : (plan selections indices meshes owner).1.messages n (meshes owner) = .ok messages) :
    ∃ items, List.Forall₂ (fun f item => (meshes owner).facet f = .ok item) (row selections indices meshes owner me) items ∧
      Tellable items ∧ sent selections indices meshes owner me = facetMessage items := by
  have sending : sent selections indices meshes owner me = messages.getD me [] := by
    rw [sent, Shipment.outgoing, ok]
    rfl
  have size : (List.ofFn (row selections indices meshes owner)).length = n := List.length_ofFn
  rw [plan_rows] at ok
  have parts := (Shipment.messages_rows_ok_iff (List.ofFn (row selections indices meshes owner)) (meshes owner) messages).mp
    (by rw [size]; exact ok)
  obtain ⟨_, _, each⟩ := parts
  have bound : me.val < messages.length := by
    rw [← each.length_eq, size]
    exact me.isLt
  have encoded : (meshes owner).encodeFaces (row selections indices meshes owner me) = .ok messages[me.val] := by
    have pair := each.get (by rw [size]; exact me.isLt) bound
    simpa using pair
  obtain ⟨items, facets, tellable, bytes⟩ := (encode_faces_ok_iff _ _ _).mp encoded
  refine ⟨items, facets, tellable, ?_⟩
  rw [sending, ← bytes]
  simp [bound]

-- Either all the faces that were found arrive, or none.
theorem sent_brings (owner me : Fin n) : ∃ items,
    Assembly.Brings (Group.capped (sent selections indices meshes owner me)) items ∧
      (items = [] ∨
        List.Forall₂ (fun f item => (meshes owner).facet f = .ok item) (row selections indices meshes owner me) items) := by
  cases ok : (plan selections indices meshes owner).1.messages n (meshes owner) with
  | error e =>
      refine ⟨[], .inl ⟨?_, rfl⟩, .inl rfl⟩
      simp [sent, Shipment.outgoing, ok, Except.toOption, Group.capped]
  | ok messages =>
      obtain ⟨items, facets, tellable, bytes⟩ := sent_of_messages selections indices meshes owner me messages ok
      by_cases light : (facetMessage items).length < UInt32.size
      · exact ⟨items, .inr ⟨by rw [bytes, Group.capped_light _ light], tellable⟩, .inr facets⟩
      · exact ⟨[], .inl ⟨by rw [bytes, Group.capped, if_neg light], rfl⟩, .inl rfl⟩

theorem plan_messages (holder : Fin n) (lists : Fin n → List Facet) (valid : (meshes holder).check = .ok ())
    (facets : ∀ requester,
      List.Forall₂ (fun f item => (meshes holder).facet f = .ok item) (row selections indices meshes holder requester) (lists requester))
    (inside : ∀ requester, ∀ f ∈ row selections indices meshes holder requester, f < (meshes holder).faceCount)
    (light : ∀ requester, facetMessageSize (lists requester) < UInt32.size) :
    (plan selections indices meshes holder).1.messages n (meshes holder) =
      .ok (List.ofFn fun requester => facetMessage (lists requester)) := by
  have size : (List.ofFn (row selections indices meshes holder)).length = n := List.length_ofFn
  have parts := (Shipment.messages_rows_ok_iff (List.ofFn (row selections indices meshes holder)) (meshes holder)
    (List.ofFn fun requester => facetMessage (lists requester))).mpr ⟨?_, valid, ?_⟩
  · rw [size] at parts
    rwa [plan_rows]
  · simp only [List.mem_ofFn, forall_exists_index]
    rintro _ requester rfl
    exact inside requester
  · refine for_all_of_fn _ _ _ fun requester => (encode_faces_ok_iff _ _ _).mpr ?_
    exact ⟨_, facets requester, tellable_of_size _ (light requester), rfl⟩

theorem shipped_lists (lists : Fin n → Fin n → List Facet)
    (messages : ∀ holder, (plan selections indices meshes holder).1.messages n (meshes holder) =
      .ok (List.ofFn fun requester => facetMessage (lists holder requester)))
    (light : ∀ holder requester, facetMessageSize (lists holder requester) < UInt32.size) (me : Fin n) :
    shipped (fun me => (plan selections indices meshes me).1) meshes names me =
      .ok { (Assembly.empty.addFacets (List.ofFn fun holder => lists holder me).flatten).mesh (names me) with
        globalFaces := (meshes me).globalFaces, globalVertices := (meshes me).globalVertices } := by
  have buffers : (fun (source : Fin n) (target : Fin n) =>
      ((plan selections indices meshes source).1.outgoing n (meshes source)).getD target []) =
      fun source target => facetMessage (lists source target) := by
    funext source target
    rw [Shipment.outgoing, messages source]
    simp [Except.toOption]
  have arrives : Group.exchanged (fun source target =>
      ((plan selections indices meshes source).1.outgoing n (meshes source)).getD target []) me =
      .ok (List.ofFn fun holder => facetMessage (lists holder me)) := by
    rw [buffers]
    refine Group.exchanged_light _ me fun source target => ?_
    rw [facet_message_length]
    exact light source target
  have brings : List.Forall₂ Assembly.Brings (List.ofFn fun holder => facetMessage (lists holder me))
      (List.ofFn fun holder => lists holder me) :=
    for_all_of_fn _ _ _ fun holder => .inr ⟨rfl, tellable_of_size _ (light holder me)⟩
  have decoded := Assembly.decode_all_brought Assembly.empty _ _ brings
  simp only [shipped, arrives, Shipment.unload, messages me, decoded, bind, Except.bind]
  rfl

theorem selected_counts (me : Fin n) (items : List Facet) (fine : requestFault me n (selections me) (indices me) = none)
    (served : (plan selections indices meshes me).2 = none)
    (got : shipped (fun me => (plan selections indices meshes me).1) meshes names me =
      .ok { (Assembly.empty.addFacets items).mesh (names me) with
        globalFaces := (meshes me).globalFaces, globalVertices := (meshes me).globalVertices }) :
    (selected names selections indices meshes me).mesh =
      if items.length = (selections me).length then .ok ((Assembly.empty.addFacets items).mesh (names me))
      else refuse (.selection (.incomplete me items.length (selections me).length)) := by
  have count : (Assembly.empty.addFacets items).faceGnums.length = items.length := by
    rw [← List.length_map Prod.fst]
    exact congrArg List.length (Assembly.assembled_names items (names me))
  rw [selected, got]
  simp only [fine, served]
  by_cases complete : items.length = (selections me).length
  · rw [if_pos complete]
    exact congrArg Outcome.mesh (if_neg (not_not.mpr (count.trans complete)))
  · have short : (Assembly.empty.addFacets items).faceGnums.length ≠ (selections me).length := count ▸ complete
    rw [if_neg complete, ← count]
    exact congrArg Outcome.mesh (if_pos short)

theorem selected_ok (me : Fin n) (mesh : Mesh) (ok : (selected names selections indices meshes me).mesh = .ok mesh) :
    requestFault me n (selections me) (indices me) = none ∧ (plan selections indices meshes me).2 = none ∧
      ∃ assembly, Assembly.empty.decodeAll
          (List.ofFn fun owner => Group.capped (sent selections indices meshes owner me)) = .ok assembly ∧
        assembly.faceGnums.length = (selections me).length ∧ mesh = assembly.mesh (names me) := by
  rw [selected] at ok
  cases done : shipped (fun me => (plan selections indices meshes me).1) meshes names me with
  | error e => simp [done, Outcome.failed] at ok
  | ok got =>
      simp only [done, conclude] at ok
      cases pending : (requestFault me n (selections me) (indices me) <|> (plan selections indices meshes me).2) with
      | some e => simp [pending] at ok
      | none =>
          obtain ⟨own, refused⟩ := (Option.orElse_eq_none ..).mp pending
          refine ⟨own, refused, ?_⟩
          simp only [pending] at ok
          split at ok
          · simp [refuse] at ok
          rename_i complete
          obtain ⟨assembly, decoded, rfl⟩ := shipped_ok _ _ _ me got done
          exact ⟨assembly, decoded, not_not.mp complete, (Except.ok.inj ok).symm⟩

end Group

theorem pick_ok_iff (name : String) (selection index : List UInt64) (m mesh : Mesh) (low high : UInt64)
    (atLow : index[0]? = some low) (atHigh : index[1]? = some high) :
    pick name selection index m = .ok mesh ↔ m.check = .ok () ∧ ∃ items,
      List.Forall₂ (fun gnum item => ∃ face, Serves 0 index m.faceCount gnum face ∧ m.facet face = .ok item) selection items ∧
        mesh = (Assembly.empty.addFacets items).mesh name := by
  have serves := serve_ok_iff 0 0 selection index m low high atLow atHigh
  constructor
  · intro ok
    cases checked : m.check with
    | error e => simp [pick, checked, bind, Except.bind] at ok
    | ok _ =>
        cases served : serve 0 0 selection index m with
        | error e => simp [pick, checked, served, bind, Except.bind] at ok
        | ok faces =>
            have folded := Assembly.fold_facets_ok_iff m faces Assembly.empty
            simp only [pick, checked, served, bind, Except.bind] at ok folded
            split at ok
            · cases ok
            rename_i assembly gathered
            obtain ⟨items, facets, rfl⟩ := (folded assembly).mp gathered
            exact ⟨rfl, items, for_all_trans _ _ _ _ _ ((serves faces).mp served) facets, (Except.ok.inj ok).symm⟩
  · rintro ⟨checked, items, both, rfl⟩
    obtain ⟨faces, each, facets⟩ := for_all_split _ _ _ _ both
    have served := (serves faces).mpr each
    have gathered := (Assembly.fold_facets_ok_iff m faces Assembly.empty _).mpr ⟨items, facets, rfl⟩
    simp only [pick, checked, served, bind, Except.bind] at gathered ⊢
    rw [gathered]
    rfl

end Selection

end Seam
