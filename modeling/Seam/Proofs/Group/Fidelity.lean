import Mathlib.Algebra.BigOperators.Fin
import Mathlib.Algebra.Order.BigOperators.Group.Finset
import Mathlib.Data.Fin.VecNotation
import Seam.Proofs.Group.Delivery
import Seam.Proofs.Group.Orderly

set_option autoImplicit false

namespace Seam.Selection

variable {n : Nat} (index : List UInt64) (meshes : Fin n → Mesh)

def Answers (owner : Fin n) (gnum : UInt64) (item : Facet) : Prop :=
  ∃ face, Serves owner index (meshes owner).faceCount gnum face ∧ (meshes owner).facet face = .ok item

def Chosen (selection : List UInt64) (items : List Facet) : Prop :=
  List.Forall₂ (fun gnum item => ∃ owner, Answers index meshes owner gnum item) selection items

structure Copies (mesh : Mesh) (k : Nat) (gnum : UInt64) (holder : Fin n) (low : UInt64) : Prop where
  within : Within index holder gnum
  base : index[holder.val]? = some low
  held : localFace low gnum < (meshes holder).faceCount
  number : mesh.faceGnums[k]? = (meshes holder).faceGnums[localFace low gnum]?
  vertices : ∃ gnums, mesh.faceVertexGnums k = .ok gnums ∧ (meshes holder).faceVertexGnums (localFace low gnum) = .ok gnums

-- One face for each entry of the selection, in the same order.
structure Faithful (selection : List UInt64) (mesh : Mesh) : Prop where
  count : mesh.faceCount = selection.length
  faces : ∀ k gnum, selection[k]? = some gnum → ∃ holder low, Copies index meshes mesh k gnum holder low

theorem faithful_of_answers (selection : List UInt64) (items : List Facet) (name : String)
    (answered : Chosen index meshes selection items) :
    Faithful index meshes selection ((Assembly.empty.addFacets items).mesh name) where
  count := by
    rw [Mesh.faceCount, Assembly.assembled_names, List.length_map, answered.length_eq]
  faces k gnum selected := by
    obtain ⟨bound, rfl⟩ := List.getElem?_eq_some_iff.mp selected
    have boundItem : k < items.length := answered.length_eq ▸ bound
    have found : items[k]? = some items[k] := by simp
    obtain ⟨holder, face, ⟨low, high, atLow, atHigh, above, upTo, rfl, held⟩, facet⟩ := answered.get bound boundItem
    obtain ⟨number, vertices⟩ := Mesh.facet_ok _ _ _ facet
    have assembled := Assembly.assembled_face items name k items[k] found
    refine ⟨holder, low, ⟨low, high, atLow, atHigh, above, upTo⟩, atLow, held, ?_, _, assembled, vertices⟩
    have numbers : (items.map Prod.fst)[k]? = some items[k].1 := by simp [boundItem]
    rw [Assembly.assembled_names, numbers]
    exact number.symm

section Several

variable (selections : Fin n → List UInt64) (names : Fin n → String)

theorem sent_answers (owner me : Fin n) (fine : requestFault me n (selections me) index = none) : ∃ items,
    Assembly.Brings (Group.capped (sent selections (fun _ => index) meshes owner me)) items ∧
      (items = [] ∨ List.Forall₂ (Answers index meshes owner) (share index (selections me) owner) items) := by
  obtain ⟨items, brings, arrived⟩ := sent_brings selections (fun _ => index) meshes owner me
  refine ⟨items, brings, ?_⟩
  rcases arrived with empty | facets
  · exact .inl empty
  obtain ⟨resolvable, fits⟩ := (request_fault_none_iff me n (selections me) index).mp fine
  have heard := asks_decode selections (fun _ => index) me owner resolvable (fits owner owner.isLt)
  obtain ⟨length, _, _⟩ := (check_ok_iff _ _ _).mp resolvable.checked
  by_cases checked : (check (selections owner) index n).toOption.isSome
  · cases served : found selections (fun _ => index) meshes owner me with
    | error e =>
        rw [row_of_refused selections (fun _ => index) meshes owner me e served] at facets
        cases facets
        exact .inl rfl
    | ok faces =>
        rw [row_of_found selections (fun _ => index) meshes owner me faces checked served] at facets
        have boundLow : owner.val < index.length := by omega
        have boundHigh : owner.val + 1 < index.length := by omega
        have low := List.getElem?_eq_getElem boundLow
        have high := List.getElem?_eq_getElem boundHigh
        simp only [found, heard, bind, Except.bind] at served
        have serves := (serve_ok_iff _ _ _ _ _ _ _ low high faces).mp served
        exact .inr (for_all_trans _ _ _ _ _ serves facets)
  · have none : row selections (fun _ => index) meshes owner me = [] := if_neg checked
    rw [none] at facets
    cases facets
    exact .inl rfl

-- Lists that are empty or full, and full in total, are all full.
theorem all_full {α β : Type} (r : Fin n → α → β → Prop) (wanted : Fin n → List α) (got : Fin n → List β)
    (each : ∀ i, got i = [] ∨ List.Forall₂ (r i) (wanted i) (got i))
    (total : (List.ofFn got).flatten.length = (List.ofFn wanted).flatten.length) (i : Fin n) :
    List.Forall₂ (r i) (wanted i) (got i) := by
  have below : ∀ i ∈ Finset.univ, (got i).length ≤ (wanted i).length := by
    intro i _
    rcases each i with empty | full
    · simp [empty]
    · exact Nat.le_of_eq full.length_eq.symm
  have sums : ∑ i, (got i).length = ∑ i, (wanted i).length := by
    simpa [List.length_flatten, List.map_ofFn, List.sum_ofFn] using total
  have same := (Finset.sum_eq_sum_iff_of_le below).mp sums i (Finset.mem_univ i)
  rcases each i with empty | full
  · have nothing : wanted i = [] := by
      rw [empty] at same
      exact List.length_eq_zero_iff.mp same.symm
    rw [empty, nothing]
    exact .nil
  · exact full

theorem shares_flatten (selection : List UInt64) (resolvable : Resolvable n selection index) :
    (List.ofFn fun owner : Fin n => share index selection owner).flatten = selection := by
  obtain ⟨length, sorted, rising⟩ := (check_ok_iff _ _ _).mp resolvable.checked
  have owned : ∀ gnum ∈ selection, ∃ r < n, owner gnum index = some r := by
    intro gnum member
    obtain ⟨r, found⟩ := resolvable.owned gnum member
    obtain ⟨_, _, _, high, _⟩ := (owner_iff index sorted r gnum).mp found
    have bound := (List.getElem?_eq_some_iff.mp high).1
    exact ⟨r, by omega, found⟩
  have inOrder := shares_in_order index selection n sorted rising owned
  rwa [List.flatMap_def, ← List.map_coe_finRange_eq_range, List.map_map, ← List.ofFn_eq_map] at inOrder

theorem selected_parts (me : Fin n) (mesh : Mesh)
    (ok : (selected names selections (fun _ => index) meshes me).mesh = .ok mesh) : ∃ items : Fin n → List Facet,
    mesh = (Assembly.empty.addFacets (List.ofFn items).flatten).mesh (names me) ∧ ∀ owner,
      Assembly.Brings (Group.capped (sent selections (fun _ => index) meshes owner me)) (items owner) ∧
        List.Forall₂ (Answers index meshes owner) (share index (selections me) owner) (items owner) := by
  obtain ⟨fine, _, assembly, decoded, complete, rfl⟩ := selected_ok selections (fun _ => index) meshes names me mesh ok
  obtain ⟨resolvable, _⟩ := (request_fault_none_iff me n (selections me) index).mp fine
  choose items brings each using fun owner => sent_answers index meshes selections owner me fine
  have brought := Assembly.decode_all_brought Assembly.empty _ _ (for_all_of_fn _ _ items brings)
  obtain rfl := Except.ok.inj (decoded.symm.trans brought)
  have inOrder := shares_flatten index (selections me) resolvable
  have numbers := Assembly.assembled_names (List.ofFn items).flatten (names me)
  -- The rank compares nothing but this number.
  have total : (List.ofFn items).flatten.length = (List.ofFn fun owner : Fin n => share index (selections me) owner).flatten.length := by
    rw [inOrder, ← complete]
    exact (List.length_map _).symm.trans (congrArg List.length numbers.symm)
  have full := all_full (Answers index meshes) (fun owner => share index (selections me) owner) items each total
  exact ⟨items, rfl, fun owner => ⟨brings owner, full owner⟩⟩

theorem selected_answers (me : Fin n) (mesh : Mesh)
    (ok : (selected names selections (fun _ => index) meshes me).mesh = .ok mesh) : ∃ items,
    mesh = (Assembly.empty.addFacets items).mesh (names me) ∧ Chosen index meshes (selections me) items := by
  obtain ⟨fine, _⟩ := selected_ok selections (fun _ => index) meshes names me mesh ok
  obtain ⟨resolvable, _⟩ := (request_fault_none_iff me n (selections me) index).mp fine
  obtain ⟨items, same, parts⟩ := selected_parts index meshes selections names me mesh ok
  refine ⟨(List.ofFn items).flatten, same, ?_⟩
  have answered : List.Forall₂ (fun gnum item => ∃ owner, Answers index meshes owner gnum item)
      (List.ofFn fun owner : Fin n => share index (selections me) owner).flatten (List.ofFn items).flatten := by
    refine List.rel_flatten (for_all_of_fn _ _ _ fun owner => ?_)
    exact List.Forall₂.imp (fun gnum item answers => ⟨owner, answers⟩) (parts owner).2
  rwa [shares_flatten index (selections me) resolvable] at answered

end Several

section Runs

theorem serve_all_awaits (me other : Fin n) (name : String) (selection : List UInt64) (m : Mesh) (incoming : List Bytes)
    (different : other ≠ me) : (serveAll (Seat.member me) name selection index m (.ok incoming)).Awaits other.val := by
  let plan := (reply me n incoming selection index m).1
  have opening := Group.exchange_bytes_awaits me other (plan.outgoing n m) facesTag (plan.outgoing_length n m) different
  have shipping : (ship (Seat.member me) plan m name).run.Awaits other.val := by
    rw [ship_run, Group.member_ranks]
    exact Program.bind_awaits _ _ _ opening
  simp only [serveAll, Group.member_ranks, Group.member_rank]
  exact Program.bind_awaits _ _ _ shipping

variable (selections : Fin n → List UInt64) (names : Fin n → String)

def running (me : Fin n) : Program Outcome := select (Seat.member me) (names me) (selections me) index (meshes me)

theorem running_orderly : (Network.start (running index meshes selections names)).Orderly :=
  Network.start_orderly _ fun _ => select_orderly _ _ _ _ _

theorem settles_running (outcomes : Fin n → Outcome)
    (steps : Group.Lockstep (running index meshes selections names) fun me => .done (outcomes me)) :
    Network.Settles (running index meshes selections names) outcomes := by
  have orderly : ∀ me, (running index meshes selections names me).Orderly := fun _ => select_orderly _ _ _ _ _
  exact Group.settles_of_lockstep _ outcomes orderly steps

theorem heavy_source (heavy : ¬ Light selections fun _ => index) :
    ∃ source e, Group.exchanged (asks selections fun _ => index) source = .error e := by
  obtain ⟨source, target, wide⟩ : ∃ source target, ¬ (asks selections (fun _ => index) source target).length < UInt32.size := by
    simpa [Light] using heavy
  refine ⟨source, ?_⟩
  have found : (Seat.firstWide (List.ofFn fun other => (asks selections (fun _ => index) source other).length)).isSome := by
    simp only [Seat.firstWide, List.find?_isSome, List.mem_ofFn]
    exact ⟨_, ⟨target, rfl⟩, by simpa using wide⟩
  obtain ⟨size, first⟩ := Option.isSome_iff_exists.mp found
  exact ⟨_, by rw [Group.exchanged, first]; rfl⟩

-- A rank with a request that is too long fails before the faces are exchanged, and the others wait for it forever.
theorem heavy_end_fails (several : n ≠ 1) (heavy : ¬ Light selections fun _ => index) (net : Network n Outcome)
    (reaches : Network.Reaches (Network.start (running index meshes selections names)) net) (me : Fin n) (outcome : Outcome)
    (ended : net.stages me = .ended outcome) : ∃ e, outcome.mesh = .error e := by
  have asked := select_asks_lockstep names selections (fun _ => index) meshes several
  have middle := Group.lockstep_reaches _ _ asked
  have orderly := running_orderly index meshes selections names
  cases own : Group.exchanged (asks selections fun _ => index) me with
  | error e =>
      refine ⟨e, ?_⟩
      have failed : (Network.start fun me => serveAll (Seat.member me) (names me) (selections me) index (meshes me)
          (Group.exchanged (asks selections fun _ => index) me)).stages me = .ended (.failed e) := by
        simp only [Network.start, own]
        rfl
      rw [Network.ended_agrees _ _ _ orderly me _ _ reaches middle ended failed]
      rfl
  | ok incoming =>
      obtain ⟨source, e, wide⟩ := heavy_source index selections heavy
      -- This rank goes on to the faces of all others, of which `source` sends none.
      have different : source ≠ me := by
        rintro rfl
        cases own.symm.trans wide
      have awaits : (serveAll (Seat.member me) (names me) (selections me) index (meshes me)
          (Group.exchanged (asks selections fun _ => index) me)).Awaits source.val := by
        rw [own]
        exact serve_all_awaits index me source (names me) (selections me) (meshes me) incoming different
      exact absurd ended (Network.starved _ orderly _ middle me source (.failed e) (by rw [wide]; rfl) awaits net reaches outcome)

theorem light_end_selected (several : n ≠ 1) (light : Light selections fun _ => index) (net : Network n Outcome)
    (reaches : Network.Reaches (Network.start (running index meshes selections names)) net) (me : Fin n) (outcome : Outcome)
    (ended : net.stages me = .ended outcome) : outcome = selected names selections (fun _ => index) meshes me := by
  have steps := select_lockstep names selections (fun _ => index) meshes several light
  exact Network.ended_agrees _ _ _ (running_orderly index meshes selections names) me _ _ reaches
    (Group.lockstep_reaches _ _ steps) ended rfl

def picked (me : Fin n) : Outcome :=
  ⟨none, (check (selections me) index n).bind fun _ => pick (names me) (selections me) index (meshes me)⟩

theorem running_alone (alone : n = 1) (me : Fin n) :
    running index meshes selections names me = .done (picked index meshes selections names me) := by
  have silent := select_silent (Seat.member me) (names me) (selections me) index (meshes me) ((Group.member_silent me).mpr alone)
  rwa [Group.member_ranks] at silent

theorem starts_ended (alone : n = 1) (me : Fin n) :
    (Network.start (running index meshes selections names)).stages me = .ended (picked index meshes selections names me) :=
  congrArg (fun program => Stage.mk program []) (running_alone index meshes selections names alone me)

theorem picked_answers (alone : n = 1) (me : Fin n) (mesh : Mesh) (ok : (picked index meshes selections names me).mesh = .ok mesh) :
    index.IsChain (· ≤ ·) ∧ ∃ items,
      mesh = (Assembly.empty.addFacets items).mesh (names me) ∧ Chosen index meshes (selections me) items := by
  cases checked : check (selections me) index n with
  | error e => simp [picked, checked, Except.bind] at ok
  | ok _ =>
      simp only [picked, checked, Except.bind] at ok
      obtain ⟨length, sorted, _⟩ := (check_ok_iff _ _ _).mp checked
      have low := List.getElem?_eq_getElem (l := index) (i := 0) (by omega)
      have high := List.getElem?_eq_getElem (l := index) (i := 1) (by omega)
      obtain ⟨_, items, answered, rfl⟩ := (pick_ok_iff _ _ _ _ _ _ _ low high).mp ok
      have first : me.val = 0 := by omega
      refine ⟨sorted, items, rfl, List.Forall₂.imp (fun gnum item answers => ⟨me, ?_⟩) answered⟩
      rwa [Answers, first]

theorem ended_answers (net : Network n Outcome)
    (reaches : Network.Reaches (Network.start (running index meshes selections names)) net) (me : Fin n) (outcome : Outcome)
    (mesh : Mesh) (ended : net.stages me = .ended outcome) (ok : outcome.mesh = .ok mesh) :
    index.IsChain (· ≤ ·) ∧ ∃ items,
      mesh = (Assembly.empty.addFacets items).mesh (names me) ∧ Chosen index meshes (selections me) items := by
  by_cases alone : n = 1
  · have stays := Network.ended_stays _ net me _ reaches (starts_ended index meshes selections names alone me)
    obtain rfl := Stage.ended_inj (ended.symm.trans stays)
    exact picked_answers index meshes selections names alone me mesh ok
  · by_cases light : Light selections fun _ => index
    · obtain rfl := light_end_selected index meshes selections names alone light net reaches me outcome ended
      obtain ⟨fine, _⟩ := selected_ok selections (fun _ => index) meshes names me mesh ok
      obtain ⟨resolvable, _⟩ := (request_fault_none_iff me n (selections me) index).mp fine
      exact ⟨((check_ok_iff _ _ _).mp resolvable.checked).2.1, selected_answers index meshes selections names me mesh ok⟩
    · obtain ⟨e, failed⟩ := heavy_end_fails index meshes selections names alone light net reaches me outcome ended
      cases ok.symm.trans failed

theorem ended_faithful (net : Network n Outcome)
    (reaches : Network.Reaches (Network.start (running index meshes selections names)) net) (me : Fin n) (outcome : Outcome)
    (mesh : Mesh) (ended : net.stages me = .ended outcome) (ok : outcome.mesh = .ok mesh) :
    Faithful index meshes (selections me) mesh := by
  obtain ⟨_, items, rfl, answered⟩ := ended_answers index meshes selections names net reaches me outcome mesh ended ok
  exact faithful_of_answers index meshes (selections me) items (names me) answered

structure Misses (requester holder : Fin n) (gnum : UInt64) : Prop where
  resolvable : Resolvable n (selections requester) index
  selected : gnum ∈ selections requester
  owned : owner gnum index = some holder.val
  missing : ∀ low, index[holder.val]? = some low → (meshes holder).faceCount ≤ localFace low gnum

theorem faithful_misses_nothing (requester holder : Fin n) (gnum : UInt64) (misses : Misses index meshes selections requester holder gnum)
    (mesh : Mesh) (faithful : Faithful index meshes (selections requester) mesh) : False := by
  obtain ⟨_, sorted, _⟩ := (check_ok_iff _ _ _).mp misses.resolvable.checked
  obtain ⟨k, selected⟩ := List.getElem?_of_mem misses.selected
  obtain ⟨other, low, copies⟩ := faithful.faces k gnum selected
  have same := owner_of_within index sorted other gnum copies.within
  obtain rfl : holder = other := Fin.ext (Option.some.inj (misses.owned.symm.trans same))
  exact absurd copies.held (not_lt.mpr (misses.missing low copies.base))

theorem plan_fault_none_iff (me : Fin n) (checked : check (selections me) index n = .ok ()) :
    (plan selections (fun _ => index) meshes me).2 = none ↔
      ∀ requester, ∃ faces, found selections (fun _ => index) meshes me requester = .ok faces := by
  have accepted : (check (selections me) index n).toOption.isSome := by simp [checked, Except.toOption]
  rw [plan, reply, if_pos accepted, answer_eq, Group.zip_idx_of_fn, List.findSome?_eq_none_iff]
  constructor
  · intro each requester
    have fine := each _ (List.mem_map_of_mem (List.mem_finRange requester))
    exact fault_none _ fine
  · intro each asked member
    obtain ⟨requester, -, rfl⟩ := List.mem_map.mp member
    obtain ⟨faces, served⟩ := each requester
    exact congrArg fault served

theorem selected_holder_fails (requester holder : Fin n) (gnum : UInt64) (misses : Misses index meshes selections requester holder gnum)
    (short : (share index (selections requester) holder).length < UInt32.size) :
    ∃ e, (selected names selections (fun _ => index) meshes holder).mesh = .error e := by
  cases ended : (selected names selections (fun _ => index) meshes holder).mesh with
  | error e => exact ⟨e, rfl⟩
  | ok mesh =>
      obtain ⟨fine, served, _⟩ := selected_ok selections (fun _ => index) meshes names holder mesh ended
      obtain ⟨resolvable, _⟩ := (request_fault_none_iff holder n (selections holder) index).mp fine
      obtain ⟨faces, answers⟩ := (plan_fault_none_iff index meshes selections holder resolvable.checked).mp served requester
      have heard := asks_decode selections (fun _ => index) requester holder misses.resolvable short
      obtain ⟨_, sorted, _⟩ := (check_ok_iff _ _ _).mp resolvable.checked
      obtain ⟨low, high, atLow, atHigh, _⟩ := (owner_iff index sorted holder gnum).mp misses.owned
      simp only [found, heard, bind, Except.bind] at answers
      have each := (serve_ok_iff _ _ _ _ _ _ _ atLow atHigh faces).mp answers
      have asked : gnum ∈ share index (selections requester) holder :=
        List.mem_filter.mpr ⟨misses.selected, by simp [misses.owned]⟩
      obtain ⟨k, bound, rfl⟩ := List.getElem_of_mem asked
      obtain ⟨base, _, atBase, _, _, _, face, held⟩ := each.get bound (each.length_eq ▸ bound)
      rw [face] at held
      exact absurd held (not_lt.mpr (misses.missing base atBase))

theorem requester_ends_failed (requester holder : Fin n) (gnum : UInt64)
    (misses : Misses index meshes selections requester holder gnum) (net : Network n Outcome)
    (reaches : Network.Reaches (Network.start (running index meshes selections names)) net) (outcome : Outcome)
    (ended : net.stages requester = .ended outcome) : ∃ e, outcome.mesh = .error e := by
  cases failed : outcome.mesh with
  | error e => exact ⟨e, rfl⟩
  | ok mesh =>
      have kept := ended_faithful index meshes selections names net reaches requester outcome mesh ended failed
      exact absurd kept (faithful_misses_nothing index meshes selections requester holder gnum misses mesh)

theorem holder_ends_failed (requester holder : Fin n) (gnum : UInt64)
    (misses : Misses index meshes selections requester holder gnum)
    (fits : (share index (selections requester) holder).length < UInt32.size) (net : Network n Outcome)
    (reaches : Network.Reaches (Network.start (running index meshes selections names)) net) (outcome : Outcome)
    (ended : net.stages holder = .ended outcome) : ∃ e, outcome.mesh = .error e := by
  by_cases alone : n = 1
  · obtain rfl : holder = requester := by
      subst alone
      exact Subsingleton.elim holder requester
    exact requester_ends_failed index meshes selections names holder holder gnum misses net reaches outcome ended
  · by_cases light : Light selections fun _ => index
    · obtain rfl := light_end_selected index meshes selections names alone light net reaches holder outcome ended
      exact selected_holder_fails index meshes selections names requester holder gnum misses fits
    · exact heavy_end_fails index meshes selections names alone light net reaches holder outcome ended

def ShortRequests : Prop := ∀ source target : Fin n,
  Wire.messageSize Wire.gnum (share index (selections source) target) < UInt32.size

theorem short_share (requester holder : Fin n)
    (short : Wire.messageSize Wire.gnum (share index (selections requester) holder) < UInt32.size) :
    (share index (selections requester) holder).length < UInt32.size := by
  have width : Wire.gnum.size = 8 := rfl
  rw [Wire.messageSize, width] at short
  omega

theorem short_selections (few : ∀ me, Wire.messageSize Wire.gnum (selections me) < UInt32.size) : ShortRequests index selections := by
  intro source target
  have part := List.length_filter_le (fun gnum => owner gnum index = some target.val) (selections source)
  have total := few source
  have width : Wire.gnum.size = 8 := rfl
  rw [Wire.messageSize, width] at total ⊢
  rw [share]
  omega

theorem light_of_short (short : ShortRequests index selections) : Light selections fun _ => index := by
  intro source target
  by_cases resolvable : Resolvable n (selections source) index
  · have size := short source target
    have fits := short_share index selections source target size
    rw [asks_resolvable selections (fun _ => index) source target resolvable, encodeRequests, Wire.encode_list_ok _ _ _ fits]
    simpa [Except.toOption, Wire.message_length _ _ Wire.gnum_faithful] using size
  · have empty : asks selections (fun _ => index) source target = (encodeRequests []).toOption.getD [] := by
      simp [asks, requestMessages, requests_unresolvable source n _ _ resolvable]
    rw [empty]
    decide

theorem running_lockstep (light : n ≠ 1 → Light selections fun _ => index) : ∃ outcomes : Fin n → Outcome,
    Group.Lockstep (running index meshes selections names) fun me => .done (outcomes me) := by
  by_cases alone : n = 1
  · exact ⟨_, Group.lockstep_of_eq (running_alone index meshes selections names alone)⟩
  · exact ⟨_, select_lockstep names selections (fun _ => index) meshes alone (light alone)⟩

-- No run of a selection loses or swaps a face, and a missing element makes both its requester and its owner fail. A
-- list of requests whose number no count can tell is never sent, so its owner does not hear of it.
theorem selection_keeps_faces :
    (∀ net, Network.Reaches (Network.start (running index meshes selections names)) net →
      ∀ me outcome mesh, net.stages me = .ended outcome → outcome.mesh = .ok mesh → Faithful index meshes (selections me) mesh) ∧
    (∀ requester holder gnum, Misses index meshes selections requester holder gnum →
      ∀ net, Network.Reaches (Network.start (running index meshes selections names)) net →
        (∀ outcome, net.stages requester = .ended outcome → ∃ e, outcome.mesh = .error e) ∧
        ((share index (selections requester) holder).length < UInt32.size →
          ∀ outcome, net.stages holder = .ended outcome → ∃ e, outcome.mesh = .error e)) ∧
    ((n ≠ 1 → Light selections fun _ => index) →
      ∃ outcomes, Network.Settles (running index meshes selections names) outcomes ∧
        ∀ requester holder gnum, Misses index meshes selections requester holder gnum →
          (∃ e, (outcomes requester).mesh = .error e) ∧
          ((share index (selections requester) holder).length < UInt32.size → ∃ e, (outcomes holder).mesh = .error e)) := by
  refine ⟨ended_faithful index meshes selections names, fun requester holder gnum misses net reaches => ?_, fun light => ?_⟩
  · exact ⟨requester_ends_failed index meshes selections names requester holder gnum misses net reaches,
      fun fits => holder_ends_failed index meshes selections names requester holder gnum misses fits net reaches⟩
  obtain ⟨outcomes, steps⟩ := running_lockstep index meshes selections names light
  refine ⟨outcomes, settles_running index meshes selections names outcomes steps, ?_⟩
  intro requester holder gnum misses
  have final := Group.lockstep_reaches _ _ steps
  exact ⟨requester_ends_failed index meshes selections names requester holder gnum misses _ final _ rfl,
    fun fits => holder_ends_failed index meshes selections names requester holder gnum misses fits _ final _ rfl⟩

def speck : Mesh :=
  { Mesh.empty "speck" with
    faceGnums := [1], faceIndex := [0, 1], faceRefs := [0], vertices := [⟨7, ⟨0⟩, ⟨⟨0⟩, ⟨0⟩, ⟨0⟩⟩⟩] }

theorem first_speck_owned : owner 1 [0, 1, 2] = some 0 :=
  owner_of_within _ (by decide) 0 1 ⟨0, 1, rfl, rfl, by decide, by decide⟩

theorem second_speck_owned : owner 2 [0, 1, 2] = some 1 :=
  owner_of_within _ (by decide) 1 2 ⟨1, 2, rfl, rfl, by decide, by decide⟩

theorem speck_kept_or_missed :
    (∃ mesh, (picked [0, 1] (fun _ : Fin 1 => speck) (fun _ => [1]) (fun _ => "one") 0).mesh = .ok mesh ∧
      Faithful [0, 1] (fun _ : Fin 1 => speck) [1] mesh) ∧
    ∃ outcomes, Network.Settles (running [0, 1, 2] ![speck, Mesh.empty "none"] ![[1, 2], []] fun _ => "two") outcomes ∧
      (∃ e, (outcomes 0).mesh = .error e) ∧ ∃ e, (outcomes 1).mesh = .error e := by
  constructor
  · obtain ⟨mesh, ok⟩ : ∃ mesh, (picked [0, 1] (fun _ : Fin 1 => speck) (fun _ => [1]) (fun _ => "one") 0).mesh = .ok mesh :=
      ⟨_, rfl⟩
    have ended := starts_ended [0, 1] (fun _ : Fin 1 => speck) (fun _ => [1]) (fun _ => "one") rfl 0
    have kept := (selection_keeps_faces [0, 1] (fun _ : Fin 1 => speck) (fun _ => [1]) fun _ => "one").1
    exact ⟨mesh, ok, kept _ (Network.reaches_refl _) 0 _ mesh ended ok⟩
  · have short : ShortRequests [0, 1, 2] ![[1, 2], []] := short_selections _ _ (by decide)
    have misses : Misses [0, 1, 2] ![speck, Mesh.empty "none"] ![[1, 2], []] 0 1 2 := by
      refine ⟨⟨by decide, ?_⟩, by decide, second_speck_owned, ?_⟩
      · simp [first_speck_owned, second_speck_owned]
      · intro low _
        exact Nat.zero_le _
    obtain ⟨outcomes, settles, fails⟩ := (selection_keeps_faces [0, 1, 2] ![speck, Mesh.empty "none"] ![[1, 2], []]
      fun _ => "two").2.2 fun _ => light_of_short _ _ short
    obtain ⟨requester, holder⟩ := fails 0 1 2 misses
    exact ⟨outcomes, settles, requester, holder (short_share _ _ 0 1 (short 0 1))⟩

theorem selected_unheard (spread : index.length = n + 1) (valid : ∀ me, (meshes me).check = .ok ())
    (unheard : ∀ source target, decodeRequests (asks selections (fun _ => index) source target) = .ok []) (me : Fin n)
    (fine : requestFault me n (selections me) index = none) :
    (selected names selections (fun _ => index) meshes me).mesh =
      if 0 = (selections me).length then .ok (Assembly.empty.mesh (names me))
      else refuse (.selection (.incomplete me 0 (selections me).length)) := by
  have nothing (holder requester : Fin n) : found selections (fun _ => index) meshes holder requester = .ok [] := by
    have base := (fetch_eq_ok_iff index holder _).mpr (List.getElem?_eq_getElem (by omega))
    have top := (fetch_eq_ok_iff index (holder + 1) _).mpr (List.getElem?_eq_getElem (by omega))
    simp only [found, unheard, serve, base, top, bind, Except.bind]
    rfl
  have rows (holder requester : Fin n) : row selections (fun _ => index) meshes holder requester = [] := by
    rw [row, nothing]
    exact ite_self _
  have messages (holder : Fin n) := plan_messages selections (fun _ => index) meshes holder (fun _ => []) (valid holder)
    (fun requester => by rw [rows]; exact .nil) (fun requester => by simp [rows]) fun _ => by decide
  have arrived := shipped_lists selections (fun _ => index) meshes names (fun _ _ => []) messages (fun _ _ => by decide) me
  rw [List.ofFn_const, List.flatten_replicate_nil] at arrived
  obtain ⟨resolvable, _⟩ := (request_fault_none_iff me n (selections me) index).mp fine
  have served := (plan_fault_none_iff index meshes selections me resolvable.checked).mpr fun requester => ⟨_, nothing me requester⟩
  exact selected_counts selections (fun _ => index) meshes names me [] fine served arrived

end Runs

def everything (count : Nat) : List UInt64 := (List.range count).map fun k => .ofNat (k + 1)

theorem everything_rising (count : Nat) (few : count < UInt64.size) : (everything count).IsChain (· < ·) := by
  refine List.isChain_iff_pairwise.mpr (List.pairwise_map.mpr (List.pairwise_lt_range.imp_of_mem fun {a b} _ member less => ?_))
  have bound := List.mem_range.mp member
  exact (UInt64.ofNat_lt_iff_lt (by omega) (by omega)).mpr (by omega)

theorem everything_within (count : Nat) (few : count < UInt64.size) (gnum : UInt64) (member : gnum ∈ everything count) :
    0 < gnum ∧ gnum ≤ .ofNat count := by
  obtain ⟨k, listed, rfl⟩ := List.mem_map.mp member
  have bound := List.mem_range.mp listed
  exact ⟨(UInt64.ofNat_lt_iff_lt (by decide) (by omega)).mpr (Nat.succ_pos k),
    (UInt64.ofNat_le_iff_le (by omega) few).mpr bound⟩

section Hoard

variable (count : Nat) (few : count < UInt64.size)

def hoardIndex : List UInt64 := [0, 0, .ofNat count]

def hoard : Fin 2 → List UInt64 := ![everything count, []]

include few

theorem hoard_owned (gnum : UInt64) (member : gnum ∈ everything count) : owner gnum (hoardIndex count) = some 1 := by
  obtain ⟨above, upTo⟩ := everything_within count few gnum member
  exact owner_of_within _ (by simp [hoardIndex]) 1 gnum ⟨0, .ofNat count, rfl, rfl, above, upTo⟩

theorem hoard_resolvable (me : Fin 2) : Resolvable 2 (hoard count me) (hoardIndex count) := by
  have sorted : (hoardIndex count).IsChain (· ≤ ·) := by simp [hoardIndex]
  cases me using Fin.cases with
  | zero =>
      exact ⟨(check_ok_iff _ _ _).mpr ⟨rfl, sorted, everything_rising count few⟩,
        fun gnum member => ⟨1, hoard_owned count few gnum member⟩⟩
  | succ me => exact ⟨(check_ok_iff _ _ _).mpr ⟨rfl, sorted, by simp [hoard]⟩, by simp [hoard]⟩

theorem hoard_share : share (hoardIndex count) (everything count) 1 = everything count :=
  List.filter_eq_self.mpr fun gnum member => by simp [hoard_owned count few gnum member]

theorem hoard_misses (some : 0 < count) (meshes : Fin 2 → Mesh) (missing : (meshes 1).faceCount = 0) :
    Misses (hoardIndex count) meshes (hoard count) 0 1 1 where
  resolvable := hoard_resolvable count few 0
  selected := List.mem_map.mpr ⟨0, List.mem_range.mpr some, rfl⟩
  owned := hoard_owned count few 1 (List.mem_map.mpr ⟨0, List.mem_range.mpr some, rfl⟩)
  missing _ _ := missing ▸ Nat.zero_le _

theorem hoard_asks (many : UInt32.size ≤ count) (source target : Fin 2) :
    asks (hoard count) (fun _ => hoardIndex count) source target = [] ∨
      asks (hoard count) (fun _ => hoardIndex count) source target = Wire.message Wire.gnum Wire.requestKind [] := by
  rw [asks_resolvable _ _ source target (hoard_resolvable count few source)]
  cases source using Fin.cases with
  | zero =>
      cases target using Fin.cases with
      | zero =>
          have none : share (hoardIndex count) (everything count) 0 = [] :=
            List.filter_eq_nil_iff.mpr fun gnum member => by simp [hoard_owned count few gnum member]
          exact .inr (congrArg (fun asked => (encodeRequests asked).toOption.getD []) none)
      | succ target =>
          obtain rfl : target = 0 := Subsingleton.elim _ _
          have length : (everything count).length = count := by rw [everything, List.length_map, List.length_range]
          have untold : ¬ ∃ bytes, encodeRequests (everything count) = .ok bytes := by
            rw [encode_requests_ok_iff, length]
            omega
          refine .inl ?_
          change (encodeRequests (share (hoardIndex count) (everything count) 1)).toOption.getD [] = []
          rw [hoard_share count few]
          cases encoded : encodeRequests (everything count) with
          | ok bytes => exact absurd ⟨bytes, encoded⟩ untold
          | error e => rfl
  | succ source =>
      obtain rfl : source = 0 := Subsingleton.elim _ _
      exact .inr rfl

theorem hoard_goes_unheard (many : UInt32.size ≤ count) (meshes : Fin 2 → Mesh) (valid : ∀ me, (meshes me).check = .ok ())
    (names : Fin 2 → String) : ∃ outcomes,
      Network.Settles (running (hoardIndex count) meshes (hoard count) names) outcomes ∧
        (outcomes 1).mesh = .ok (Assembly.empty.mesh (names 1)) := by
  have each := hoard_asks count few many
  have light : Light (hoard count) fun _ => hoardIndex count := by
    intro source target
    rcases each source target with unsent | empty
    · rw [unsent]
      decide
    · rw [empty]
      decide
  have unheard : ∀ source target, decodeRequests (asks (hoard count) (fun _ => hoardIndex count) source target) = .ok [] := by
    intro source target
    rcases each source target with unsent | empty
    · rw [unsent]
      rfl
    · rw [empty]
      exact request_message_decodes [] (by decide)
  have steps := select_lockstep names (hoard count) (fun _ => hoardIndex count) meshes (by decide) light
  have some : 0 < UInt32.size := by decide
  have fine : requestFault (1 : Fin 2) 2 (hoard count 1) (hoardIndex count) = none :=
    (request_fault_none_iff _ _ _ _).mpr ⟨hoard_resolvable count few 1, fun _ _ => some⟩
  exact ⟨_, settles_running _ _ _ _ _ steps,
    selected_unheard _ meshes (hoard count) names rfl valid unheard 1 fine⟩

end Hoard

theorem uncounted_requests_unheard :
    Misses (hoardIndex UInt32.size) (fun _ => Mesh.empty "none") (hoard UInt32.size) 0 1 1 ∧
      ∃ outcomes, Network.Settles
          (running (hoardIndex UInt32.size) (fun _ => Mesh.empty "none") (hoard UInt32.size) fun _ => "picked") outcomes ∧
        (outcomes 1).mesh = .ok (Assembly.empty.mesh "picked") :=
  ⟨hoard_misses UInt32.size (by decide) (by decide) _ rfl,
    hoard_goes_unheard UInt32.size (by decide) (Nat.le_refl _) _ (fun _ => rfl) _⟩

end Seam.Selection
