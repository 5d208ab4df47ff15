import Mathlib.Tactic.FinCases
import Seam.Proofs.Group.Fidelity

set_option autoImplicit false

namespace Seam.Selection

theorem get_flatten {α : Type} (rows : List (List α)) (i j : Nat) (row : List α) (item : α) (found : rows[i]? = some row)
    (inside : row[j]? = some item) : rows.flatten[(rows.take i).flatten.length + j]? = some item := by
  have bound : j < row.length := (List.getElem?_eq_some_iff.mp inside).1
  rw [Ragged.flatten_split rows i row found, List.getElem?_append_right (Nat.le_add_right _ _), Nat.add_sub_cancel_left,
    List.getElem?_append_left bound, inside]

variable {n : Nat} (index : List UInt64) (meshes : Fin n → Mesh)

structure Spread : Prop where
  length : index.length = n + 1
  sorted : index.IsChain (· ≤ ·)
  valid : ∀ me, (meshes me).check = .ok ()
  counts : ∀ (me : Fin n) low high, index[me.val]? = some low → index[me.val + 1]? = some high →
    (meshes me).faceCount = high.toNat - low.toNat

structure Covered (ranks : Nat) (index selection : List UInt64) : Prop where
  rising : selection.IsChain (· < ·)
  inside : ∀ gnum ∈ selection, ∀ first last, index[0]? = some first → index[ranks]? = some last → first < gnum ∧ gnum ≤ last

section Layout

variable (spread : Spread index meshes)

include spread

theorem bounds_exist (r : Nat) (bound : r ≤ n) : ∃ low, index[r]? = some low := by
  have size := spread.length
  exact ⟨_, List.getElem?_eq_getElem (by omega)⟩

theorem held_below (holder : Fin n) (gnum low : UInt64) (within : Within index holder gnum)
    (base : index[holder.val]? = some low) : low < gnum ∧ localFace low gnum < (meshes holder).faceCount := by
  obtain ⟨_, high, atLow, atHigh, above, upTo⟩ := within
  obtain rfl := Option.some.inj (atLow.symm.trans base)
  have less := UInt64.lt_iff_toNat_lt.mp above
  have le := UInt64.le_iff_toNat_le.mp upTo
  rw [spread.counts holder _ high atLow atHigh, localFace]
  exact ⟨above, by omega⟩

theorem faces_before (r : Nat) (bound : r ≤ n) (first low : UInt64) (atFirst : index[0]? = some first)
    (atLow : index[r]? = some low) :
    ((List.ofFn fun me => (meshes me).facets).take r).flatten.length = low.toNat - first.toNat ∧ first ≤ low := by
  induction r generalizing low with
  | zero =>
      obtain rfl := Option.some.inj (atFirst.symm.trans atLow)
      simp
  | succ r ih =>
      obtain ⟨before, atBefore⟩ := bounds_exist index meshes spread r (by omega)
      obtain ⟨length, le⟩ := ih (by omega) before atBefore
      have next := get_le_get index spread.sorted r (r + 1) before low (Nat.le_succ r) atBefore atLow
      have here : (List.ofFn fun me => (meshes me).facets)[r]? = some (meshes ⟨r, bound⟩).facets := by
        simp [Nat.lt_of_succ_le bound]
      have count := spread.counts ⟨r, bound⟩ before low atBefore atLow
      rw [List.take_add_one, here, List.flatten_append, List.length_append, length]
      simp only [Option.toList_some, List.flatten_singleton, Mesh.facets_length _ (spread.valid _), count]
      have leFirst := UInt64.le_iff_toNat_le.mp le
      have leNext := UInt64.le_iff_toNat_le.mp next
      exact ⟨by omega, UInt64.le_trans le next⟩

theorem concat_facets : (Mesh.concat (List.ofFn meshes)).facets = (List.ofFn fun me => (meshes me).facets).flatten := by
  rw [Mesh.facets_concat _ (by simpa using spread.valid), List.flatMap_def, List.map_ofFn]
  rfl

theorem check_concat_spread : (Mesh.concat (List.ofFn meshes)).check = .ok () :=
  Mesh.check_concat _ (by simpa using spread.valid)

-- A face of the whole mesh is the local face that stands for the same element on its owner.
theorem concat_facet (holder : Fin n) (gnum first low : UInt64) (within : Within index holder gnum)
    (atFirst : index[0]? = some first) (base : index[holder.val]? = some low) (item : Facet)
    (held : (meshes holder).facets[localFace low gnum]? = some item) :
    (Mesh.concat (List.ofFn meshes)).facets[localFace first gnum]? = some item := by
  obtain ⟨above, _⟩ := held_below index meshes spread holder gnum low within base
  obtain ⟨length, le⟩ := faces_before index meshes spread holder (Nat.le_of_lt holder.isLt) first low atFirst base
  have row : (List.ofFn fun me => (meshes me).facets)[holder.val]? = some (meshes holder).facets := by simp
  have found := get_flatten _ holder.val (localFace low gnum) _ item row held
  have place : low.toNat - first.toNat + localFace low gnum = localFace first gnum := by
    have less := UInt64.lt_iff_toNat_lt.mp above
    have leFirst := UInt64.le_iff_toNat_le.mp le
    simp only [localFace]
    omega
  rwa [concat_facets index meshes spread, ← place, ← length]

end Layout

section Answering

variable (selections : Fin n → List UInt64) (names : Fin n → String)

def answerTo (holder : Fin n) (gnum : UInt64) : Facet :=
  (meshes holder).facets.getD (localFace (index.getD holder 0) gnum) (0, [])

def answersTo (holder requester : Fin n) : List Facet :=
  (share index (selections requester) holder).map (answerTo index meshes holder)

def ShortAnswers : Prop := ∀ holder requester, facetMessageSize (answersTo index meshes selections holder requester) < UInt32.size

variable (spread : Spread index meshes)

include spread

theorem resolvable_of_covered (requester : Fin n) (covered : Covered n index (selections requester)) :
    Resolvable n (selections requester) index := by
  refine ⟨(check_ok_iff _ _ _).mpr ⟨spread.length, spread.sorted, covered.rising⟩, fun gnum member => ?_⟩
  obtain ⟨first, atFirst⟩ := bounds_exist index meshes spread 0 (Nat.zero_le n)
  obtain ⟨last, atLast⟩ := bounds_exist index meshes spread n (Nat.le_refl n)
  obtain ⟨above, upTo⟩ := covered.inside gnum member first last atFirst atLast
  have ends : index.getLast? = some last := by rwa [List.getLast?_eq_getElem?, spread.length, Nat.add_sub_cancel]
  obtain ⟨r, within⟩ := within_exists index gnum first last (by rwa [List.head?_eq_getElem?]) ends above upTo
  exact ⟨r, owner_of_within index spread.sorted r gnum within⟩

theorem answer_found (holder : Fin n) (gnum low : UInt64) (base : index[holder.val]? = some low)
    (owned : owner gnum index = some holder.val) :
    Serves holder index (meshes holder).faceCount gnum (localFace low gnum) ∧
      (meshes holder).facet (localFace low gnum) = .ok (answerTo index meshes holder gnum) ∧
      (meshes holder).facets[localFace low gnum]? = some (answerTo index meshes holder gnum) := by
  have within := (owner_iff index spread.sorted holder gnum).mp owned
  obtain ⟨above, held⟩ := held_below index meshes spread holder gnum low within base
  have bound : localFace low gnum < (meshes holder).facets.length := by rwa [Mesh.facets_length _ (spread.valid holder)]
  have found : (meshes holder).facets[localFace low gnum]? = some (answerTo index meshes holder gnum) := by
    simp [answerTo, List.getD_eq_getElem?_getD, base, bound]
  obtain ⟨_, high, atLow, atHigh, _, upTo⟩ := within
  obtain rfl := Option.some.inj (atLow.symm.trans base)
  refine ⟨⟨_, high, atLow, atHigh, above, upTo, rfl, held⟩, ?_, found⟩
  exact ((Mesh.facet_of_check _ (spread.valid holder) _ _).mpr found).1

theorem row_answers (holder requester : Fin n) (covered : ∀ me, Covered n index (selections me))
    (fits : (share index (selections requester) holder).length < UInt32.size) :
    (∃ faces, found selections (fun _ => index) meshes holder requester = .ok faces) ∧
      List.Forall₂ (fun f item => (meshes holder).facet f = .ok item) (row selections (fun _ => index) meshes holder requester)
        (answersTo index meshes selections holder requester) ∧
      ∀ f ∈ row selections (fun _ => index) meshes holder requester, f < (meshes holder).faceCount := by
  obtain ⟨low, base⟩ := bounds_exist index meshes spread holder (Nat.le_of_lt holder.isLt)
  obtain ⟨high, top⟩ := bounds_exist index meshes spread (holder + 1) holder.isLt
  have asked := asks_decode selections (fun _ => index) requester holder
    (resolvable_of_covered index meshes selections spread requester (covered requester)) fits
  have checked := (resolvable_of_covered index meshes selections spread holder (covered holder)).checked
  have accepted : (check (selections holder) index n).toOption.isSome := by simp [checked, Except.toOption]
  let faces := (share index (selections requester) holder).map (localFace low)
  have owned : ∀ gnum ∈ share index (selections requester) holder, owner gnum index = some holder.val := fun gnum member => by
    simpa using (List.mem_filter.mp member).2
  have serves : List.Forall₂ (Serves holder index (meshes holder).faceCount) (share index (selections requester) holder) faces := by
    rw [List.forall₂_map_right_iff, List.forall₂_same]
    exact fun gnum member => (answer_found index meshes spread holder gnum low base (owned gnum member)).1
  have answered : found selections (fun _ => index) meshes holder requester = .ok faces := by
    simp only [found, asked, bind, Except.bind]
    exact (serve_ok_iff _ _ _ _ _ _ _ base top faces).mpr serves
  have all := row_of_found selections (fun _ => index) meshes holder requester faces accepted answered
  refine ⟨⟨faces, answered⟩, ?_, ?_⟩
  · rw [all, answersTo, List.forall₂_map_left_iff, List.forall₂_map_right_iff, List.forall₂_same]
    exact fun gnum member => (answer_found index meshes spread holder gnum low base (owned gnum member)).2.1
  · rw [all]
    intro f member
    obtain ⟨gnum, asked, rfl⟩ := List.mem_map.mp member
    exact (held_below index meshes spread holder gnum low ((owner_iff index spread.sorted holder gnum).mp (owned gnum asked)) base).2

theorem messages_answer (holder : Fin n) (covered : ∀ me, Covered n index (selections me)) (short : ShortRequests index selections)
    (light : ShortAnswers index meshes selections) :
    (plan selections (fun _ => index) meshes holder).1.messages n (meshes holder) =
      .ok (List.ofFn fun requester => facetMessage (answersTo index meshes selections holder requester)) := by
  have rows := fun requester => row_answers index meshes selections spread holder requester covered
    (short_share index selections requester holder (short requester holder))
  exact plan_messages selections (fun _ => index) meshes holder _ (spread.valid holder) (fun requester => (rows requester).2.1)
    (fun requester => (rows requester).2.2) (light holder)

def gathered (requester : Fin n) : List Facet := (List.ofFn fun holder => answersTo index meshes selections holder requester).flatten

omit spread in
theorem gathered_each (requester : Fin n) (resolvable : Resolvable n (selections requester) index) :
    List.Forall₂ (fun gnum item => ∃ holder : Fin n, owner gnum index = some holder.val ∧ item = answerTo index meshes holder gnum)
      (selections requester) (gathered index meshes selections requester) := by
  have shares : List.Forall₂
      (fun gnum item => ∃ holder : Fin n, owner gnum index = some holder.val ∧ item = answerTo index meshes holder gnum)
      (List.ofFn fun holder : Fin n => share index (selections requester) holder).flatten
      (gathered index meshes selections requester) := by
    refine List.rel_flatten (for_all_of_fn _ _ _ fun holder => ?_)
    rw [answersTo, List.forall₂_map_right_iff, List.forall₂_same]
    intro gnum member
    exact ⟨holder, by simpa using (List.mem_filter.mp member).2, rfl⟩
  rwa [shares_flatten index (selections requester) resolvable] at shares

theorem selected_gathers (me : Fin n) (covered : ∀ me, Covered n index (selections me)) (short : ShortRequests index selections)
    (light : ShortAnswers index meshes selections) :
    (selected names selections (fun _ => index) meshes me).mesh =
      .ok ((Assembly.empty.addFacets (gathered index meshes selections me)).mesh (names me)) := by
  have resolvable := resolvable_of_covered index meshes selections spread me (covered me)
  have fine : requestFault me n (selections me) index = none := by
    refine (request_fault_none_iff _ _ _ _).mpr ⟨resolvable, fun r bound => ?_⟩
    exact short_share index selections me ⟨r, bound⟩ (short me ⟨r, bound⟩)
  have served := (plan_fault_none_iff index meshes selections me resolvable.checked).mpr fun requester =>
    (row_answers index meshes selections spread me requester covered
      (short_share index selections requester me (short requester me))).1
  have messages := fun holder => messages_answer index meshes selections spread holder covered short light
  have arrived := shipped_lists selections (fun _ => index) meshes names _ messages light me
  have complete := (gathered_each index meshes selections me resolvable).length_eq.symm
  rw [selected_counts selections (fun _ => index) meshes names me _ fine served arrived]
  exact if_pos complete

theorem serial_gathers (me : Fin n) (covered : Covered n index (selections me)) (first last : UInt64)
    (atFirst : index[0]? = some first) (atLast : index[n]? = some last) :
    (select Seat.solo (names me) (selections me) [first, last] (Mesh.concat (List.ofFn meshes))).alone.mesh =
      .ok ((Assembly.empty.addFacets (gathered index meshes selections me)).mesh (names me)) := by
  have resolvable := resolvable_of_covered index meshes selections spread me covered
  have ascends := get_le_get index spread.sorted 0 n first last (Nat.zero_le n) atFirst atLast
  have checked : check (selections me) [first, last] 1 = .ok () :=
    (check_ok_iff _ _ _).mpr ⟨rfl, by simpa using ascends, covered.rising⟩
  have whole := check_concat_spread index meshes spread
  have total : (Mesh.concat (List.ofFn meshes)).faceCount = last.toNat - first.toNat := by
    obtain ⟨length, _⟩ := faces_before index meshes spread n (Nat.le_refl n) first last atFirst atLast
    rw [← Mesh.facets_length _ whole, concat_facets index meshes spread, ← length, List.take_of_length_le (by simp)]
  have answered : List.Forall₂ (fun gnum item => ∃ face,
      Serves 0 [first, last] (Mesh.concat (List.ofFn meshes)).faceCount gnum face ∧
        (Mesh.concat (List.ofFn meshes)).facet face = .ok item) (selections me) (gathered index meshes selections me) := by
    have each := gathered_each index meshes selections me resolvable
    rw [List.forall₂_iff_zip] at each ⊢
    refine ⟨each.1, fun {gnum item} pair => ?_⟩
    obtain ⟨holder, owned, rfl⟩ := each.2 pair
    obtain ⟨above, upTo⟩ := covered.inside gnum (List.of_mem_zip pair).1 first last atFirst atLast
    obtain ⟨low, base⟩ := bounds_exist index meshes spread holder (Nat.le_of_lt holder.isLt)
    have found := concat_facet index meshes spread holder gnum first low ((owner_iff index spread.sorted holder gnum).mp owned)
      atFirst base _ (answer_found index meshes spread holder gnum low base owned).2.2
    obtain ⟨facet, bound⟩ := (Mesh.facet_of_check _ whole _ _).mpr found
    exact ⟨localFace first gnum, ⟨first, last, rfl, rfl, above, upTo, rfl, bound⟩, facet⟩
  have picked := (pick_ok_iff (names me) (selections me) [first, last] _ _ first last rfl rfl).mpr ⟨whole, _, answered, rfl⟩
  have ranks : Seat.solo.ranks = 1 := rfl
  rw [select_silent Seat.solo _ _ _ _ rfl, ranks, checked]
  exact picked

theorem select_equals_serial (several : 2 ≤ n) (covered : ∀ me, Covered n index (selections me))
    (short : ShortRequests index selections) (light : ShortAnswers index meshes selections) (first last : UInt64)
    (atFirst : index[0]? = some first) (atLast : index[n]? = some last) :
    ∃ outcomes, Network.Settles (running index meshes selections names) outcomes ∧
      ∀ me, ∃ mesh, (outcomes me).mesh = .ok mesh ∧
        (select Seat.solo (names me) (selections me) [first, last] (Mesh.concat (List.ofFn meshes))).alone.mesh = .ok mesh := by
  have steps := select_lockstep names selections (fun _ => index) meshes (by omega) (light_of_short index selections short)
  refine ⟨_, settles_running index meshes selections names _ steps, fun me => ?_⟩
  exact ⟨_, selected_gathers index meshes selections names spread me covered short light,
    serial_gathers index meshes selections names spread me (covered me) first last atFirst atLast⟩

end Answering

def specks (faces : Nat) : Mesh :=
  { Mesh.empty "picked" with
    globalFaces := .ofNat faces, faceGnums := List.replicate faces 1, faceIndex := List.range (faces + 1)
    faceRefs := List.replicate faces 0, globalVertices := 1, vertices := speck.vertices }

theorem specks_spread : Spread [0, 1, 2] ![speck, speck] := by
  refine ⟨rfl, by decide, by decide, ?_⟩
  intro me low high
  fin_cases me <;> simp <;> rintro rfl rfl <;> decide

theorem two_specks_equal_one_mesh :
    ∃ outcomes, Network.Settles (running [0, 1, 2] ![speck, speck] ![[2], [1, 2]] fun _ => "picked") outcomes ∧
      (outcomes 0).mesh = .ok (specks 1) ∧
      (select Seat.solo "picked" [2] [0, 2] (Mesh.concat [speck, speck])).alone.mesh = .ok (specks 1) ∧
      (outcomes 1).mesh = .ok (specks 2) ∧
      (select Seat.solo "picked" [1, 2] [0, 2] (Mesh.concat [speck, speck])).alone.mesh = .ok (specks 2) := by
  have covered : ∀ me, Covered 2 [0, 1, 2] (![[2], [1, 2]] me) := by
    intro me
    fin_cases me <;> exact ⟨by decide, by simp⟩
  have short : ShortRequests [0, 1, 2] ![[2], [1, 2]] := short_selections _ _ (by decide)
  have light : ShortAnswers [0, 1, 2] ![speck, speck] ![[2], [1, 2]] := by
    intro holder requester
    fin_cases holder <;> fin_cases requester <;> simp [answersTo, share, first_speck_owned, second_speck_owned] <;> decide
  obtain ⟨outcomes, settles, same⟩ := select_equals_serial [0, 1, 2] ![speck, speck] ![[2], [1, 2]] (fun _ => "picked") specks_spread
    (by decide) covered short light 0 2 rfl rfl
  have one : (select Seat.solo "picked" [2] [0, 2] (Mesh.concat [speck, speck])).alone.mesh = .ok (specks 1) := by decide
  have two : (select Seat.solo "picked" [1, 2] [0, 2] (Mesh.concat [speck, speck])).alone.mesh = .ok (specks 2) := by decide
  obtain ⟨single, first, alone⟩ := same 0
  obtain ⟨double, second, together⟩ := same 1
  obtain rfl := Except.ok.inj (one.symm.trans alone)
  obtain rfl := Except.ok.inj (two.symm.trans together)
  exact ⟨outcomes, settles, first, one, second, two⟩

end Seam.Selection
