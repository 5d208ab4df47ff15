import Seam.Proofs.Group.SerialEquivalence

set_option autoImplicit false

namespace Seam.Selection

section Group

variable {n : Nat} (index : List UInt64) (meshes : Fin n → Mesh) (selections : Fin n → List UInt64) (names : Fin n → String)
variable (faulty : Finset (Fin n))

structure Faulted : Prop where
  bad : ∀ me ∈ faulty, ¬ Covered n index (selections me)
  good : ∀ me, me ∉ faulty → Covered n index (selections me)

def calm (me : Fin n) : List UInt64 := if me ∈ faulty then [] else selections me

theorem calm_faulty (me : Fin n) (member : me ∈ faulty) : calm selections faulty me = [] := if_pos member

theorem calm_good (me : Fin n) (healthy : me ∉ faulty) : calm selections faulty me = selections me := if_neg healthy

def arriving (holder requester : Fin n) : List Facet :=
  if (selections holder).IsChain (· < ·) then answersTo index meshes (calm selections faulty) holder requester else []

theorem arriving_eq_or_nil (holder requester : Fin n) :
    arriving index meshes selections faulty holder requester = [] ∨
      arriving index meshes selections faulty holder requester = answersTo index meshes (calm selections faulty) holder requester := by
  rw [arriving]
  split
  · exact .inr rfl
  · exact .inl rfl

theorem arriving_light (light : ShortAnswers index meshes (calm selections faulty)) (holder requester : Fin n) :
    facetMessageSize (arriving index meshes selections faulty holder requester) < UInt32.size := by
  rcases arriving_eq_or_nil index meshes selections faulty holder requester with none | all
  · rw [none]
    decide
  · rw [all]
    exact light holder requester

theorem running_settles (several : 2 ≤ n) (light : Light selections fun _ => index) :
    Network.Settles (running index meshes selections names) (selected names selections (fun _ => index) meshes) := by
  have steps := select_lockstep names selections (fun _ => index) meshes (by omega) light
  exact settles_running index meshes selections names _ steps

variable (spread : Spread index meshes) (faulted : Faulted index selections faulty)

include spread

theorem covered_of_resolvable (selection : List UInt64) (resolvable : Resolvable n selection index) : Covered n index selection := by
  refine ⟨((check_ok_iff _ _ _).mp resolvable.checked).2.2, fun gnum member first last atFirst atLast => ?_⟩
  obtain ⟨r, owned⟩ := resolvable.owned gnum member
  obtain ⟨low, high, atLow, atHigh, above, upTo⟩ := (owner_iff index spread.sorted r gnum).mp owned
  have inside := (List.getElem?_eq_some_iff.mp atHigh).1
  have size := spread.length
  have start := get_le_get index spread.sorted 0 r first low (Nat.zero_le r) atFirst atLow
  have stop := get_le_get index spread.sorted (r + 1) n high last (by omega) atHigh atLast
  exact ⟨UInt64.lt_of_le_of_lt start above, UInt64.le_trans upTo stop⟩

theorem accepted_iff_rising (selection : List UInt64) :
    (check selection index n).toOption.isSome ↔ selection.IsChain (· < ·) := by
  have ok := check_ok_iff selection index n
  cases checked : check selection index n with
  | ok _ => simpa [Except.toOption] using (ok.mp checked).2.2
  | error e =>
      simp only [Except.toOption, Option.isSome_none, Bool.false_eq_true, false_iff]
      intro rising
      cases checked.symm.trans (ok.mpr ⟨spread.length, spread.sorted, rising⟩)

include faulted

omit spread in
theorem calm_covered (me : Fin n) : Covered n index (calm selections faulty me) := by
  by_cases member : me ∈ faulty
  · rw [calm_faulty selections faulty me member]
    exact ⟨.nil, by simp⟩
  · rw [calm_good selections faulty me member]
    exact faulted.good me member

-- Nobody can tell a faulty rank from one that selects nothing, as far as requests go.
theorem asks_calm : asks selections (fun _ => index) = asks (calm selections faulty) fun _ => index := by
  funext source target
  by_cases member : source ∈ faulty
  · have unresolvable : ¬ Resolvable n (selections source) index := fun resolvable =>
      faulted.bad source member (covered_of_resolvable index meshes spread _ resolvable)
    have empty := resolvable_of_covered index meshes (calm selections faulty) spread source
      (calm_covered index selections faulty faulted source)
    rw [asks, asks, requestMessages, requestMessages, requests_unresolvable source n _ _ unresolvable,
      requests_resolvable source n _ _ empty, calm_faulty selections faulty source member, shares_nil]
  · rw [asks, asks, calm_good selections faulty source member]

theorem found_calm (holder requester : Fin n) :
    found selections (fun _ => index) meshes holder requester =
      found (calm selections faulty) (fun _ => index) meshes holder requester := by
  rw [found, found, asks_calm index meshes selections faulty spread faulted]

theorem row_arriving (short : ShortRequests index (calm selections faulty)) (holder requester : Fin n) :
    List.Forall₂ (fun f item => (meshes holder).facet f = .ok item) (row selections (fun _ => index) meshes holder requester)
        (arriving index meshes selections faulty holder requester) ∧
      ∀ f ∈ row selections (fun _ => index) meshes holder requester, f < (meshes holder).faceCount := by
  have covered := calm_covered index selections faulty faulted
  by_cases rising : (selections holder).IsChain (· < ·)
  · have answers := row_answers index meshes (calm selections faulty) spread holder requester covered
      (short_share index (calm selections faulty) requester holder (short requester holder))
    have own := (accepted_iff_rising index meshes spread (selections holder)).mpr rising
    have quiet := (accepted_iff_rising index meshes spread (calm selections faulty holder)).mpr (covered holder).rising
    have same : row selections (fun _ => index) meshes holder requester =
        row (calm selections faulty) (fun _ => index) meshes holder requester := by
      rw [row, row, if_pos own, if_pos quiet, found_calm index meshes selections faulty spread faulted]
    rw [same, arriving, if_pos rising]
    exact answers.2
  · have none : row selections (fun _ => index) meshes holder requester = [] :=
      if_neg fun own => rising ((accepted_iff_rising index meshes spread (selections holder)).mp own)
    rw [none, arriving, if_neg rising]
    exact ⟨.nil, by simp⟩

theorem faulty_fails (me : Fin n) (member : me ∈ faulty) :
    ∃ e, (selected names selections (fun _ => index) meshes me).mesh = .error e := by
  cases ended : (selected names selections (fun _ => index) meshes me).mesh with
  | error e => exact ⟨e, rfl⟩
  | ok mesh =>
      obtain ⟨fine, _⟩ := selected_ok selections (fun _ => index) meshes names me mesh ended
      have resolvable := ((request_fault_none_iff me n (selections me) index).mp fine).1
      exact absurd (covered_of_resolvable index meshes spread _ resolvable) (faulted.bad me member)

theorem light_of_calm (short : ShortRequests index (calm selections faulty)) : Light selections fun _ => index := by
  rw [Light, asks_calm index meshes selections faulty spread faulted]
  exact light_of_short index (calm selections faulty) short

theorem healthy_counts (short : ShortRequests index (calm selections faulty))
    (light : ShortAnswers index meshes (calm selections faulty)) (me : Fin n) (healthy : me ∉ faulty) :
    (selected names selections (fun _ => index) meshes me).mesh =
      let items := (List.ofFn fun holder => arriving index meshes selections faulty holder me).flatten
      if items.length = (selections me).length then .ok ((Assembly.empty.addFacets items).mesh (names me))
      else refuse (.selection (.incomplete me items.length (selections me).length)) := by
  have covered := calm_covered index selections faulty faulted
  have resolvable := resolvable_of_covered index meshes selections spread me (faulted.good me healthy)
  have same := calm_good selections faulty me healthy
  have fine : requestFault me n (selections me) index = none := by
    refine (request_fault_none_iff _ _ _ _).mpr ⟨resolvable, fun r bound => ?_⟩
    rw [← same]
    exact short_share index (calm selections faulty) me ⟨r, bound⟩ (short me ⟨r, bound⟩)
  have served := (plan_fault_none_iff index meshes selections me resolvable.checked).mpr fun requester => by
    rw [found_calm index meshes selections faulty spread faulted]
    exact (row_answers index meshes (calm selections faulty) spread me requester covered
      (short_share index (calm selections faulty) requester me (short requester me))).1
  have rows := row_arriving index meshes selections faulty spread faulted short
  have sizes := arriving_light index meshes selections faulty light
  have messages := fun holder => plan_messages selections (fun _ => index) meshes holder _ (spread.valid holder)
    (fun requester => (rows holder requester).1) (fun requester => (rows holder requester).2) (sizes holder)
  have arrived := shipped_lists selections (fun _ => index) meshes names _ messages sizes me
  exact selected_counts selections (fun _ => index) meshes names me _ fine served arrived

theorem healthy_gathers (short : ShortRequests index (calm selections faulty))
    (light : ShortAnswers index meshes (calm selections faulty)) (me : Fin n) (healthy : me ∉ faulty)
    (served : ∀ holder : Fin n, share index (selections me) holder ≠ [] → (selections holder).IsChain (· < ·)) :
    (selected names selections (fun _ => index) meshes me).mesh =
      .ok ((Assembly.empty.addFacets (gathered index meshes (calm selections faulty) me)).mesh (names me)) := by
  have all : ∀ holder, arriving index meshes selections faulty holder me =
      answersTo index meshes (calm selections faulty) holder me := by
    intro holder
    by_cases rising : (selections holder).IsChain (· < ·)
    · exact if_pos rising
    · have none : share index (selections me) holder = [] := not_not.mp fun some => rising (served holder some)
      rw [arriving, if_neg rising, answersTo, calm_good selections faulty me healthy, none, List.map_nil]
  have items : (List.ofFn fun holder => arriving index meshes selections faulty holder me).flatten =
      gathered index meshes (calm selections faulty) me := by
    rw [gathered]
    exact congrArg (fun lists => (List.ofFn lists).flatten) (funext all)
  have complete := (gathered_each index meshes (calm selections faulty) me (resolvable_of_covered index meshes _ spread me
    (calm_covered index selections faulty faulted me))).length_eq.symm
  rw [calm_good selections faulty me healthy] at complete
  rw [healthy_counts index meshes selections names faulty spread faulted short light me healthy]
  simp only [items]
  exact if_pos complete

theorem healthy_starves (short : ShortRequests index (calm selections faulty))
    (light : ShortAnswers index meshes (calm selections faulty)) (me holder : Fin n) (healthy : me ∉ faulty)
    (needed : share index (selections me) holder ≠ []) (falls : ¬ (selections holder).IsChain (· < ·)) :
    ∃ got, got ≠ (selections me).length ∧ (selected names selections (fun _ => index) meshes me).mesh =
      refuse (.selection (.incomplete me got (selections me).length)) := by
  have resolvable := resolvable_of_covered index meshes selections spread me (faulted.good me healthy)
  have each : ∀ owner : Fin n, arriving index meshes selections faulty owner me = [] ∨
      List.Forall₂ (fun gnum item => item = answerTo index meshes owner gnum) (share index (selections me) owner)
        (arriving index meshes selections faulty owner me) := by
    intro owner
    rcases arriving_eq_or_nil index meshes selections faulty owner me with none | all
    · exact .inl none
    · rw [all, answersTo, calm_good selections faulty me healthy, List.forall₂_map_right_iff, List.forall₂_same]
      exact .inr fun _ _ => rfl
  -- Each owner sends all or nothing, so the right number would mean that `holder` sends its part too.
  have starved : (List.ofFn fun owner => arriving index meshes selections faulty owner me).flatten.length ≠
      (selections me).length := by
    intro complete
    rw [← shares_flatten index (selections me) resolvable] at complete
    have full := all_full _ (fun owner : Fin n => share index (selections me) owner) _ each complete holder
    rw [arriving, if_neg falls, List.forall₂_nil_right_iff] at full
    exact needed full
  have counted := healthy_counts index meshes selections names faulty spread faulted short light me healthy
  exact ⟨_, starved, counted.trans (if_neg starved)⟩

-- The faulty ranks fail. The others get what they would get if the faulty ranks selected nothing, but not those who need
-- faces of a rank whose selection does not rise.
theorem faulty_selections_spread (several : 2 ≤ n) (short : ShortRequests index (calm selections faulty))
    (light : ShortAnswers index meshes (calm selections faulty)) :
    ∃ outcomes quiet, Network.Settles (running index meshes selections names) outcomes ∧
      Network.Settles (running index meshes (calm selections faulty) names) quiet ∧
      (∀ me ∈ faulty, ∃ e, (outcomes me).mesh = .error e) ∧
      (∀ me, me ∉ faulty → ∃ mesh, (quiet me).mesh = .ok mesh ∧
        ((∀ holder : Fin n, share index (selections me) holder ≠ [] → (selections holder).IsChain (· < ·)) →
          (outcomes me).mesh = .ok mesh)) ∧
      ∀ me holder : Fin n, me ∉ faulty → share index (selections me) holder ≠ [] → ¬ (selections holder).IsChain (· < ·) →
        ∃ got, got ≠ (selections me).length ∧
          (outcomes me).mesh = refuse (.selection (.incomplete me got (selections me).length)) := by
  have lightAll := light_of_calm index meshes selections faulty spread faulted short
  have lightCalm := light_of_short index (calm selections faulty) short
  refine ⟨_, _, running_settles index meshes selections names several lightAll,
    running_settles index meshes (calm selections faulty) names several lightCalm,
    faulty_fails index meshes selections names faulty spread faulted, ?good, ?starved⟩
  case good =>
    intro me healthy
    have quiet := selected_gathers index meshes (calm selections faulty) names spread me
      (calm_covered index selections faulty faulted) short light
    exact ⟨_, quiet, healthy_gathers index meshes selections names faulty spread faulted short light me healthy⟩
  case starved =>
    intro me holder healthy needed falls
    exact healthy_starves index meshes selections names faulty spread faulted short light me holder healthy needed falls

end Group

section Specks

theorem first_faulted (selection : List UInt64) (bad : ¬ Covered 2 [0, 1, 2] selection) :
    Faulted [0, 1, 2] ![selection, [1]] {0} := by
  constructor
  · intro me member
    obtain rfl := Finset.mem_singleton.mp member
    exact bad
  · intro me healthy
    obtain rfl := Fin.eq_one_of_ne_zero me fun same => healthy (Finset.mem_singleton.mpr same)
    exact ⟨.singleton 1, by simp⟩

theorem calm_first (selection : List UInt64) : calm ![selection, [1]] {(0 : Fin 2)} = ![[], [1]] := by
  funext me
  fin_cases me <;> rfl

theorem calm_short : ShortRequests [0, 1, 2] ![[], [1]] := short_selections _ _ (by decide)

theorem calm_light : ShortAnswers [0, 1, 2] ![speck, speck] ![[], [1]] := by
  intro holder requester
  fin_cases holder <;> fin_cases requester <;> simp [answersTo, share, first_speck_owned] <;> decide

theorem unresolved_speck_spares_the_other :
    ∃ outcomes quiet, Network.Settles (running [0, 1, 2] ![speck, speck] ![[99], [1]] fun _ => "picked") outcomes ∧
      Network.Settles (running [0, 1, 2] ![speck, speck] ![[], [1]] fun _ => "picked") quiet ∧
      (∃ e, (outcomes 0).mesh = .error e) ∧ ∃ mesh, (quiet 1).mesh = .ok mesh ∧ (outcomes 1).mesh = .ok mesh := by
  have unowned : ¬ Covered 2 [0, 1, 2] [99] := fun covered => by simpa using covered.inside 99 (by simp) 0 2 rfl rfl
  have calmed := calm_first [99]
  obtain ⟨outcomes, quiet, settles, settlesQuiet, fails, gets, _⟩ :=
    faulty_selections_spread [0, 1, 2] ![speck, speck] ![[99], [1]] (fun _ => "picked") {0} specks_spread
      (first_faulted [99] unowned) (by decide) (calmed ▸ calm_short) (calmed ▸ calm_light)
  rw [calmed] at settlesQuiet
  obtain ⟨mesh, ok, same⟩ := gets 1 (by decide)
  have rising : ∀ holder : Fin 2, (![[99], [1]] holder : List UInt64).IsChain (· < ·) := by decide
  exact ⟨outcomes, quiet, settles, settlesQuiet, fails 0 (by decide), mesh, ok, same fun holder _ => rising holder⟩

theorem falling_speck_fails_the_other :
    Spread [0, 1, 2] ![speck, speck] ∧ Faulted [0, 1, 2] ![[2, 1], [1]] {(0 : Fin 2)} ∧
    ∃ outcomes quiet, Network.Settles (running [0, 1, 2] ![speck, speck] ![[2, 1], [1]] fun _ => "picked") outcomes ∧
      Network.Settles (running [0, 1, 2] ![speck, speck] ![[], [1]] fun _ => "picked") quiet ∧
      (∃ mesh, (quiet 1).mesh = .ok mesh) ∧ ∃ e, (outcomes 1).mesh = .error e := by
  have falls : ¬ Covered 2 [0, 1, 2] [2, 1] := fun covered => absurd covered.rising (by decide)
  have faulted := first_faulted [2, 1] falls
  have calmed := calm_first [2, 1]
  have short : ShortRequests [0, 1, 2] (calm ![[2, 1], [1]] {(0 : Fin 2)}) := calmed ▸ calm_short
  have light : ShortAnswers [0, 1, 2] ![speck, speck] (calm ![[2, 1], [1]] {(0 : Fin 2)}) := calmed ▸ calm_light
  have covered := calm_covered [0, 1, 2] _ _ faulted
  rw [calmed] at covered
  have lightAll := light_of_calm [0, 1, 2] ![speck, speck] _ _ specks_spread faulted short
  have quiet := selected_gathers [0, 1, 2] ![speck, speck] ![[], [1]] (fun _ => "picked") specks_spread 1 covered calm_short calm_light
  have needed : share [0, 1, 2] (![[2, 1], [1]] (1 : Fin 2)) (0 : Fin 2).val ≠ [] := by simp [share, first_speck_owned]
  obtain ⟨got, _, starves⟩ := healthy_starves [0, 1, 2] ![speck, speck] ![[2, 1], [1]] (fun _ => "picked") {0} specks_spread
    faulted short light 1 0 (by decide) needed (by decide)
  exact ⟨specks_spread, faulted, _, _, running_settles _ _ _ _ (by decide) lightAll,
    running_settles _ _ _ _ (by decide) (light_of_short _ _ calm_short), ⟨_, quiet⟩, _, starves⟩

end Specks

end Seam.Selection
