import Seam.Proofs.Group.SerialEquivalence
import Seam.Proofs.Mesh.Cutting
import Seam.Proofs.Tidying

set_option autoImplicit false

namespace Seam.Selection

def countUp (sizes : List Nat) : List UInt64 := (sizes.scanl (· + ·) 0).map .ofNat

section Counting

variable (sizes : List Nat) (few : sizes.sum < UInt64.size)

theorem sum_take_le (i j : Nat) (order : i ≤ j) : (sizes.take i).sum ≤ (sizes.take j).sum :=
  List.Sublist.sum_le_sum (List.take_sublist_take_left order) fun _ _ => Nat.zero_le _

theorem count_up_length : (countUp sizes).length = sizes.length + 1 := by
  rw [countUp, List.length_map, List.length_scanl]

theorem count_up_get (r : Nat) (bound : r ≤ sizes.length) : (countUp sizes)[r]? = some (.ofNat (sizes.take r).sum) := by
  rw [countUp, List.getElem?_map, List.getElem?_scanl, if_pos bound, List.sum_eq_foldl, Option.map_some]

include few

theorem take_few (r : Nat) : (sizes.take r).sum < UInt64.size := by
  have le := sum_take_le sizes r (max r sizes.length) (Nat.le_max_left _ _)
  rw [List.take_of_length_le (Nat.le_max_right r sizes.length)] at le
  exact Nat.lt_of_le_of_lt le few

theorem count_up_sorted : (countUp sizes).IsChain (· ≤ ·) := by
  refine List.isChain_iff_getElem.mpr fun i bound => ?_
  rw [count_up_length] at bound
  have low := count_up_get sizes i (by omega)
  have high := count_up_get sizes (i + 1) (by omega)
  rw [(List.getElem?_eq_some_iff.mp low).2, (List.getElem?_eq_some_iff.mp high).2]
  exact (UInt64.ofNat_le_iff_le (take_few sizes few i) (take_few sizes few (i + 1))).mpr (sum_take_le sizes i _ (Nat.le_succ i))

end Counting

theorem everything_get (count k : Nat) (bound : k < count) : (everything count)[k]? = some (.ofNat (k + 1)) := by
  simp [everything, bound]

theorem local_face_everything (k : Nat) (few : k + 1 < UInt64.size) : localFace 0 (.ofNat (k + 1)) = k := by
  rw [localFace, UInt64.toNat_ofNat_of_lt' few]
  exact Nat.add_sub_cancel k 1

section Answers

variable {n : Nat} (index : List UInt64) (meshes : Fin n → Mesh) (selections : Fin n → List UInt64)
variable (spread : Spread index meshes)

include spread

theorem answers_sublist (holder requester : Fin n) (rising : (selections requester).IsChain (· < ·)) :
    (answersTo index meshes selections holder requester).Sublist (meshes holder).facets := by
  obtain ⟨low, base⟩ := bounds_exist index meshes spread holder (Nat.le_of_lt holder.isLt)
  have owned : ∀ gnum ∈ share index (selections requester) holder, Within index holder gnum := fun gnum member =>
    (owner_iff index spread.sorted holder gnum).mp (by simpa using (List.mem_filter.mp member).2)
  have inside : ∀ gnum ∈ share index (selections requester) holder,
      low < gnum ∧ localFace low gnum < (meshes holder).facets.length := by
    intro gnum member
    rw [Mesh.facets_length _ (spread.valid holder)]
    exact held_below index meshes spread holder gnum low (owned gnum member) base
  have ordered : (share index (selections requester) holder).Pairwise (· < ·) := (List.isChain_iff_pairwise.mp rising).filter _
  let places := (share index (selections requester) holder).pmap (fun gnum held => Fin.mk (localFace low gnum) held.2) inside
  have ascending : places.Pairwise (· < ·) := by
    refine ordered.pmap inside fun gnum first other second less => ?_
    have above := UInt64.lt_iff_toNat_lt.mp first.1
    have next := UInt64.lt_iff_toNat_lt.mp less
    simp only [Fin.mk_lt_mk, localFace]
    omega
  have found : answersTo index meshes selections holder requester = places.map fun place => (meshes holder).facets[place] := by
    rw [List.map_pmap, answersTo, ← List.pmap_eq_map inside]
    refine List.pmap_congr_left _ fun gnum _ held _ => ?_
    simp [answerTo, List.getD_eq_getElem?_getD, base, held.2]
  rw [found]
  exact List.map_getElem_sublist ascending

theorem answers_size (holder requester : Fin n) (rising : (selections requester).IsChain (· < ·)) :
    facetMessageSize (answersTo index meshes selections holder requester) ≤ facetMessageSize (meshes holder).facets :=
  Nat.add_le_add_left (((answers_sublist index meshes selections spread holder requester rising).map _).sum_le_sum
    fun _ _ => Nat.zero_le _) 12

theorem short_answers (rising : ∀ me, (selections me).IsChain (· < ·))
    (light : ∀ me, facetMessageSize (meshes me).facets < UInt32.size) : ShortAnswers index meshes selections :=
  fun holder requester => Nat.lt_of_le_of_lt (answers_size index meshes selections spread holder requester (rising requester))
    (light holder)

-- A request is shorter than its answer.
theorem short_requests (rising : ∀ me, (selections me).IsChain (· < ·))
    (light : ∀ me, facetMessageSize (meshes me).facets < UInt32.size) : ShortRequests index selections := by
  intro requester holder
  have answers := short_answers index meshes selections spread rising light holder requester
  have each := (sizes_below_total (answersTo index meshes selections holder requester)).1
  have width : Wire.gnum.size = 8 := rfl
  rw [facetMessageSize] at answers
  rw [answersTo, List.length_map] at each
  rw [Wire.messageSize, width]
  rw [answersTo] at answers
  omega

theorem gathered_chosen (me : Fin n) (resolvable : Resolvable n (selections me) index) :
    Chosen index meshes (selections me) (gathered index meshes selections me) := by
  refine (gathered_each index meshes selections me resolvable).imp fun gnum item answered => ?_
  obtain ⟨holder, owned, rfl⟩ := answered
  obtain ⟨low, base⟩ := bounds_exist index meshes spread holder (Nat.le_of_lt holder.isLt)
  obtain ⟨serves, facet, _⟩ := answer_found index meshes spread holder gnum low base owned
  exact ⟨holder, _, serves, facet⟩

end Answers

section Gathering

variable {n : Nat} (meshes : Fin n → Mesh) (count : Nat) (names : Fin n → String)

def faceCounts : List Nat := List.ofFn fun me => (meshes me).faceCount

def counted : List UInt64 := countUp (faceCounts meshes)

def gathering : Fin n → Program Outcome := running (counted meshes) meshes (fun _ => everything count) names

variable (valid : ∀ me, (meshes me).check = .ok ()) (total : (faceCounts meshes).sum = count) (few : count < UInt64.size)

theorem face_counts_length : (faceCounts meshes).length = n := List.length_ofFn

theorem counted_first : (counted meshes)[0]? = some 0 := count_up_get (faceCounts meshes) 0 (Nat.zero_le _)

include total

theorem counted_last : (counted meshes)[n]? = some (.ofNat count) := by
  have size := face_counts_length meshes
  rw [counted, count_up_get _ n (by omega), List.take_of_length_le (by omega), total]

include few

theorem everything_covered : Covered n (counted meshes) (everything count) where
  rising := everything_rising count few
  inside := by
    intro gnum member first last atFirst atLast
    obtain rfl := Option.some.inj (atFirst.symm.trans (counted_first meshes))
    obtain rfl := Option.some.inj (atLast.symm.trans (counted_last meshes count total))
    exact everything_within count few gnum member

include valid

theorem counted_spread : Spread (counted meshes) meshes where
  length := by rw [counted, count_up_length, face_counts_length]
  sorted := count_up_sorted _ (total ▸ few)
  valid := valid
  counts me low high atLow atHigh := by
    have bound : me.val < (faceCounts meshes).length := (face_counts_length meshes).symm ▸ me.isLt
    have held : (faceCounts meshes)[me.val] = (meshes me).faceCount := by simp [faceCounts]
    have fits : (faceCounts meshes).sum < UInt64.size := total ▸ few
    rw [counted, count_up_get _ _ (Nat.le_of_lt bound)] at atLow
    rw [counted, count_up_get _ _ bound] at atHigh
    obtain rfl := Option.some.inj atLow
    obtain rfl := Option.some.inj atHigh
    rw [UInt64.toNat_ofNat_of_lt' (take_few _ fits _), UInt64.toNat_ofNat_of_lt' (take_few _ fits _),
      List.sum_take_succ _ _ bound, held, Nat.add_sub_cancel_left]

theorem chosen_everything (items : List Facet) (chosen : Chosen (counted meshes) meshes (everything count) items) :
    items = (List.ofFn fun me => (meshes me).facets).flatten := by
  have spread := counted_spread meshes count valid total few
  have length : (everything count).length = count := by rw [everything, List.length_map, List.length_range]
  have whole : (List.ofFn fun me => (meshes me).facets).flatten.length = count := by
    rw [← total, List.length_flatten, List.map_ofFn, faceCounts]
    exact congrArg (fun sizes => (List.ofFn sizes).sum) (funext fun me => Mesh.facets_length _ (valid me))
  have same : items.length = count := chosen.length_eq.symm.trans length
  refine List.ext_getElem (same.trans whole.symm) fun k bound other => ?_
  have inside : k < count := same ▸ bound
  obtain ⟨holder, face, serves, facet⟩ := chosen.get (length.symm ▸ inside) bound
  have number : (everything count).get ⟨k, length.symm ▸ inside⟩ = .ofNat (k + 1) :=
    (List.getElem?_eq_some_iff.mp (everything_get count k inside)).2
  rw [number] at serves
  obtain ⟨low, high, atLow, atHigh, above, upTo, rfl, held⟩ := serves
  have found := concat_facet _ meshes spread holder _ 0 low ⟨low, high, atLow, atHigh, above, upTo⟩ (counted_first meshes) atLow
    _ ((Mesh.facet_of_check _ (valid holder) _ _).mp ⟨facet, held⟩)
  rw [local_face_everything k (by omega), concat_facets _ meshes spread] at found
  exact (List.getElem?_eq_some_iff.mp found).2.symm

theorem gathering_alone (alone : n = 1) (me : Fin n) :
    ∃ mesh, (picked (counted meshes) meshes (fun _ => everything count) names me).mesh = .ok mesh := by
  have spread := counted_spread meshes count valid total few
  have covered := everything_covered meshes count total few
  have resolvable := resolvable_of_covered _ meshes (fun _ => everything count) spread me covered
  have chosen := gathered_chosen _ meshes (fun _ => everything count) spread me resolvable
  obtain ⟨low, atLow⟩ := bounds_exist _ meshes spread 0 (Nat.zero_le n)
  obtain ⟨high, atHigh⟩ := bounds_exist _ meshes spread 1 (by omega)
  have first : me.val = 0 := by omega
  have answered : List.Forall₂
      (fun gnum item => ∃ face, Serves 0 (counted meshes) (meshes me).faceCount gnum face ∧ (meshes me).facet face = .ok item)
      (everything count) (gathered (counted meshes) meshes (fun _ => everything count) me) := by
    refine chosen.imp fun gnum item answered => ?_
    obtain ⟨holder, face, serves, facet⟩ := answered
    obtain rfl : holder = me := Fin.ext (by omega)
    exact ⟨face, first ▸ serves, facet⟩
  have served := (pick_ok_iff (names me) _ _ (meshes me) _ low high atLow atHigh).mpr ⟨valid me, _, answered, rfl⟩
  rw [picked, resolvable.checked]
  exact ⟨_, served⟩

theorem gathering_lockstep (light : n ≠ 1 → ∀ me, facetMessageSize (meshes me).facets < UInt32.size) :
    ∃ outcomes : Fin n → Outcome, Group.Lockstep (gathering meshes count names) (fun me => .done (outcomes me)) ∧
      ∀ me, ∃ mesh, (outcomes me).mesh = .ok mesh := by
  by_cases alone : n = 1
  · exact ⟨_, Group.lockstep_of_eq (running_alone _ meshes _ names alone),
      gathering_alone meshes count names valid total few alone⟩
  · have spread := counted_spread meshes count valid total few
    have covered := everything_covered meshes count total few
    have short := short_requests _ meshes (fun _ => everything count) spread (fun _ => covered.rising) (light alone)
    have answers := short_answers _ meshes (fun _ => everything count) spread (fun _ => covered.rising) (light alone)
    exact ⟨_, select_lockstep names (fun _ => everything count) _ meshes alone (light_of_short _ _ short),
      fun me => ⟨_, selected_gathers _ meshes _ names spread me (fun _ => covered) short answers⟩⟩

theorem gathering_assembles (net : Network n Outcome)
    (reaches : Network.Reaches (Network.start (gathering meshes count names)) net) (me : Fin n) (outcome : Outcome) (mesh : Mesh)
    (ended : net.stages me = .ended outcome) (ok : outcome.mesh = .ok mesh) :
    mesh = (Assembly.empty.addFacets (List.ofFn fun me => (meshes me).facets).flatten).mesh (names me) := by
  obtain ⟨_, items, rfl, chosen⟩ := ended_answers _ meshes _ names net reaches me outcome mesh ended ok
  rw [chosen_everything meshes count valid total few items chosen]

-- Who selects everything is sent all faces of a rank at once.
theorem parts_everything (me : Fin n) (items : Fin n → List Facet)
    (answers : ∀ owner, List.Forall₂ (Answers (counted meshes) meshes owner) (share (counted meshes) (everything count) owner) (items owner)) :
    items = fun owner => (meshes owner).facets := by
  have spread := counted_spread meshes count valid total few
  have rising : ∀ _ : Fin n, (everything count).IsChain (· < ·) := fun _ => everything_rising count few
  have resolvable := resolvable_of_covered _ meshes (fun _ => everything count) spread me (everything_covered meshes count total few)
  have chosen : Chosen (counted meshes) meshes (everything count) (List.ofFn items).flatten := by
    have inOrder := shares_flatten (n := n) (counted meshes) (everything count) resolvable
    have each := List.rel_flatten (for_all_of_fn _ _ _ fun owner =>
      (answers owner).imp fun gnum item answer => Exists.intro owner answer)
    rwa [inOrder] at each
  have whole := chosen_everything meshes count valid total few _ chosen
  have short : ∀ owner ∈ Finset.univ, (items owner).length ≤ (meshes owner).facets.length := by
    intro owner _
    have most := (answers_sublist _ meshes (fun _ => everything count) spread owner me (rising me)).length_le
    rwa [answersTo, List.length_map, (answers owner).length_eq] at most
  have sums : ∑ owner, (items owner).length = ∑ owner, (meshes owner).facets.length := by
    simpa [List.length_flatten, List.map_ofFn, List.sum_ofFn] using congrArg List.length whole
  have lengths := (Finset.sum_eq_sum_iff_of_le short).mp sums
  refine List.ofFn_injective ((List.eq_iff_flatten_eq ..).mpr ⟨whole, ?_⟩)
  simp only [List.map_ofFn]
  exact congrArg List.ofFn (funext fun owner => lengths owner (Finset.mem_univ owner))

theorem heavy_piece_starves (several : n ≠ 1) (holder : Fin n)
    (heavy : ¬ facetMessageSize (meshes holder).facets < UInt32.size) (net : Network n Outcome)
    (reaches : Network.Reaches (Network.start (gathering meshes count names)) net) (me : Fin n) (outcome : Outcome)
    (ended : net.stages me = .ended outcome) : ∃ e, outcome.mesh = .error e := by
  by_cases light : Light (fun _ : Fin n => everything count) fun _ => counted meshes
  · obtain rfl := light_end_selected _ meshes _ names several light net reaches me outcome ended
    cases got : (selected names (fun _ => everything count) (fun _ => counted meshes) meshes me).mesh with
    | error e => exact ⟨e, rfl⟩
    | ok mesh =>
        obtain ⟨items, _, parts⟩ := selected_parts _ meshes (fun _ => everything count) names me mesh got
        have full := parts_everything meshes count valid total few me items fun owner => (parts owner).2
        have arrives := (parts holder).1
        simp only [full] at arrives
        have bound := Group.capped_length (sent (fun _ => everything count) (fun _ => counted meshes) meshes holder me)
        rcases arrives with ⟨_, none⟩ | ⟨message, _⟩
        · rw [none] at heavy
          exact absurd (by decide) heavy
        · rw [message, facet_message_length] at bound
          exact absurd bound heavy
  · exact heavy_end_fails _ meshes _ names several light net reaches me outcome ended

end Gathering

section Dealing

variable {n : Nat}

structure Dealt (count : Nat) (parts : Fin n → List Nat) : Prop where
  rising : ∀ me, (parts me).IsChain (· < ·)
  each : (List.ofFn parts).flatten.Perm (List.range count)

variable (whole : Mesh) (valid : whole.check = .ok ()) (parts : Fin n → List Nat) (dealt : Dealt whole.faceCount parts)
variable (pieces : Fin n → Mesh) (cuts : ∀ me, Mesh.Cut whole (parts me) (pieces me))

theorem dealt_inside (count : Nat) (all : Dealt count parts) (me : Fin n) : ∀ f ∈ parts me, f < count := fun _ member =>
  List.mem_range.mp (all.each.mem_iff.mp (List.mem_flatten.mpr ⟨parts me, List.mem_ofFn.mpr ⟨me, rfl⟩, member⟩))

include dealt cuts

theorem pieces_total : (faceCounts pieces).sum = whole.faceCount := by
  have sizes : faceCounts pieces = (List.ofFn parts).map List.length := by
    rw [List.map_ofFn, faceCounts]
    exact congrArg List.ofFn (funext fun me => (cuts me).count)
  rw [sizes, ← List.length_flatten, dealt.each.length_eq, List.length_range]

include valid

theorem pieces_facets : (List.ofFn fun me => (pieces me).facets).flatten.Perm whole.facets := by
  have facets : (List.ofFn fun me => (pieces me).facets).flatten =
      (List.ofFn parts).flatten.filterMap fun f => whole.facets[f]? := by
    rw [List.filterMap_flatten, List.map_ofFn]
    exact congrArg (fun lists => (List.ofFn lists).flatten) (funext fun me => (cuts me).facets)
  have all := Mesh.range_get whole.facets
  rw [Mesh.facets_length whole valid] at all
  rw [facets]
  exact (dealt.each.filterMap _).trans (.of_eq all)

end Dealing

-- However the faces of a mesh are dealt out to ranks, each rank that selects all of them gets what tidying the mesh itself
-- gives, in every run that comes to an end, and with messages under 4 GiB every run does.
theorem dealt_faces_gather_back {n : Nat} (whole : Mesh) (valid : whole.check = .ok ())
    (distinct : (whole.vertices.map Vertex.gnum).Nodup) (few : whole.faceCount < UInt64.size) (parts : Fin n → List Nat)
    (dealt : Dealt whole.faceCount parts) (labels names : Fin n → String) :
    ∃ (pieces : Fin n → Mesh) (tidy : Result (Mesh × Nat)), (∀ me, Mesh.subset (labels me) (parts me) whole = .ok (pieces me)) ∧
      Mesh.bared tidy = Mesh.bared whole.tidied ∧
      (∀ net, Network.Reaches (Network.start (gathering pieces whole.faceCount names)) net →
        ∀ me outcome mesh, net.stages me = .ended outcome → outcome.mesh = .ok mesh →
          mesh.canonical = Mesh.titled (names me) tidy) ∧
      ((n ≠ 1 → ∀ me, facetMessageSize (pieces me).facets < UInt32.size) →
        ∃ outcomes, Network.Settles (gathering pieces whole.faceCount names) outcomes ∧
          ∀ me, ∃ mesh, (outcomes me).mesh = .ok mesh ∧ mesh.canonical = Mesh.titled (names me) tidy) ∧
      ((∃ result, whole.tidied = .ok result) ∨
        ∃ gnum, whole.canonical = refuse (.inconsistentFace gnum) ∧ whole.tidied = refuse (.inconsistentFace gnum)) := by
  choose pieces cut cuts using fun me =>
    Mesh.subset_cuts (labels me) (parts me) whole valid (dealt.rising me) (dealt_inside parts whole.faceCount dealt me)
  have sound : ∀ me, (pieces me).check = .ok () := fun me => (cuts me).valid
  have total := pieces_total whole parts dealt pieces cuts
  let all := (List.ofFn fun me => (pieces me).facets).flatten
  have ends : ∀ net, Network.Reaches (Network.start (gathering pieces whole.faceCount names)) net →
      ∀ me outcome mesh, net.stages me = .ended outcome → outcome.mesh = .ok mesh →
        mesh.canonical = Mesh.titled (names me) ((Assembly.empty.addFacets all).mesh "").canonical := by
    intro net reaches me outcome mesh ended ok
    have assembled := gathering_assembles pieces whole.faceCount names sound total few net reaches me outcome mesh ended ok
    rw [assembled]
    exact Mesh.canonical_titled ((Assembly.empty.addFacets all).mesh "") (names me)
  have tidy := rebuilt_canonical whole valid distinct all (pieces_facets whole valid parts dealt pieces cuts) ""
  refine ⟨pieces, _, cut, tidy, ends, fun light => ?_, Mesh.tidied_ends whole valid⟩
  obtain ⟨outcomes, steps, got⟩ := gathering_lockstep pieces whole.faceCount names sound total few light
  refine ⟨outcomes, settles_running _ _ _ _ outcomes steps, fun me => ?_⟩
  obtain ⟨mesh, ok⟩ := got me
  exact ⟨mesh, ok, ends _ (Group.lockstep_reaches _ _ steps) me _ mesh rfl ok⟩

def patch : Mesh :=
  { Mesh.empty "patch" with
    faceGnums := [2, 5], faceIndex := [0, 1, 3], faceRefs := [0, 1, 0]
    vertices := [⟨9, ⟨0⟩, ⟨⟨0⟩, ⟨0⟩, ⟨0⟩⟩⟩, ⟨4, ⟨0⟩, ⟨⟨0⟩, ⟨0⟩, ⟨0⟩⟩⟩, ⟨1, ⟨0⟩, ⟨⟨0⟩, ⟨0⟩, ⟨0⟩⟩⟩] }

theorem patch_comes_back :
    let tidy : Mesh :=
      { Mesh.empty "patch" with
        faceGnums := [2, 5], faceIndex := [0, 1, 3], faceRefs := [1, 0, 1], globalFaces := 2, globalVertices := 2
        vertices := [⟨4, ⟨0⟩, ⟨⟨0⟩, ⟨0⟩, ⟨0⟩⟩⟩, ⟨9, ⟨0⟩, ⟨⟨0⟩, ⟨0⟩, ⟨0⟩⟩⟩] }
    ∃ pieces : Fin 2 → Mesh, (∀ me, Mesh.subset "piece" (![[1], [0]] me) patch = .ok (pieces me)) ∧
      ∃ outcomes, Network.Settles (gathering pieces patch.faceCount fun _ => "whole") outcomes ∧
        ∀ me, ∃ mesh, (outcomes me).mesh = .ok mesh ∧ Mesh.bared mesh.canonical = .ok (tidy.bare, 0) := by
  intro tidy
  have dealt : Dealt patch.faceCount ![[1], [0]] := by
    refine ⟨fun me => ?_, by decide⟩
    fin_cases me <;> exact .singleton _
  obtain ⟨pieces, outcome, cut, same, _, settles, _⟩ := dealt_faces_gather_back patch (by decide) (by decide) (by decide)
    ![[1], [0]] dealt (fun _ => "piece") fun _ => "whole"
  let laid : Mesh := { patch with faceRefs := [2, 1, 2], vertices := patch.vertices.reverse }
  have arranged : patch.canonical = .ok (laid, 0) := (Mesh.canonical_eq patch).trans (by cbv)
  have compacted := Mesh.compact_ordered laid (by decide) _ (Mesh.ordered_of_ascending laid (by decide))
  have tidied : Mesh.bared patch.tidied = .ok (tidy.bare, 0) := by
    rw [Mesh.tidied, arranged]
    change Mesh.bared (laid.compact >>= fun made => .ok (made.1, 0)) = _
    rw [compacted]
    rfl
  obtain ⟨outcomes, ends, got⟩ := settles fun _ me => by
    obtain ⟨piece, again, size⟩ : ∃ piece, Mesh.subset "piece" (![[1], [0]] me) patch = .ok piece ∧
        facetMessageSize piece.facets < UInt32.size := by
      fin_cases me <;> exact ⟨_, rfl, by decide⟩
    rwa [← Except.ok.inj (again.symm.trans (cut me))]
  refine ⟨pieces, cut, outcomes, ends, fun me => ?_⟩
  obtain ⟨mesh, ok, sorted⟩ := got me
  exact ⟨mesh, ok, by rw [sorted, Mesh.bared_titled, same, tidied]⟩

def disk (corners : Nat) : Mesh :=
  { Mesh.empty "disk" with
    faceGnums := [1], faceIndex := [0, corners], faceRefs := List.replicate corners 0
    vertices := [⟨7, ⟨0⟩, ⟨⟨0⟩, ⟨0⟩, ⟨0⟩⟩⟩] }

section Disk

variable (corners : Nat)

theorem disk_laid : (disk corners).Laid [List.replicate corners 0] where
  count := rfl
  index := by simp [disk, Ragged.index, Ragged.boundaries]
  refs := by simp [disk]
  inside row member v listed := by
    obtain rfl : row = List.replicate corners 0 := by simpa using member
    obtain rfl := List.eq_of_mem_replicate listed
    exact Nat.zero_lt_one

theorem disk_valid : (disk corners).check = .ok () := (Mesh.check_ok_iff _).mpr ⟨_, disk_laid corners⟩

theorem disk_distinct : ((disk corners).vertices.map Vertex.gnum).Nodup := List.nodup_singleton 7

theorem disk_message : facetMessageSize (disk corners).facets = 28 + 40 * corners := by
  have records : (Mesh.look (disk corners).vertices (List.replicate corners 0)).length = corners := by
    have found : (disk corners).vertices[0]? = some ⟨7, ⟨0⟩, ⟨⟨0⟩, ⟨0⟩, ⟨0⟩⟩⟩ := rfl
    rw [Mesh.look, List.filterMap_replicate_of_some found, List.length_replicate]
  rw [Mesh.facets_laid _ _ (disk_laid corners), facetMessageSize]
  simp only [disk, List.zipWith_cons_cons, List.zipWith_nil_left, List.map_cons, List.map_nil, List.sum_singleton] at records ⊢
  rw [records]
  omega

theorem disk_tidied : ∃ result, (disk corners).tidied = .ok result := by
  refine (Mesh.tidied_ends _ (disk_valid corners)).resolve_right ?_
  rintro ⟨gnum, fails, _⟩
  have spec := Mesh.canonical_spec (disk corners) (disk_valid corners)
  rw [fails] at spec
  obtain ⟨_, _, clash⟩ := spec
  obtain ⟨key, single⟩ := List.length_eq_one_iff.mp (Mesh.face_keys_length (disk corners) (disk_valid corners))
  obtain ⟨a, listed, b, listedToo, _, _, differ⟩ := clash.clash
  rw [single] at listed listedToo
  obtain rfl := List.mem_singleton.mp listed
  obtain rfl := List.mem_singleton.mp listedToo
  exact differ rfl

theorem disk_dealt : Dealt (disk corners).faceCount ![[], [0]] := by
  refine ⟨fun me => ?_, List.Perm.refl _⟩
  fin_cases me
  · exact .nil
  · exact .singleton _

theorem heavy_disk_starves (heavy : UInt32.size ≤ 28 + 40 * corners) :
    ∃ pieces : Fin 2 → Mesh, (∀ me, Mesh.subset "piece" (![[], [0]] me) (disk corners) = .ok (pieces me)) ∧
      ∃ outcomes, Network.Settles (gathering pieces (disk corners).faceCount fun _ => "whole") outcomes ∧
        ∀ me, ∃ e, (outcomes me).mesh = .error e := by
  have valid := disk_valid corners
  have dealt := disk_dealt corners
  choose pieces cut cuts using fun me : Fin 2 =>
    Mesh.subset_cuts "piece" (![[], [0]] me) (disk corners) valid (dealt.rising me) (dealt_inside _ _ dealt me)
  have sound : ∀ me, (pieces me).check = .ok () := fun me => (cuts me).valid
  have total := pieces_total (disk corners) _ dealt pieces cuts
  have few : (disk corners).faceCount < UInt64.size := by
    rw [Mesh.faceCount, disk, List.length_singleton]
    decide
  have all : (pieces 1).facets = (disk corners).facets := by
    have one : [0] = List.range (disk corners).facets.length := by
      rw [Mesh.facets_length _ valid]
      rfl
    rw [(cuts 1).facets]
    exact (congrArg (List.filterMap _) one).trans (Mesh.range_get _)
  have large : ¬ facetMessageSize (pieces 1).facets < UInt32.size := by
    rw [all, disk_message]
    omega
  have one : Wire.messageSize Wire.gnum (everything 1) < UInt32.size := by decide
  have light : Light (fun _ : Fin 2 => everything (disk corners).faceCount) fun _ => counted pieces :=
    light_of_short _ _ (short_selections _ _ fun _ => one)
  have steps := select_lockstep (fun _ => "whole") (fun _ => everything (disk corners).faceCount) (fun _ => counted pieces) pieces
    (by decide) light
  refine ⟨pieces, cut, _, settles_running _ _ _ _ _ steps, fun me => ?_⟩
  exact heavy_piece_starves pieces _ _ sound total few (by decide) 1 large _ (Group.lockstep_reaches _ _ steps) me _ rfl

end Disk

theorem giant_face_stays_away :
    let giant := disk 107374182
    giant.check = .ok () ∧ (giant.vertices.map Vertex.gnum).Nodup ∧ Dealt giant.faceCount ![[], [0]] ∧
      (∃ result, giant.tidied = .ok result) ∧
      ∃ pieces : Fin 2 → Mesh, (∀ me, Mesh.subset "piece" (![[], [0]] me) giant = .ok (pieces me)) ∧
        ∃ outcomes, Network.Settles (gathering pieces giant.faceCount fun _ => "whole") outcomes ∧
          ∀ me, ∃ e, (outcomes me).mesh = .error e :=
  ⟨disk_valid _, disk_distinct _, disk_dealt _, disk_tidied _, heavy_disk_starves _ (by decide)⟩

end Seam.Selection
