import Seam.Group.Selection
import Seam.Proofs.Ragged

set_option autoImplicit false

namespace Seam.Selection

theorem halve_finds (index : List UInt64) (holds : UInt64 → Bool) (point base size : Nat)
    (below : ∀ i < point, (index[i]?.map holds).getD false = true)
    (above : ∀ i, point ≤ i → (index[i]?.map holds).getD false = false)
    (some : 0 < size) (low : base ≤ point) (high : point ≤ base + size) : halve index holds base size = point := by
  fun_induction halve index holds base size with
  | case1 base size many middle next ih =>
      have halfway : middle = base + size / 2 := rfl
      -- The point stays between `next` and the end of what is left.
      have moved : (middle < point ∧ next = middle) ∨ (point ≤ middle ∧ next = base) := by
        by_cases left : middle < point
        · exact .inl ⟨left, by simp [next, below middle left]⟩
        · exact .inr ⟨not_lt.mp left, by simp [next, above middle (not_lt.mp left)]⟩
      clear_value next middle
      apply ih
      · omega
      · omega
      · omega
  | case2 base size few found =>
      have left : base < point := by
        by_contra past
        rw [above base (not_lt.mp past)] at found
        cases found
      omega
  | case3 base size few missed =>
      have past : ¬ base < point := fun left => missed (below base left)
      omega

def Within (index : List UInt64) (r : Nat) (gnum : UInt64) : Prop :=
  ∃ low high, index[r]? = some low ∧ index[r + 1]? = some high ∧ low < gnum ∧ gnum ≤ high

theorem get_le_get (index : List UInt64) (sorted : index.IsChain (· ≤ ·)) (i j : Nat) (x y : UInt64) (order : i ≤ j)
    (first : index[i]? = some x) (second : index[j]? = some y) : x ≤ y := by
  obtain ⟨boundI, rfl⟩ := List.getElem?_eq_some_iff.mp first
  obtain ⟨boundJ, rfl⟩ := List.getElem?_eq_some_iff.mp second
  rcases Nat.lt_or_eq_of_le order with before | rfl
  · exact List.pairwise_iff_getElem.mp (List.isChain_iff_pairwise.mp sorted) i j boundI boundJ before
  · exact UInt64.le_refl _

theorem owner_of_within (index : List UInt64) (sorted : index.IsChain (· ≤ ·)) (r : Nat) (gnum : UInt64)
    (within : Within index r gnum) : owner gnum index = some r := by
  obtain ⟨low, high, atLow, atHigh, above, upTo⟩ := within
  have bound := (List.getElem?_eq_some_iff.mp atHigh).1
  have positive : 0 < index.length := by omega
  have head : index.head? = some index[0] := by rw [List.head?_eq_getElem?]; simp
  have last : index.getLast? = some index[index.length - 1] := by
    rw [List.getLast?_eq_getElem?]
    simp
  have first : index[0] < gnum :=
    UInt64.lt_of_le_of_lt (get_le_get index sorted 0 r _ _ (Nat.zero_le r) (by simp) atLow) above
  have final : gnum ≤ index[index.length - 1] :=
    UInt64.le_trans upTo (get_le_get index sorted (r + 1) (index.length - 1) _ _ (by omega) atHigh (by simp))
  have below : ∀ i < r + 1, (index[i]?.map fun x => decide (x < gnum)).getD false = true := by
    intro i inside
    have boundI : i < index.length := by omega
    have le := get_le_get index sorted i r index[i] low (by omega) (by simp) atLow
    simpa [boundI] using UInt64.lt_of_le_of_lt le above
  have beyond : ∀ i, r + 1 ≤ i → (index[i]?.map fun x => decide (x < gnum)).getD false = false := by
    intro i past
    by_cases boundI : i < index.length
    · have le := get_le_get index sorted (r + 1) i high index[i] past atHigh (by simp)
      simpa [boundI] using UInt64.le_trans upTo le
    · simp [List.getElem?_eq_none (not_lt.mp boundI)]
  have found := halve_finds index (fun x => decide (x < gnum)) (r + 1) 0 index.length below beyond positive (Nat.zero_le _)
    (by omega)
  have inside : ¬ (gnum ≤ index[0] ∨ index[index.length - 1] < gnum) := by
    simpa using ⟨first, final⟩
  simp only [owner, head, last, Option.bind_eq_bind, Option.bind_some, if_neg inside, found, Nat.add_sub_cancel]

theorem within_exists (index : List UInt64) (gnum first last : UInt64) (head : index.head? = some first)
    (ends : index.getLast? = some last) (above : first < gnum) (upTo : gnum ≤ last) : ∃ r, Within index r gnum := by
  induction index generalizing first with
  | nil => cases head
  | cons a rest ih =>
      obtain rfl : a = first := by simpa using head
      cases rest with
      | nil =>
          obtain rfl : a = last := by simpa using ends
          exact absurd above (UInt64.not_lt.mpr upTo)
      | cons b rest =>
          by_cases here : gnum ≤ b
          · exact ⟨0, a, b, rfl, rfl, above, here⟩
          · rw [List.getLast?_cons_cons] at ends
            obtain ⟨r, within⟩ := ih b rfl ends (UInt64.not_le.mp here)
            exact ⟨r + 1, within⟩

theorem owner_iff (index : List UInt64) (sorted : index.IsChain (· ≤ ·)) (r : Nat) (gnum : UInt64) :
    owner gnum index = some r ↔ Within index r gnum := by
  constructor
  · intro found
    cases head : index.head? with
    | none => simp [owner, head] at found
    | some first =>
        cases ends : index.getLast? with
        | none => simp [owner, head, ends] at found
        | some last =>
            by_cases outside : gnum ≤ first ∨ last < gnum
            · simp [owner, head, ends, outside] at found
            · obtain ⟨above, upTo⟩ := not_or.mp outside
              obtain ⟨other, within⟩ := within_exists index gnum first last head ends (UInt64.not_le.mp above)
                (UInt64.not_lt.mp upTo)
              have same := owner_of_within index sorted other gnum within
              rw [found] at same
              obtain rfl : r = other := by simpa using same
              exact within
  · exact owner_of_within index sorted r gnum

theorem owner_none_iff (index : List UInt64) (gnum first last : UInt64) (head : index.head? = some first)
    (ends : index.getLast? = some last) : owner gnum index = none ↔ gnum ≤ first ∨ last < gnum := by
  simp [owner, head, ends, or_iff_not_imp_left]

theorem within_unique (index : List UInt64) (sorted : index.IsChain (· ≤ ·)) (r s : Nat) (gnum : UInt64)
    (first : Within index r gnum) (second : Within index s gnum) : r = s := by
  have found := owner_of_within index sorted r gnum first
  rw [owner_of_within index sorted s gnum second] at found
  exact (Option.some.inj found).symm

theorem within_mono (index : List UInt64) (sorted : index.IsChain (· ≤ ·)) (r s : Nat) (a b : UInt64) (order : a < b)
    (first : Within index r a) (second : Within index s b) : r ≤ s := by
  obtain ⟨low, _, atLow, _, above, _⟩ := first
  obtain ⟨_, high, _, atHigh, _, upTo⟩ := second
  by_contra past
  have le := get_le_get index sorted (s + 1) r high low (by omega) atHigh atLow
  have less : low < low := UInt64.lt_of_lt_of_le above (UInt64.le_trans (UInt64.le_of_lt order) (UInt64.le_trans upTo le))
  exact UInt64.lt_irrefl _ less

theorem check_ok_iff (selection index : List UInt64) (ranks : Nat) : check selection index ranks = .ok () ↔
    index.length = ranks + 1 ∧ index.IsChain (· ≤ ·) ∧ selection.IsChain (· < ·) := by
  have sorted := Ragged.first_break_none_iff (fun a b : UInt64 => decide (a ≤ b)) index
  have rising := Ragged.first_break_none_iff (fun a b : UInt64 => decide (a < b)) selection
  simp only [decide_eq_true_eq] at sorted rising
  rw [← sorted, ← rising]
  by_cases length : index.length = ranks + 1
  · cases falls : Ragged.firstBreak (fun a b => decide (a ≤ b)) index with
    | some place => simp [check, length, falls, refuse, bind, Except.bind]
    | none =>
        cases stops : Ragged.firstBreak (fun a b => decide (a < b)) selection with
        | some place => simp [check, length, falls, stops, refuse]
        | none => simp [check, length, falls, stops, pure, Except.pure]
  · simp [check, length, refuse, bind, Except.bind]

def localFace (low gnum : UInt64) : Nat := gnum.toNat - low.toNat - 1

theorem local_face_sub (low gnum : UInt64) (above : low < gnum) : (gnum - (low + 1)).toNat = localFace low gnum := by
  have less := UInt64.lt_iff_toNat_lt.mp above
  have bound := gnum.toNat_lt
  have one : (1 : UInt64).toNat = 1 := rfl
  have next : (low + 1).toNat = low.toNat + 1 := by
    rw [UInt64.toNat_add, one]
    omega
  have le : low + 1 ≤ gnum := by
    rw [UInt64.le_iff_toNat_le, next]
    omega
  rw [UInt64.toNat_sub_of_le _ _ le, next, localFace]
  omega

theorem local_face_exact (low gnum : UInt64) (above : low < gnum) : low.toNat + 1 + localFace low gnum = gnum.toNat := by
  have less := UInt64.lt_iff_toNat_lt.mp above
  rw [localFace]
  omega

-- A request that rank `me` can answer, and the face that answers it.
def Serves (me : Nat) (index : List UInt64) (faces : Nat) (gnum : UInt64) (face : Nat) : Prop :=
  ∃ low high, index[me]? = some low ∧ index[me + 1]? = some high ∧ low < gnum ∧ gnum ≤ high ∧
    face = localFace low gnum ∧ face < faces

theorem serve_ok_iff (me requester : Nat) (asked index : List UInt64) (m : Mesh) (low high : UInt64)
    (atLow : index[me]? = some low) (atHigh : index[me + 1]? = some high) (faces : List Nat) :
    serve me requester asked index m = .ok faces ↔ List.Forall₂ (Serves me index m.faceCount) asked faces := by
  have base := (fetch_eq_ok_iff index me low).mpr atLow
  have top := (fetch_eq_ok_iff index (me + 1) high).mpr atHigh
  simp only [serve, base, top, bind, Except.bind, map_m_ok_iff]
  have each : ∀ gnum face, ((if low < gnum ∧ gnum ≤ high ∧ (gnum - (low + 1)).toNat < m.faceCount
      then (.ok (gnum - (low + 1)).toNat : Result Nat) else refuse (.faceNotOwned me requester gnum)) = .ok face) ↔
      Serves me index m.faceCount gnum face := by
    intro gnum face
    simp only [Serves, atLow, atHigh, Option.some.injEq]
    constructor
    · intro ok
      split at ok
      · rename_i inside
        obtain ⟨above, upTo, bound⟩ := inside
        rw [local_face_sub low gnum above] at ok bound
        obtain rfl : localFace low gnum = face := by simpa using ok
        exact ⟨low, high, rfl, rfl, above, upTo, rfl, bound⟩
      · cases ok
    · rintro ⟨_, _, rfl, rfl, above, upTo, rfl, bound⟩
      rw [local_face_sub _ gnum above, if_pos ⟨above, upTo, bound⟩]
  simp only [each]

theorem serve_one_iff (me requester : Nat) (gnum : UInt64) (index : List UInt64) (m : Mesh) (low high : UInt64)
    (atLow : index[me]? = some low) (atHigh : index[me + 1]? = some high) (full : high.toNat - low.toNat ≤ m.faceCount)
    (faces : List Nat) :
    serve me requester [gnum] index m = .ok faces ↔ (low < gnum ∧ gnum ≤ high) ∧ faces = [localFace low gnum] := by
  rw [serve_ok_iff me requester [gnum] index m low high atLow atHigh, List.forall₂_cons_left_iff]
  simp only [List.forall₂_nil_left_iff, Serves, atLow, atHigh, Option.some.injEq]
  constructor
  · intro served
    obtain ⟨_, _, ⟨_, _, rfl, rfl, above, upTo, rfl, _⟩, rfl, rfl⟩ := served
    exact ⟨⟨above, upTo⟩, rfl⟩
  · intro within
    obtain ⟨⟨above, upTo⟩, rfl⟩ := within
    have place := local_face_exact low gnum above
    have top := UInt64.le_iff_toNat_le.mp upTo
    exact ⟨_, _, ⟨low, high, rfl, rfl, above, upTo, rfl, by omega⟩, rfl, rfl⟩

def share (index selection : List UInt64) (r : Nat) : List UInt64 := selection.filter fun gnum => owner gnum index = some r

theorem owner_lt (index : List UInt64) (ranks : Nat) (length : index.length = ranks + 1) (sorted : index.IsChain (· ≤ ·))
    (gnum : UInt64) (r : Nat) (found : owner gnum index = some r) : r < ranks := by
  obtain ⟨_, high, _, atHigh, _⟩ := (owner_iff index sorted r gnum).mp found
  have bound := (List.getElem?_eq_some_iff.mp atHigh).1
  omega

section Routing

variable (me ranks : Nat) (selection index : List UInt64) (bounded : ∀ gnum r, owner gnum index = some r → r < ranks)

def shares : List (List UInt64) := (List.range ranks).map (share index selection)

theorem shares_nil : shares ranks [] index = List.replicate ranks [] := by
  have empty : share index [] = fun _ => [] := rfl
  rw [shares, empty, List.map_const', List.length_range]

theorem share_append (gnum : UInt64) (r : Nat) : share index (selection ++ [gnum]) r =
    if owner gnum index = some r then share index selection r ++ [gnum] else share index selection r := by
  by_cases owned : owner gnum index = some r <;> simp [share, owned]

theorem route_next (gnum : UInt64) (r : Nat) (found : owner gnum index = some r) (bound : r < ranks) :
    routeNext me index (shares ranks selection index) gnum = .ok (shares ranks (selection ++ [gnum]) index) := by
  have fetched := fetch_table ranks (share index selection) r bound
  have stored := store_table ranks (share index selection) (share index (selection ++ [gnum])) r bound fun other different => by
    rw [share_append, found, if_neg fun same => different (Option.some.inj same).symm]
  rw [share_append, if_pos found] at stored
  simp only [routeNext, found, shares, fetched]
  exact stored

theorem owner_of_routed (before lists : List (List UInt64)) (ok : selection.foldlM (routeNext me index) before = .ok lists) :
    ∀ gnum ∈ selection, ∃ r, owner gnum index = some r := by
  induction selection generalizing before with
  | nil => simp
  | cons gnum rest ih =>
      rw [List.foldlM_cons] at ok
      obtain ⟨next, here, later⟩ := bind_ok _ _ _ ok
      refine List.forall_mem_cons.mpr ⟨?_, ih next later⟩
      cases found : owner gnum index with
      | some r => exact ⟨r, rfl⟩
      | none => simp [routeNext, found, refuse] at here

include bounded

theorem route_ok_iff (lists : List (List UInt64)) : route me ranks selection index = .ok lists ↔
    (∀ gnum ∈ selection, ∃ r, owner gnum index = some r) ∧ lists = shares ranks selection index := by
  have routed (resolved : ∀ gnum ∈ selection, ∃ r, owner gnum index = some r) :
      route me ranks selection index = .ok (shares ranks selection index) := by
    rw [route, ← shares_nil ranks index]
    refine fold_m_state (routeNext me index) (fun before => shares ranks before index) selection fun before gnum upTo => ?_
    obtain ⟨r, found⟩ := resolved gnum (upTo.subset (by simp))
    exact route_next me ranks before index gnum r found (bounded gnum r found)
  constructor
  · intro ok
    have resolved := owner_of_routed me selection index _ lists ok
    exact ⟨resolved, (Except.ok.inj ((routed resolved).symm.trans ok)).symm⟩
  · rintro ⟨resolved, rfl⟩
    exact routed resolved

end Routing

theorem filter_next_key {α : Type} (key : α → Nat) (items : List α) (ordered : items.Pairwise fun a b => key a ≤ key b)
    (n : Nat) : items.filter (fun a => key a < n) ++ items.filter (fun a => key a = n) = items.filter fun a => key a < n + 1 := by
  induction ordered with
  | nil => rfl
  | @cons a items above _ ih =>
      simp only [List.filter_cons, decide_eq_true_eq]
      by_cases less : key a < n
      · rw [if_pos less, if_neg (Nat.ne_of_lt less), if_pos (Nat.lt_succ_of_lt less), List.cons_append, ih]
      · have none : items.filter (fun b => key b < n) = [] := by
          simp only [List.filter_eq_nil_iff, decide_eq_true_eq, Nat.not_lt]
          exact fun b member => Nat.le_trans (Nat.not_lt.mp less) (above b member)
        rw [none, List.nil_append] at ih
        rw [if_neg less, none, List.nil_append, ih]
        by_cases same : key a = n
        · rw [if_pos same, if_pos (by omega)]
        · rw [if_neg same, if_neg (by omega)]

theorem flat_map_keys {α : Type} (key : α → Nat) (items : List α) (ordered : items.Pairwise fun a b => key a ≤ key b)
    (n : Nat) : (List.range n).flatMap (fun r => items.filter fun a => key a = r) = items.filter fun a => key a < n := by
  induction n with
  | zero => simp
  | succ n ih => rw [List.range_succ, List.flatMap_append, ih, List.flatMap_singleton, filter_next_key key items ordered n]

-- On a sorted index the shares of a rising selection, rank by rank, are the selection itself.
theorem shares_in_order (index selection : List UInt64) (ranks : Nat) (sorted : index.IsChain (· ≤ ·))
    (rising : selection.IsChain (· < ·)) (resolved : ∀ gnum ∈ selection, ∃ r < ranks, owner gnum index = some r) :
    (List.range ranks).flatMap (share index selection) = selection := by
  let key (gnum : UInt64) : Nat := (owner gnum index).getD 0
  have same : ∀ r, share index selection r = selection.filter fun gnum => key gnum = r := by
    intro r
    apply List.filter_congr
    intro gnum member
    obtain ⟨s, _, found⟩ := resolved gnum member
    simp [key, found]
  have ordered : selection.Pairwise fun a b => key a ≤ key b := by
    refine List.Pairwise.imp_of_mem (fun {a b} memberA memberB less => ?_) (List.isChain_iff_pairwise.mp rising)
    obtain ⟨r, _, foundA⟩ := resolved a memberA
    obtain ⟨s, _, foundB⟩ := resolved b memberB
    have le := within_mono index sorted r s a b less ((owner_iff index sorted r a).mp foundA) ((owner_iff index sorted s b).mp foundB)
    simpa [key, foundA, foundB] using le
  rw [List.flatMap_congr fun r _ => same r, flat_map_keys key selection ordered ranks, List.filter_eq_self]
  intro gnum member
  obtain ⟨r, bound, found⟩ := resolved gnum member
  simpa [key, found] using bound

theorem owners_serve_their_shares (n : Nat) (index : List UInt64) (entries : index.length = n + 1)
    (sorted : index.IsChain (· ≤ ·)) (gnum : UInt64) :
    (∀ (r : Nat) (rank : r < n),
      (owner gnum index = some r ↔ index[r] < gnum ∧ gnum ≤ index[r + 1]) ∧
      ∀ (requester : Nat) (m : Mesh), index[r + 1].toNat - index[r].toNat ≤ m.faceCount →
        (owner gnum index = some r ↔ ∃ faces, serve r requester [gnum] index m = .ok faces) ∧
        ∀ faces, serve r requester [gnum] index m = .ok faces →
          ∃ face, faces = [face] ∧ index[r].toNat + 1 + face = gnum.toNat) ∧
    (∀ r, owner gnum index = some r → r < n) ∧
    (∀ (r s : Nat) (rank : r < n) (other : s < n), index[r] < gnum ∧ gnum ≤ index[r + 1] →
      index[s] < gnum ∧ gnum ≤ index[s + 1] → r = s) ∧
    (owner gnum index = none ↔ gnum ≤ index[0] ∨ index[n] < gnum) := by
  have within (r : Nat) (rank : r < n) : Within index r gnum ↔ index[r] < gnum ∧ gnum ≤ index[r + 1] := by
    simp [Within, show r < index.length by omega, show r + 1 < index.length by omega]
  refine ⟨?held, ?ranks, ?once, ?nobody⟩
  case held =>
    intro r rank
    have owned := (owner_iff index sorted r gnum).trans (within r rank)
    refine ⟨owned, fun requester m full => ?_⟩
    have served := serve_one_iff r requester gnum index m index[r] index[r + 1] (by simp) (by simp) full
    simp only [served, owned, exists_and_left, exists_eq, and_true, true_and]
    intro faces ok
    exact ⟨_, ok.2, local_face_exact _ _ ok.1.1⟩
  case ranks => exact owner_lt index n entries sorted gnum
  case once =>
    intro r s rank other first second
    exact within_unique index sorted r s gnum ((within r rank).mpr first) ((within s other).mpr second)
  case nobody =>
    have head : index.head? = some index[0] := by simp [List.head?_eq_getElem?]
    have ends : index.getLast? = some index[n] := by simp [List.getLast?_eq_getElem?, entries]
    exact owner_none_iff index gnum _ _ head ends

def crestIndex : List UInt64 := [0xFFFFFFFFFFFFFFFD, 0xFFFFFFFFFFFFFFFD, 0xFFFFFFFFFFFFFFFF]

def crest : Mesh := { Mesh.empty "crest" with faceGnums := [8, 9], faceIndex := [0, 0, 0] }

theorem crest_served_to_the_top :
    crestIndex.IsChain (· ≤ ·) ∧ owner 0xFFFFFFFFFFFFFFFF crestIndex = some 1 ∧
    serve 1 0 [0xFFFFFFFFFFFFFFFF] crestIndex crest = .ok [1] ∧ owner 0xFFFFFFFFFFFFFFFD crestIndex = none := by
  have sorted : crestIndex.IsChain (· ≤ ·) := by decide
  obtain ⟨held, _⟩ := owners_serve_their_shares 2 crestIndex rfl sorted 0xFFFFFFFFFFFFFFFF
  obtain ⟨_, _, _, nobody⟩ := owners_serve_their_shares 2 crestIndex rfl sorted 0xFFFFFFFFFFFFFFFD
  obtain ⟨owned, served⟩ := held 1 (by decide)
  have found := owned.mpr (by decide)
  obtain ⟨accepts, places⟩ := served 0 crest (by decide)
  obtain ⟨faces, ok⟩ := accepts.mp found
  obtain ⟨face, rfl, place⟩ := places faces ok
  obtain rfl : face = 1 := by
    have low : crestIndex[1].toNat = 0xFFFFFFFFFFFFFFFD := rfl
    have top : (0xFFFFFFFFFFFFFFFF : UInt64).toNat = 0xFFFFFFFFFFFFFFFF := rfl
    omega
  exact ⟨sorted, found, ok, nobody.mpr (by decide)⟩

end Seam.Selection
