import Mathlib.Data.List.Nodup
import Mathlib.Data.List.Perm.Subperm
import Seam.Proofs.EdgeSet.Numbers

set_option autoImplicit false

namespace Seam.EdgeSet

variable (s : EdgeSet)

structure Counted : Prop where
  far : s.neighbours.length = s.edgeCount
  ids : s.edgeIds.length = s.edgeCount
  last : s.vertexIndex.getLastD 0 = s.edgeCount

def StoredAt (v far e p : Nat) : Prop :=
  Ragged.Within s.vertexIndex v p ∧ s.neighbours[p]? = some far ∧ s.edgeIds[p]? = some e

theorem mem_around (v far e : Nat) (couples : List (Nat × Nat)) (ok : s.around v = .ok couples) :
    (far, e) ∈ couples ↔ ∃ p, s.StoredAt v far e p := by
  unfold around at ok
  split at ok
  · obtain ⟨fars, first, ok⟩ := bind_ok _ _ _ ok
    obtain ⟨ids, second, ok⟩ := bind_ok _ _ _ ok
    obtain rfl := Except.ok.inj ok
    obtain ⟨start, stop, atStart, atStop, _, _, rfl⟩ := (Ragged.row_ok_iff _ _ _ _).mp first
    obtain ⟨low, high, atLow, atHigh, _, _, rfl⟩ := (Ragged.row_ok_iff _ _ _ _).mp second
    obtain rfl := Option.some.inj (atStart.symm.trans atLow)
    obtain rfl := Option.some.inj (atStop.symm.trans atHigh)
    rw [List.zip_eq_zipWith, ← List.drop_zipWith, ← List.take_zipWith, ← List.zip_eq_zipWith, Ragged.mem_span_iff]
    simp only [List.getElem?_zip_eq_some]
    constructor
    · rintro ⟨p, behind, before, stored⟩
      exact ⟨p, ⟨start, stop, atStart, atStop, behind, before⟩, stored⟩
    · rintro ⟨p, ⟨low, high, atLow, atHigh, behind, before⟩, stored⟩
      obtain rfl := Option.some.inj (atStart.symm.trans atLow)
      obtain rfl := Option.some.inj (atStop.symm.trans atHigh)
      exact ⟨p, behind, before, stored⟩
  · rename_i beyond
    obtain rfl := Except.ok.inj ok
    refine iff_of_false List.not_mem_nil ?_
    rintro ⟨p, ⟨_, _, _, atStop, _⟩, _⟩
    have bound := (List.getElem?_eq_some_iff.mp atStop).1
    exact beyond (Nat.lt_sub_of_add_lt bound)

structure Holds (e a b : Nat) : Prop where
  first : a < s.vertexCount
  second : b < s.vertexCount
  distinct : a ≠ b
  stored : ∃ couples, s.around a = .ok couples ∧ (b, e) ∈ couples

theorem check_edge_ok_iff (e a b : Nat) : s.checkEdge e a b = .ok () ↔ s.Holds e a b := by
  unfold checkEdge
  split
  · rename_i unfit
    refine iff_of_false nofun fun holds => ?_
    rcases unfit with outside | outside | same
    · exact absurd holds.first (Nat.not_lt.mpr outside)
    · exact absurd holds.second (Nat.not_lt.mpr outside)
    · exact holds.distinct same
  · rename_i fit
    simp only [not_or, Nat.not_le] at fit
    cases found : s.around a with
    | error e =>
        refine iff_of_false nofun fun holds => ?_
        obtain ⟨_, read, _⟩ := holds.stored
        cases found.symm.trans read
    | ok couples =>
        by_cases stored : (b, e) ∈ couples
        · have holds : s.Holds e a b := ⟨fit.1, fit.2.1, fit.2.2, couples, found, stored⟩
          simp [holds, stored, bind, Except.bind, pure, Except.pure]
        · refine iff_of_false (by simp [stored, refuse, bind, Except.bind]) fun holds => ?_
          obtain ⟨others, read, member⟩ := holds.stored
          obtain rfl := Except.ok.inj (found.symm.trans read)
          exact stored member

theorem around_exists (counted : s.Counted) (v : Nat) (enclosed : v < s.vertexCount → Ragged.Enclosed s.vertexIndex s.edgeCount v) :
    ∃ couples, s.around v = .ok couples := by
  unfold around
  split
  · rename_i covered
    obtain ⟨far, first⟩ := Ragged.row_enclosed s.vertexIndex s.neighbours v (counted.far ▸ enclosed covered)
    obtain ⟨ids, second⟩ := Ragged.row_enclosed s.vertexIndex s.edgeIds v (counted.ids ▸ enclosed covered)
    exact ⟨far.zip ids, by simp only [first, second, bind, Except.bind, pure, Except.pure]⟩
  · exact ⟨[], rfl⟩

theorem around_guarded_iff (counted : s.Counted) (v : Nat) :
    Guarded (s.around v) ↔ (v < s.vertexCount → Ragged.Enclosed s.vertexIndex s.edgeCount v) := by
  constructor
  · intro guarded covered
    rw [around, if_pos covered] at guarded
    rw [← counted.far, ← Ragged.row_guarded_iff]
    exact guarded_first _ _ guarded
  · intro enclosed
    obtain ⟨couples, read⟩ := around_exists s counted v enclosed
    exact read ▸ guarded_ok couples

-- An edge that the check cannot look up, since the row of its first end does not lie within the lists.
structure Strays (a b : Nat) : Prop where
  first : a < s.vertexCount
  second : b < s.vertexCount
  distinct : a ≠ b
  astray : ¬ Ragged.Enclosed s.vertexIndex s.edgeCount a

theorem check_edge_guarded_iff (counted : s.Counted) (e a b : Nat) : Guarded (s.checkEdge e a b) ↔ ¬ s.Strays a b := by
  have around := around_guarded_iff s counted a
  unfold checkEdge
  split
  · rename_i unfit
    refine iff_of_true (guarded_refuse _) fun strays => ?_
    rcases unfit with outside | outside | same
    · exact absurd strays.first (Nat.not_lt.mpr outside)
    · exact absurd strays.second (Nat.not_lt.mpr outside)
    · exact strays.distinct same
  · rename_i fit
    simp only [not_or, Nat.not_le] at fit
    constructor
    · intro guarded strays
      exact strays.astray (around.mp (guarded_first _ _ guarded) fit.1)
    · intro kept
      have enclosed : Ragged.Enclosed s.vertexIndex s.edgeCount a := by
        by_contra astray
        exact kept ⟨fit.1, fit.2.1, fit.2.2, astray⟩
      refine guarded_bind _ _ (around.mpr fun _ => enclosed) fun couples _ => ?_
      split
      · exact guarded_ok _
      · exact guarded_refuse _

theorem number_guarded_iff : (∀ a b, Guarded (s.number a b)) ↔ ∀ v, Guarded (s.around v) := by
  constructor
  · intro guarded v
    exact guarded_first _ _ (guarded v v)
  · intro guarded a b
    refine guarded_bind _ _ (guarded a) fun first _ => ?_
    split
    · exact guarded_ok _
    refine guarded_bind _ _ (guarded b) fun second _ => ?_
    split
    · exact guarded_ok _
    · exact guarded_refuse _

theorem check_counted (counted : s.Counted) : s.check = s.ends.zipIdx.forM fun item => s.checkEdge item.2 item.1.1 item.1.2 := by
  rw [check, if_neg (not_or.mpr ⟨not_not.mpr counted.far, not_not.mpr counted.ids⟩),
    if_neg (not_not.mpr (counted.last.trans counted.far.symm))]

theorem check_miscounted (miscounted : ¬ s.Counted) : ∃ cause, s.check = refuse cause := by
  unfold check
  split
  · exact ⟨_, rfl⟩
  rename_i even
  split
  · exact ⟨_, rfl⟩
  rename_i last
  simp only [not_or, not_not] at even last
  exact absurd ⟨even.1, even.2, last.trans even.1⟩ miscounted

theorem check_ok_iff : s.check = .ok () ↔ s.Counted ∧ ∀ e a b, s.ends[e]? = some (a, b) → s.Holds e a b := by
  by_cases counted : s.Counted
  · rw [check_counted s counted, for_m_ok_iff]
    simp only [check_edge_ok_iff, counted, true_and]
    constructor
    · exact fun each e a b edge => each ((a, b), e) (List.mem_zipIdx_iff_getElem?.mpr edge)
    · exact fun each item member => each item.2 item.1.1 item.1.2 (List.mem_zipIdx_iff_getElem?.mp member)
  · obtain ⟨cause, refused⟩ := check_miscounted s counted
    rw [refused]
    exact iff_of_false nofun fun holds => counted holds.1

theorem check_astray_iff : s.check = .error .outOfBounds ↔ s.Counted ∧ ∃ e a b, s.ends[e]? = some (a, b) ∧ s.Strays a b ∧
    ∀ d < e, ∀ c far, s.ends[d]? = some (c, far) → s.Holds d c far := by
  by_cases counted : s.Counted
  · have strays (e a b : Nat) : s.checkEdge e a b = .error .outOfBounds ↔ s.Strays a b := by
      rw [← not_iff_not]
      exact check_edge_guarded_iff s counted e a b
    rw [check_counted s counted, for_m_error_iff]
    simp only [check_edge_ok_iff, strays, counted, true_and, List.getElem?_zipIdx, Option.map_eq_some_iff, Nat.zero_add]
    constructor
    · rintro ⟨e, _, ⟨⟨a, b⟩, edge, rfl⟩, astray, before⟩
      exact ⟨e, a, b, edge, astray, fun d earlier c far other => before d earlier _ ⟨(c, far), other, rfl⟩⟩
    · rintro ⟨e, a, b, edge, astray, before⟩
      refine ⟨e, _, ⟨(a, b), edge, rfl⟩, astray, ?_⟩
      rintro d earlier _ ⟨⟨c, far⟩, other, rfl⟩
      exact before d earlier c far other
  · obtain ⟨cause, refused⟩ := check_miscounted s counted
    rw [refused]
    exact iff_of_false nofun fun holds => counted holds.1

theorem all_around_guarded_iff (counted : s.Counted) : (∀ v, Guarded (s.around v)) ↔ s.vertexIndex.IsChain (· ≤ ·) := by
  rw [← Ragged.all_enclosed_iff s.vertexIndex s.edgeCount counted.last]
  exact forall_congr' (around_guarded_iff s counted)

-- An index that never falls keeps all look-ups within the lists, those of the check included. The check does not ask for it, so it
-- goes out of bounds itself, or accepts edges that are not safe to look up.
theorem edge_lookups_bounded :
    (s.vertexIndex.IsChain (· ≤ ·) → Guarded s.check) ∧
    (s.check = .error .outOfBounds ↔ s.Counted ∧ ∃ e a b, s.ends[e]? = some (a, b) ∧ s.Strays a b ∧
      ∀ d < e, ∀ c far, s.ends[d]? = some (c, far) → s.Holds d c far) ∧
    (s.check = .ok () →
      ((∀ v, Guarded (s.around v)) ↔ s.vertexIndex.IsChain (· ≤ ·)) ∧
      ((∀ a b, Guarded (s.number a b)) ↔ s.vertexIndex.IsChain (· ≤ ·))) := by
  refine ⟨fun chain => ?_, check_astray_iff s, fun accepted => ?_⟩
  · intro astray
    obtain ⟨counted, _, a, _, _, strays, _⟩ := (check_astray_iff s).mp astray
    have enclosed := (Ragged.all_enclosed_iff s.vertexIndex s.edgeCount counted.last).mpr chain
    exact strays.astray (enclosed a strays.first)
  · have counted := ((check_ok_iff s).mp accepted).1
    rw [number_guarded_iff]
    exact ⟨all_around_guarded_iff s counted, all_around_guarded_iff s counted⟩

def overrun : EdgeSet := ⟨1, [(0, 1)], [0, 5, 1], [1], [0]⟩

def overhang : EdgeSet := ⟨1, [(0, 2)], [0, 1, 5, 1], [2], [0]⟩

def lacing : EdgeSet := ⟨2, [(0, 1), (2, 0)], [0, 1, 1, 2], [1, 0], [0, 1]⟩

theorem lacing_bounded : lacing.check = .ok () ∧ lacing.vertexIndex.IsChain (· ≤ ·) ∧ Guarded lacing.check ∧
    (∀ v, Guarded (lacing.around v)) ∧ (∀ a b, Guarded (lacing.number a b)) ∧
    overhang.check = .ok () ∧ ¬ ∀ v, Guarded (overhang.around v) := by
  have accepted : lacing.check = .ok () := by decide
  have rising : lacing.vertexIndex.IsChain (· ≤ ·) := by decide
  have falling : ¬ overhang.vertexIndex.IsChain (· ≤ ·) := by decide
  obtain ⟨guarded, _, safe⟩ := edge_lookups_bounded lacing
  obtain ⟨around, number⟩ := safe accepted
  obtain ⟨_, _, loose⟩ := edge_lookups_bounded overhang
  have accepts : overhang.check = .ok () := by decide
  exact ⟨accepted, rising, guarded rising, around.mpr rising, number.mpr rising, accepts, fun all => falling ((loose accepts).1.mp all)⟩

theorem overrun_out_of_bounds : overrun.check = .error .outOfBounds ∧
    overhang.check = .ok () ∧ overhang.around 1 = .error .outOfBounds ∧ overhang.number 1 0 = .error .outOfBounds := by
  decide

theorem edge_ids_perm (accepted : s.check = .ok ()) : s.edgeIds.Perm (List.range s.edgeCount) := by
  obtain ⟨counted, holds⟩ := (check_ok_iff s).mp accepted
  have listed : List.range s.edgeCount ⊆ s.edgeIds := by
    intro e member
    have bound : e < s.ends.length := List.mem_range.mp member
    obtain ⟨couples, read, couple⟩ := (holds e s.ends[e].1 s.ends[e].2 (List.getElem?_eq_getElem bound)).stored
    obtain ⟨p, _, _, id⟩ := (mem_around s _ _ _ couples read).mp couple
    exact List.mem_of_getElem? id
  refine (List.Subperm.perm_of_length_le (List.nodup_range.subperm listed) ?_).symm
  rw [List.length_range, counted.ids]

section Numbering

variable (a b : Nat) (first second : List (Nat × Nat)) (underFirst : s.around a = .ok first) (underSecond : s.around b = .ok second)

include underFirst underSecond

theorem number_some (known : (∃ e, (b, e) ∈ first) ∨ ∃ e, (a, e) ∈ second) : ∃ number, s.number a b = .ok number := by
  simp only [number, underFirst, underSecond, bind, Except.bind]
  cases along : first.find? fun couple => couple.1 == b with
  | some couple => exact ⟨_, rfl⟩
  | none =>
      have missed (e : Nat) : (b, e) ∉ first := fun member => absurd (List.find?_eq_none.mp along (b, e) member) (by simp)
      cases against : second.find? fun couple => couple.1 == a with
      | some couple => exact ⟨_, rfl⟩
      | none =>
          obtain ⟨e, member⟩ | ⟨e, member⟩ := known
          · exact absurd member (missed e)
          · exact absurd (List.find?_eq_none.mp against (a, e) member) (by simp)

theorem number_leads (along : ∀ e, (b, e) ∈ first → s.ends[e]? = some (a, b)) (against : ∀ e, (a, e) ∈ second → s.ends[e]? = some (b, a))
    (narrow : 2 * s.edgeCount < UInt64.size) (number : Int) (ok : s.number a b = .ok number) : Leads s.ends number a b := by
  have small (e : Nat) (ends : Nat × Nat) (edge : s.ends[e]? = some ends) : 2 * (e + 1) < UInt64.size := by
    have bound := (List.getElem?_eq_some_iff.mp edge).1
    rw [edgeCount] at narrow
    omega
  simp only [EdgeSet.number, underFirst, underSecond, bind, Except.bind] at ok
  split at ok
  · rename_i far e found
    obtain rfl := Except.ok.inj ok
    obtain rfl : far = b := by simpa using List.find?_some found
    have edge := along e (List.mem_of_find?_eq_some found)
    exact ⟨e, .inl ⟨edge, signed_number_eq e (small e _ edge)⟩⟩
  split at ok
  · rename_i far e found
    obtain rfl := Except.ok.inj ok
    obtain rfl : far = a := by simpa using List.find?_some found
    have edge := against e (List.mem_of_find?_eq_some found)
    exact ⟨e, .inr ⟨edge, negated_number_eq e (small e _ edge)⟩⟩
  · cases ok

end Numbering

section Accepted

variable (accepted : s.check = .ok ()) (chain : s.vertexIndex.IsChain (· ≤ ·))

include accepted chain

theorem stored_edge (v far e p : Nat) (stored : s.StoredAt v far e p) : s.ends[e]? = some (v, far) := by
  obtain ⟨here, farHere, idHere⟩ := stored
  have perm := edge_ids_perm s accepted
  have bound : e < s.ends.length := List.mem_range.mp (perm.mem_iff.mp (List.mem_of_getElem? idHere))
  have edge : s.ends[e]? = some (s.ends[e].1, s.ends[e].2) := List.getElem?_eq_getElem bound
  obtain ⟨couples, read, couple⟩ := (((check_ok_iff s).mp accepted).2 e _ _ edge).stored
  obtain ⟨q, there, farThere, idThere⟩ := (mem_around s _ _ _ couples read).mp couple
  have inside := (List.getElem?_eq_some_iff.mp idHere).1
  obtain rfl := (List.getElem?_inj inside (perm.nodup_iff.mpr List.nodup_range)).mp (idHere.trans idThere.symm)
  obtain rfl := Ragged.within_unique s.vertexIndex chain v _ p here there
  obtain rfl := Option.some.inj (farHere.symm.trans farThere)
  exact edge

theorem around_accepted (v : Nat) :
    ∃ couples, s.around v = .ok couples ∧ ∀ far e, (far, e) ∈ couples ↔ s.ends[e]? = some (v, far) := by
  obtain ⟨counted, holds⟩ := (check_ok_iff s).mp accepted
  have enclosed := (Ragged.all_enclosed_iff s.vertexIndex s.edgeCount counted.last).mpr chain
  obtain ⟨couples, read⟩ := around_exists s counted v (enclosed v)
  refine ⟨couples, read, fun far e => ⟨fun member => ?_, fun edge => ?_⟩⟩
  · obtain ⟨p, stored⟩ := (mem_around s v far e couples read).mp member
    exact stored_edge s accepted chain v far e p stored
  · obtain ⟨others, again, member⟩ := (holds e v far edge).stored
    obtain rfl := Except.ok.inj (read.symm.trans again)
    exact member

theorem accepted_edges_told :
    s.edgeIds.Perm (List.range s.edgeCount) ∧
    (∀ v, ∃ couples, s.around v = .ok couples ∧ ∀ far e, (far, e) ∈ couples ↔ s.ends[e]? = some (v, far)) ∧
    (2 * s.edgeCount < UInt64.size → ∀ a b,
      ((∃ number, s.number a b = .ok number) ↔ (a, b) ∈ s.ends ∨ (b, a) ∈ s.ends) ∧
      ∀ number, s.number a b = .ok number → s.oriented number = .ok (a, b)) := by
  have around := around_accepted s accepted chain
  refine ⟨edge_ids_perm s accepted, around, fun narrow a b => ?_⟩
  obtain ⟨first, underFirst, edgesFirst⟩ := around a
  obtain ⟨second, underSecond, edgesSecond⟩ := around b
  have leads := number_leads s a b first second underFirst underSecond (fun e => (edgesFirst b e).mp) (fun e => (edgesSecond a e).mp) narrow
  refine ⟨⟨fun found => ?_, fun joined => ?_⟩, fun number ok => (oriented_ok_iff s number a b).mpr (leads number ok)⟩
  · obtain ⟨number, ok⟩ := found
    exact (leads_some_iff s.ends a b).mp ⟨number, leads number ok⟩
  · refine number_some s a b first second underFirst underSecond ?_
    simpa only [edgesFirst, edgesSecond, ← List.mem_iff_getElem?] using joined

end Accepted

def laces : EdgeSet := ⟨3, [(1, 2), (3, 1), (2, 1)], [0, 0, 1, 2, 3], [2, 1, 1], [0, 2, 1]⟩

theorem laces_told : laces.check = .ok () ∧ laces.vertexIndex.IsChain (· ≤ ·) ∧ laces.edgeIds.Perm [0, 1, 2] ∧
    (∃ couples, laces.around 2 = .ok couples ∧ (1, 2) ∈ couples) ∧ laces.number 1 3 = .ok (-2) ∧ laces.oriented (-2) = .ok (1, 3) := by
  have accepted : laces.check = .ok () := by decide
  have rising : laces.vertexIndex.IsChain (· ≤ ·) := by decide
  obtain ⟨perm, stored, numbered⟩ := accepted_edges_told laces accepted rising
  obtain ⟨couples, read, told⟩ := stored 2
  have number : laces.number 1 3 = .ok (-2) := by decide
  exact ⟨accepted, rising, perm, ⟨couples, read, (told 1 2).mpr rfl⟩, number, (numbered (by decide) 1 3).2 (-2) number⟩

end Seam.EdgeSet
