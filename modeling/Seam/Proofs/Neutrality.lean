import Seam.Proofs.RecordOrder

set_option autoImplicit false

namespace Seam

theorem Binary64.magnitude_mod (a : Binary64) : a.magnitude.toNat = a.bits.toNat % 0x8000000000000000 := by
  rw [magnitude, UInt64.toNat_and]
  exact Nat.and_two_pow_sub_one_eq_mod a.bits.toNat 63

theorem Binary64.past_infinities (a : Binary64) :
    (infinity.rank < a.rank ↔ a.isNaN = true ∧ a.negative = false) ∧
    (a.rank < negInfinity.rank ↔ a.isNaN = true ∧ a.negative = true) := by
  have low : negInfinity.rank = 0x000FFFFFFFFFFFFF := rfl
  have high : infinity.rank = 0x8000000000000000 + 0x7FF0000000000000 := rfl
  have top : (0x7FF0000000000000 : UInt64).toNat = 0x7FF0000000000000 := rfl
  have middle : (0x8000000000000000 : UInt64).toNat = 0x8000000000000000 := rfl
  have bound := a.bits.toNat_lt
  simp only [isNaN, decide_eq_true_eq, UInt64.lt_iff_toNat_lt, magnitude_mod, top]
  rw [low, high]
  simp only [rank, negative, decide_eq_true_eq, decide_eq_false_iff_not, UInt64.le_iff_toNat_le, middle]
  split <;> omega

theorem Binary64.rank_eq_iff (a b : Binary64) : a.rank = b.rank ↔ a = b := ⟨rank_injective a b, congrArg rank⟩

namespace Reducer

-- The identity is not neutral for every record: those that it overtakes are lost.
def Overtakes (r : Reducer) (v : Vertex) : Prop := r.combine r.identity v ≠ v

instance (r : Reducer) (v : Vertex) : Decidable (r.Overtakes v) := inferInstanceAs (Decidable (_ ≠ _))

theorem overtakes_iff (r : Reducer) (v : Vertex) : r.Overtakes v ↔ r.choose r.identity.key v.key ≠ v.key := by
  rw [Overtakes, ← key_combine]
  exact not_congr ⟨congrArg _, Vertex.key_injective _ _⟩

def Past (r : Reducer) (a : Binary64) : Prop := a.isNaN = true ∧ a.negative = r.identity.tolerance.negative

instance (r : Reducer) (a : Binary64) : Decidable (r.Past a) := inferInstanceAs (Decidable (_ ∧ _))

def Outlying (r : Reducer) (v : Vertex) : Prop :=
  r.Past v.tolerance ∨ v.tolerance = r.identity.tolerance ∧ v.gnum = r.identity.gnum ∧
    (r.Past v.coord.x ∨ v.coord.x = r.identity.coord.x ∧
      (r.Past v.coord.y ∨ v.coord.y = r.identity.coord.y ∧ r.Past v.coord.z))

instance (r : Reducer) (v : Vertex) : Decidable (r.Outlying v) := inferInstanceAs (Decidable (_ ∨ _))

theorem overtakes_iff_outlying (r : Reducer) (v : Vertex) : r.Overtakes v ↔ r.Outlying v := by
  have bound := v.gnum.toNat_lt
  rw [overtakes_iff]
  cases r with
  | least =>
      have past (a : Binary64) : Binary64.infinity.rank < a.rank ↔ Past .least a := (Binary64.past_infinities a).1
      have number : ¬ (0xFFFFFFFFFFFFFFFF : UInt64).toNat < v.gnum.toNat := by
        have top : (0xFFFFFFFFFFFFFFFF : UInt64).toNat = 0xFFFFFFFFFFFFFFFF := rfl
        omega
      rw [choose, Ne, min_eq_right_iff, not_le]
      simp only [Vertex.key, Prod.Lex.toLex_lt_toLex, identity, past, number, Binary64.rank_eq_iff, UInt64.toNat_inj, false_or,
        Outlying, eq_comm]
  | greatest =>
      have past (a : Binary64) : a.rank < Binary64.negInfinity.rank ↔ Past .greatest a := (Binary64.past_infinities a).2
      have number : ¬ v.gnum.toNat < (0 : UInt64).toNat := Nat.not_lt_zero _
      rw [choose, Ne, max_eq_right_iff, not_le]
      simp only [Vertex.key, Prod.Lex.toLex_lt_toLex, identity, past, number, Binary64.rank_eq_iff, UInt64.toNat_inj, false_or,
        Outlying]

-- Only a NaN in the tolerance makes a record fall behind the identity, or the number of the identity itself.
theorem not_overtakes (r : Reducer) (v : Vertex) (real : v.tolerance.isNaN = false) (other : v.gnum ≠ r.identity.gnum) :
    ¬ r.Overtakes v := by
  rw [overtakes_iff_outlying]
  intro outlying
  cases outlying with
  | inl past => simp [Past, real] at past
  | inr same => exact other same.2.1

theorem identity_combine (r : Reducer) (v : Vertex) : r.combine r.identity v = if r.Outlying v then r.identity else v := by
  by_cases outlying : r.Outlying v
  · rw [if_pos outlying]
    have lost : r.combine r.identity v ≠ v := (overtakes_iff_outlying r v).mpr outlying
    exact (combine_either r r.identity v).resolve_right lost
  · rw [if_neg outlying]
    have neutral := (not_congr (overtakes_iff_outlying r v)).mpr outlying
    rwa [Overtakes, not_not] at neutral

theorem reduce_held (r : Reducer) (records : List Vertex) :
    r.reduce records ∈ records ∨ r.reduce records = r.identity ∧ ∀ v ∈ records, r.Overtakes v := by
  rcases List.mem_cons.mp (fold_held r r.identity records) with identity | held
  · have same : r.reduce records = r.identity := identity
    by_cases all : ∀ v ∈ records, r.Overtakes v
    · exact .inr ⟨same, all⟩
    · simp only [not_forall, Overtakes, not_not] at all
      obtain ⟨v, member, neutral⟩ := all
      have absorbed := reduce_absorbs r records v member
      rw [same, neutral] at absorbed
      exact .inl (by rwa [same, ← absorbed])
  · exact .inl held

def Keeps (r : Reducer) (a b : Vertex) : Prop :=
  match r with
  | .least => a.compare b ≠ .gt
  | .greatest => a.compare b ≠ .lt

theorem keeps_of_combine (r : Reducer) (a b : Vertex) (kept : r.combine a b = a) : r.Keeps a b := by
  have self : b.compare b = .eq := (Vertex.compare_eq_iff b b).mpr rfl
  cases r
  all_goals
    intro behind
    rw [combine, if_pos behind] at kept
    rw [← kept, self] at behind
    cases behind

structure Extreme (r : Reducer) (records : List Vertex) (v : Vertex) : Prop where
  held : v ∈ records
  kept : ∀ w ∈ records, r.Keeps v w

theorem reduce_extreme (r : Reducer) (records : List Vertex) (some : ∃ v ∈ records, ¬ r.Outlying v) :
    r.Extreme records (r.reduce records) := by
  refine ⟨?held, fun w member => keeps_of_combine r _ w (reduce_absorbs r records w member)⟩
  obtain ⟨v, member, inside⟩ := some
  rcases reduce_held r records with held | ⟨_, overtaken⟩
  · exact held
  · exact absurd ((overtakes_iff_outlying r v).mp (overtaken v member)) inside

theorem reduce_outlying (r : Reducer) (records : List Vertex) (all : ∀ v ∈ records, r.Outlying v) :
    r.reduce records = r.identity := by
  induction records with
  | nil => rfl
  | cons v records ih =>
      rw [reduce, List.foldl_cons, identity_combine, if_pos (all v (by simp))]
      exact ih fun w member => all w (by simp [member])

theorem identity_neutral_but_outlying (r : Reducer) :
    (∀ v, r.combine r.identity v = if r.Outlying v then r.identity else v) ∧
    (∀ v, r.combine v r.identity = if r.Outlying v then r.identity else v) ∧
    (∀ records, (∃ v ∈ records, ¬ r.Outlying v) → r.Extreme records (r.reduce records)) ∧
    ∀ records, (∀ v ∈ records, r.Outlying v) → r.reduce records = r.identity := by
  refine ⟨identity_combine r, fun v => ?_, reduce_extreme r, reduce_outlying r⟩
  rw [combine_comm, identity_combine]

theorem sevenths_but_outlying :
    (Reducer.least.Extreme [seventh 0x7FF8000000000000, seventh 0xFFF8000000000000]
      (Reducer.least.reduce [seventh 0x7FF8000000000000, seventh 0xFFF8000000000000])) ∧
    Reducer.greatest.reduce [seventh 0xFFF8000000000000] = Reducer.greatest.identity := by
  obtain ⟨_, _, picks, _⟩ := identity_neutral_but_outlying .least
  obtain ⟨_, _, _, falls⟩ := identity_neutral_but_outlying .greatest
  exact ⟨picks _ (by decide), falls _ (by decide)⟩

theorem identity_replaces_seventh :
    Reducer.least.combine Reducer.least.identity (seventh 0x7FF8000000000000) ≠ seventh 0x7FF8000000000000 ∧
    Reducer.least.combine (seventh 0x7FF8000000000000) Reducer.least.identity ≠ seventh 0x7FF8000000000000 ∧
    Reducer.least.reduce [seventh 0x7FF8000000000000] ∉ [seventh 0x7FF8000000000000] := by decide

end Reducer

end Seam
