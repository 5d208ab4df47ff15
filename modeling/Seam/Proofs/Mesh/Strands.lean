import Mathlib.Data.List.Pairwise
import Seam.Proofs.Mesh.Chains

set_option autoImplicit false

namespace Seam.Mesh

-- What equals the image ahead is left out everywhere, what equals the image behind only where it follows it.
def strand (first last : Nat) (planned : List Nat) : List Nat :=
  (first :: (planned.filter (· ≠ last) ++ [last])).foldl extend []

-- No copy of the first image is planned behind, and none of the last one before, a vertex that is neither.
def Clear (first last : Nat) (planned : List Nat) : Prop :=
  planned.Pairwise fun v w => (v ≠ first → v ≠ last → w ≠ first) ∧ (w ≠ first → w ≠ last → v ≠ last)

instance (first last : Nat) (planned : List Nat) : Decidable (Clear first last planned) :=
  inferInstanceAs (Decidable (List.Pairwise _ _))

section Returning

theorem strand_ends (first last : Nat) (planned : List Nat) (apart : first ≠ last) :
    strand first last planned = (first :: planned.filter (· ≠ last)).foldl extend [] ++ [last] := by
  have fresh : ((first :: planned.filter (· ≠ last)).foldl extend []).getLast? ≠ some last := by
    intro ends
    have listed := (mem_laid _ _).mp (List.mem_of_getLast? ends)
    simp [apart.symm] at listed
  rw [strand, ← List.cons_append, List.foldl_concat, extend, if_neg fresh]

theorem comes_back_iff (first : Nat) (planned : List Nat) :
    first ∉ ((first :: planned).foldl extend []).tail ↔ planned.Pairwise fun v w => v ≠ first → w ≠ first := by
  induction planned with
  | nil => simp [extend]
  | cons v planned ih =>
      rw [List.pairwise_cons, extend_cons]
      by_cases same : v = first
      · subst same
        rw [List.head?_cons, if_pos rfl, ih]
        simp
      · have other : ¬ (v :: planned).head? = some first := by simpa using same
        rw [if_neg other, List.tail_cons, mem_laid, List.mem_cons]
        constructor
        · intro absent
          have away : ∀ w ∈ planned, w ≠ first := fun w member here => absent (.inr (here ▸ member))
          exact ⟨fun w member _ => away w member, List.pairwise_of_forall_mem_list fun _ _ w member _ => away w member⟩
        · intro apart member
          exact member.elim (Ne.symm same) fun later => apart.1 first later same rfl

theorem front_repeats (first : Nat) (planned : List Nat) (front : planned.Pairwise fun v w => v ≠ first → w ≠ first) :
    (first :: planned).foldl extend [] = (first :: planned.filter (· ≠ first)).foldl extend [] := by
  induction planned with
  | nil => rfl
  | cons v planned ih =>
      obtain ⟨away, rest⟩ := List.pairwise_cons.mp front
      by_cases same : v = first
      · subst same
        rw [extend_cons, List.head?_cons, if_pos rfl, List.filter_cons_of_neg (by simp)]
        exact ih rest
      · have kept : (v :: planned).filter (· ≠ first) = v :: planned :=
          List.filter_eq_self.mpr (by simpa [same] using fun w member => away w member same)
        rw [kept]

end Returning

section Turning

variable (first last : Nat) (planned : List Nat)

def inner : List Nat := (planned.filter (· ≠ last)).filter (· ≠ first)

theorem inner_turned : inner last first planned.reverse = (inner first last planned).reverse := by
  rw [inner, inner, List.filter_reverse, List.filter_reverse, List.filter_comm]

theorem strand_inner (front : (planned.filter (· ≠ last)).Pairwise fun v w => v ≠ first → w ≠ first) :
    strand first last planned = (first :: (inner first last planned ++ [last])).foldl extend [] := by
  rw [strand, ← List.cons_append, ← List.cons_append, List.foldl_concat, List.foldl_concat, front_repeats first _ front]
  rfl

theorem strand_turned (front : (planned.filter (· ≠ last)).Pairwise fun v w => v ≠ first → w ≠ first)
    (back : (planned.reverse.filter (· ≠ first)).Pairwise fun v w => v ≠ last → w ≠ last) :
    strand first last planned = (strand last first planned.reverse).reverse := by
  have ends : last :: ((inner first last planned).reverse ++ [first]) =
      (first :: (inner first last planned ++ [last])).reverse := by simp
  rw [strand_inner first last planned front, strand_inner last first planned.reverse back, inner_turned, ends, extend_reversed,
    List.reverse_reverse]

theorem strand_closed_turned : strand first first planned = (strand first first planned.reverse).reverse := by
  have ends : first :: ((planned.filter (· ≠ first)).reverse ++ [first]) =
      (first :: (planned.filter (· ≠ first) ++ [first])).reverse := by simp
  rw [strand, strand, List.filter_reverse, ends, extend_reversed, List.reverse_reverse]

variable (apart : first ≠ last)

include apart

theorem turned_front (turned : strand first last planned = (strand last first planned.reverse).reverse) :
    (planned.filter (· ≠ last)).Pairwise fun v w => v ≠ first → w ≠ first := by
  rw [strand_ends first last planned apart, strand_ends last first planned.reverse apart.symm, List.reverse_concat] at turned
  rw [← comes_back_iff]
  intro back
  have later : first ∈ ((last :: planned.reverse.filter (· ≠ first)).foldl extend []).reverse := by
    have behind := congrArg List.tail turned
    rw [List.tail_append_singleton_of_ne_nil (List.ne_nil_of_mem (List.mem_of_mem_tail back)), List.tail_cons] at behind
    exact behind ▸ List.mem_append_left _ back
  rw [List.mem_reverse, mem_laid] at later
  simp [apart] at later

theorem clear_iff : Clear first last planned ↔
    ((planned.filter (· ≠ last)).Pairwise fun v w => v ≠ first → w ≠ first) ∧
      (planned.reverse.filter (· ≠ first)).Pairwise fun v w => v ≠ last → w ≠ last := by
  rw [Clear, List.pairwise_and_iff, List.pairwise_filter, List.filter_reverse, List.pairwise_reverse, List.pairwise_filter]
  simp only [decide_eq_true_eq]
  have forward (v w : Nat) : (v ≠ first → v ≠ last → w ≠ first) ↔ (v ≠ last → w ≠ last → v ≠ first → w ≠ first) := by grind
  have backward (v w : Nat) : (w ≠ first → w ≠ last → v ≠ last) ↔ (v ≠ first → w ≠ first → w ≠ last → v ≠ last) := by grind
  exact and_congr (List.Pairwise.iff forward) (List.Pairwise.iff backward)

end Turning

theorem strand_turned_iff (first last : Nat) (planned : List Nat) :
    strand first last planned = (strand last first planned.reverse).reverse ↔ first = last ∨ Clear first last planned := by
  by_cases same : first = last
  · subst same
    exact iff_of_true (strand_closed_turned first planned) (.inl rfl)
  · rw [or_iff_right same, clear_iff first last planned same]
    constructor
    · intro turned
      have around : strand last first planned.reverse = (strand first last planned.reverse.reverse).reverse := by
        rw [List.reverse_reverse, turned, List.reverse_reverse]
      exact ⟨turned_front first last planned same turned, turned_front last first planned.reverse (Ne.symm same) around⟩
    · intro clear
      exact strand_turned first last planned clear.1 clear.2

end Seam.Mesh
