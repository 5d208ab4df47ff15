import Mathlib.Data.Prod.Lex
import Mathlib.Order.Compare
import Mathlib.Order.MinMax
import Seam.Vertex

set_option autoImplicit false

namespace Seam

theorem Binary64.rank_injective (a b : Binary64) (same : a.rank = b.rank) : a = b := by
  obtain ⟨x⟩ := a
  obtain ⟨y⟩ := b
  have boundX := x.toNat_lt
  have boundY := y.toNat_lt
  have bits : x.toNat = y.toNat := by
    simp only [rank, negative, decide_eq_true_eq, UInt64.le_iff_toNat_le] at same
    split at same <;> split at same <;> simp_all <;> omega
  rw [UInt64.toNat_inj.mp bits]

namespace Vertex

abbrev Key := Nat ×ₗ Nat ×ₗ Nat ×ₗ Nat ×ₗ Nat

def key (v : Vertex) : Key :=
  toLex (v.tolerance.rank, toLex (v.gnum.toNat, toLex (v.coord.x.rank, toLex (v.coord.y.rank, v.coord.z.rank))))

theorem compare_eq_key (a b : Vertex) : a.compare b = Ord.compare a.key b.key := by
  simp [Vertex.compare, key, Prod.Lex.compare_def, compareLex, compareOn]

theorem compare_ne_gt_iff (a b : Vertex) : a.compare b ≠ .gt ↔ a.key ≤ b.key := by
  rw [compare_eq_key, Ne, compare_gt_iff_gt, not_lt]

theorem key_injective (a b : Vertex) (same : a.key = b.key) : a = b := by
  obtain ⟨gnumA, toleranceA, ⟨xA, yA, zA⟩⟩ := a
  obtain ⟨gnumB, toleranceB, ⟨xB, yB, zB⟩⟩ := b
  simp only [key, EmbeddingLike.apply_eq_iff_eq, Prod.mk.injEq] at same
  obtain ⟨tolerance, gnum, x, y, z⟩ := same
  rw [Binary64.rank_injective _ _ tolerance, UInt64.toNat_inj.mp gnum, Binary64.rank_injective _ _ x,
    Binary64.rank_injective _ _ y, Binary64.rank_injective _ _ z]

theorem compare_eq_iff (a b : Vertex) : a.compare b = .eq ↔ a = b := by
  rw [compare_eq_key, compare_eq_iff_eq]
  exact ⟨key_injective a b, congrArg key⟩

theorem compare_swap (a b : Vertex) : b.compare a = (a.compare b).swap := by
  rw [compare_eq_key, compare_eq_key]
  exact Std.OrientedCmp.eq_swap

theorem compare_trans (a b c : Vertex) (first : a.compare b ≠ .gt) (second : b.compare c ≠ .gt) : a.compare c ≠ .gt := by
  rw [compare_ne_gt_iff] at first second ⊢
  exact le_trans first second

end Vertex

namespace Reducer

open Vertex (key)

def choose : Reducer → Vertex.Key → Vertex.Key → Vertex.Key
  | .least => min
  | .greatest => max

theorem key_combine (r : Reducer) (a b : Vertex) : (r.combine a b).key = r.choose a.key b.key := by
  cases r with
  | least =>
      simp only [combine, choose, Vertex.compare_eq_key, compare_gt_iff_gt]
      split
      · rename_i above
        exact (min_eq_right (le_of_lt above)).symm
      · rename_i below
        exact (min_eq_left (not_lt.mp below)).symm
  | greatest =>
      simp only [combine, choose, Vertex.compare_eq_key, compare_lt_iff_lt]
      split
      · rename_i below
        exact (max_eq_right (le_of_lt below)).symm
      · rename_i above
        exact (max_eq_left (not_lt.mp above)).symm

theorem combine_comm (r : Reducer) (a b : Vertex) : r.combine a b = r.combine b a := by
  apply Vertex.key_injective
  simp only [key_combine]
  cases r with
  | least => exact min_comm _ _
  | greatest => exact max_comm _ _

theorem combine_right_comm (r : Reducer) (a b c : Vertex) :
    r.combine (r.combine a b) c = r.combine (r.combine a c) b := by
  apply Vertex.key_injective
  simp only [key_combine]
  cases r with
  | least => exact min_right_comm _ _ _
  | greatest => exact max_right_comm _ _ _

theorem reduce_perm (r : Reducer) (records others : List Vertex) (same : records.Perm others) :
    r.reduce records = r.reduce others :=
  same.foldl_eq' (fun _ _ _ _ known => combine_right_comm r known _ _) r.identity

theorem combine_twice (r : Reducer) (a b : Vertex) : r.combine (r.combine a b) b = r.combine a b := by
  apply Vertex.key_injective
  simp only [key_combine]
  cases r with
  | least => exact min_eq_left (min_le_right _ _)
  | greatest => exact max_eq_left (le_max_right _ _)

theorem combine_either (r : Reducer) (a b : Vertex) : r.combine a b = a ∨ r.combine a b = b := by
  cases r <;> simp only [combine] <;> split <;> simp

theorem combine_self (r : Reducer) (v : Vertex) : r.combine v v = v := (combine_either r v v).elim id id

theorem combine_assoc (r : Reducer) (a b c : Vertex) : r.combine (r.combine a b) c = r.combine a (r.combine b c) := by
  apply Vertex.key_injective
  simp only [key_combine]
  cases r with
  | least => exact min_assoc _ _ _
  | greatest => exact max_assoc _ _ _

instance (r : Reducer) : Std.Associative r.combine := ⟨combine_assoc r⟩

-- The identity is neutral at least for what a reduction gives, since every reduction starts from it.
theorem reduce_identity (r : Reducer) (records : List Vertex) : r.combine (r.reduce records) r.identity = r.reduce records := by
  have last : (records ++ [r.identity]).Perm (r.identity :: records) := List.perm_append_comm
  calc r.combine (r.reduce records) r.identity = r.reduce (records ++ [r.identity]) := by
        rw [reduce, reduce, List.foldl_append]
        rfl
    _ = r.reduce (r.identity :: records) := reduce_perm r _ _ last
    _ = r.reduce records := by rw [reduce, List.foldl_cons, combine_self, reduce]

theorem reduce_append (r : Reducer) (first second : List Vertex) :
    r.reduce (first ++ second) = r.combine (r.reduce first) (r.reduce second) := by
  calc r.reduce (first ++ second) = second.foldl r.combine (r.combine (r.reduce first) r.identity) := by
        rw [reduce_identity, reduce, List.foldl_append, reduce]
    _ = r.combine (r.reduce first) (r.reduce second) := List.foldl_assoc

theorem reduce_flatten (r : Reducer) (parts : List (List Vertex)) : r.reduce (parts.map r.reduce) = r.reduce parts.flatten := by
  induction parts with
  | nil => rfl
  | cons part parts ih =>
      have single : r.reduce [r.reduce part] = r.reduce part := (reduce_append r [] part).symm
      rw [List.map_cons, List.flatten_cons, reduce_append, ← ih, ← List.singleton_append, reduce_append, single]

theorem reduce_absorbs (r : Reducer) (records : List Vertex) (v : Vertex) (member : v ∈ records) :
    r.combine (r.reduce records) v = r.reduce records := by
  have last : (records.erase v ++ [v]).Perm records :=
    List.perm_append_comm.trans (List.perm_cons_erase member).symm
  rw [← reduce_perm r _ _ last, reduce, List.foldl_append]
  exact combine_twice r _ v

theorem fold_held (r : Reducer) (start : Vertex) (records : List Vertex) : records.foldl r.combine start ∈ start :: records := by
  induction records generalizing start with
  | nil => simp
  | cons v records ih =>
      rw [List.foldl_cons]
      rcases List.mem_cons.mp (ih (r.combine start v)) with front | later
      · rw [front]
        rcases combine_either r start v with left | right
        · simp [left]
        · simp [right]
      · simp [later]

theorem reductions_ignore_order :
    ((∀ a b : Vertex, a.compare b = .eq ↔ a = b) ∧ (∀ a b : Vertex, b.compare a = (a.compare b).swap) ∧
      ∀ a b c : Vertex, a.compare b ≠ .gt → b.compare c ≠ .gt → a.compare c ≠ .gt) ∧
    ∀ r : Reducer,
      (∀ a b c, r.combine (r.combine a b) c = r.combine a (r.combine b c)) ∧ (∀ a b, r.combine a b = r.combine b a) ∧
      (∀ v, r.combine v v = v) ∧ (∀ records others : List Vertex, records.Perm others → r.reduce records = r.reduce others) ∧
      ∀ first second, r.reduce (first ++ second) = r.combine (r.reduce first) (r.reduce second) :=
  ⟨⟨Vertex.compare_eq_iff, Vertex.compare_swap, Vertex.compare_trans⟩, fun r =>
    ⟨combine_assoc r, combine_comm r, combine_self r, reduce_perm r, reduce_append r⟩⟩

def seventh (tolerance : UInt64) : Vertex := ⟨7, ⟨tolerance⟩, ⟨⟨0⟩, ⟨0⟩, ⟨0⟩⟩⟩

theorem sevenths_reduced_alike :
    ((seventh 0xFFF8000000000000).compare (seventh 0x8000000000000000) ≠ .gt ∧
      (seventh 0x8000000000000000).compare (seventh 0x7FF8000000000000) ≠ .gt ∧
      (seventh 0xFFF8000000000000).compare (seventh 0x7FF8000000000000) ≠ .gt) ∧
    [seventh 0, seventh 0xFFF8000000000000, seventh 0x8000000000000000].Perm
      [seventh 0x8000000000000000, seventh 0, seventh 0xFFF8000000000000] ∧
    Reducer.greatest.reduce [seventh 0, seventh 0xFFF8000000000000, seventh 0x8000000000000000] =
      Reducer.greatest.reduce [seventh 0x8000000000000000, seventh 0, seventh 0xFFF8000000000000] := by
  obtain ⟨⟨_, _, trans⟩, laws⟩ := reductions_ignore_order
  obtain ⟨_, _, _, perm, _⟩ := laws .greatest
  have low : (seventh 0xFFF8000000000000).compare (seventh 0x8000000000000000) ≠ .gt := by decide
  have high : (seventh 0x8000000000000000).compare (seventh 0x7FF8000000000000) ≠ .gt := by decide
  have same : [seventh 0, seventh 0xFFF8000000000000, seventh 0x8000000000000000].Perm
      [seventh 0x8000000000000000, seventh 0, seventh 0xFFF8000000000000] := by decide
  exact ⟨⟨low, high, trans _ _ _ low high⟩, same, perm _ _ same⟩

end Reducer

end Seam
