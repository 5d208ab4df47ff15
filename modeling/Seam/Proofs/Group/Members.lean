import Mathlib.Data.List.OfFn
import Seam.Proofs.Network.Lockstep

set_option autoImplicit false

namespace Seam.Group

variable {n : Nat} {α β : Type}

theorem member_ranks (me : Fin n) : (Seat.member me).ranks = n := by
  have positive : 0 < n := Nat.zero_lt_of_lt me.isLt
  simp only [Seat.member, Seat.ranks]
  omega

theorem member_rank (me : Fin n) : (Seat.member me).rank = me.val := rfl

theorem member_silent (me : Fin n) : (Seat.member me).silent = true ↔ n = 1 := by
  rw [Seat.silent, member_ranks]
  simp [Seat.member]

theorem fin_range_split (me : Fin n) :
    List.finRange n = (List.finRange n).take me ++ me :: (List.finRange n).drop (me + 1) := by
  have bound : me.val < (List.finRange n).length := by simp
  calc List.finRange n = (List.finRange n).take me ++ (List.finRange n).drop me := (List.take_append_drop ..).symm
    _ = _ := by rw [List.drop_eq_getElem_cons bound, List.getElem_finRange]; rfl

theorem mem_front (me other : Fin n) : other ∈ (List.finRange n).take me ↔ other < me := by
  rw [List.mem_take_iff_getElem]
  constructor
  · rintro ⟨i, bound, rfl⟩
    rw [List.getElem_finRange]
    exact Fin.lt_def.mpr (by simp only [Fin.val_cast]; omega)
  · intro below
    exact ⟨other.val, by simpa using below, by simp⟩

theorem peers_split (me : Fin n) :
    peers me = (List.finRange n).take me ++ (List.finRange n).drop (me + 1) := by
  have split := fin_range_split me
  have nodup := List.nodup_finRange n
  rw [split, List.nodup_append, List.nodup_cons] at nodup
  have before : ∀ other ∈ (List.finRange n).take me, other ≠ me := fun other member => nodup.2.2 other member me (by simp)
  have after : ∀ other ∈ (List.finRange n).drop (me + 1), other ≠ me := fun other member same =>
    nodup.2.1.1 (same ▸ member)
  rw [peers]
  conv => lhs; rw [split]
  rw [List.filter_append, List.filter_cons_of_neg (by simp), List.filter_eq_self.mpr (by simpa using before),
    List.filter_eq_self.mpr (by simpa using after)]

theorem member_peers (me : Fin n) : (Seat.member me).peers = (peers me).map Fin.val := by
  rw [Seat.peers, member_ranks, member_rank, peers, ← List.map_coe_finRange_eq_range, List.filter_map]
  congr 1
  apply List.filter_congr
  intro other _
  simp [Fin.ext_iff]

theorem zip_idx_of_fn (items : Fin n → α) :
    (List.ofFn items).zipIdx = (List.finRange n).map fun other => (items other, other.val) :=
  List.ext_getElem (by simp) fun i _ _ => by simp

theorem member_others (me : Fin n) (items : Fin n → α) :
    (Seat.member me).others (List.ofFn items) = (peers me).map fun other => (other.val, items other) := by
  rw [Seat.others, zip_idx_of_fn, member_rank, List.filter_map, List.map_map, peers]
  have same : (List.finRange n).filter ((fun (item : α × Nat) => decide (item.2 ≠ me.val)) ∘ fun other => (items other, other.val)) =
      (List.finRange n).filter fun other => other ≠ me :=
    List.filter_congr fun other _ => by simp [Fin.ext_iff]
  exact congrArg (List.map _) same

theorem map_others (me : Fin n) (items : Fin n → α) (f : Nat × α → β) :
    ((Seat.member me).others (List.ofFn items)).map f = (peers me).map fun other => f (other.val, items other) := by
  rw [member_others, List.map_map]
  rfl

theorem place_peers (me : Fin n) (own : α) (items : Fin n → α) :
    (Seat.member me).place own ((peers me).map items) = List.ofFn (Function.update items me own) := by
  have kept : ∀ other ∈ peers me, items other = Function.update items me own other := fun other member =>
    (Function.update_of_ne ((mem_peers me other).mp member) own items).symm
  have front : ((List.finRange n).take me).length = me.val := by simp
  rw [List.map_congr_left kept, peers_split, List.map_append, Seat.place, member_rank, List.take_left' (by simp),
    List.drop_left' (by simp)]
  have bound : me.val < (List.finRange n).length := by simp
  rw [List.ofFn_eq_map]
  conv => rhs; rw [← List.take_append_drop me.val (List.finRange n), List.drop_eq_getElem_cons bound]
  simp

end Seam.Group
