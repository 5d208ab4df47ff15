import Mathlib.Data.List.Sort
import Seam.Proofs.Mesh.Keys
import Seam.Proofs.Mesh.Places

set_option autoImplicit false

namespace Seam.Mesh

def dropDuplicates : List NumberedFace → List NumberedFace → Result (List NumberedFace)
  | kept, [] => .ok kept
  | kept, face :: rest =>
      match kept.getLast? with
      | some last =>
          if last.gnum = face.gnum then
            if last.vertexGnums = face.vertexGnums then dropDuplicates kept rest
            else refuse (.inconsistentFace face.gnum)
          else dropDuplicates (kept ++ [face]) rest
      | none => dropDuplicates (kept ++ [face]) rest

section Loop

variable (places : List Nat)

def NumberedFace.placed (face : NumberedFace) : List Nat := face.refs.map fun v => places.getD v 0

theorem placed_ok (face : NumberedFace) (inside : ∀ v ∈ face.refs, v < places.length) :
    face.refs.mapM (fetch places) = .ok (face.placed places) := by
  refine map_m_ok _ _ _ fun v member => (fetch_eq_ok_iff places v _).mpr ?_
  have bound := inside v member
  rw [List.getElem?_eq_getElem bound, List.getD_eq_getElem?_getD, List.getElem?_eq_getElem bound, Option.getD_some]

def Arranging.behind (met : Nat) (kept : List NumberedFace) : Arranging :=
  ⟨kept.map NumberedFace.gnum, .laid (kept.map (NumberedFace.placed places)), kept.getLast?, met - kept.length⟩

theorem arrange_keeps (met : Nat) (kept : List NumberedFace) (face : NumberedFace) (inside : ∀ v ∈ face.refs, v < places.length)
    (new : ∀ last, kept.getLast? = some last → last.gnum ≠ face.gnum) :
    arrangeNext places (.behind places met kept) face = .ok (.behind places (met + 1) (kept ++ [face])) := by
  have fresh : (kept.getLast?.filter fun last => last.gnum = face.gnum) = none := by
    rw [Option.filter_eq_none_iff]
    intro last ends
    simpa using new last ends
  have count : met + 1 - (kept ++ [face]).length = met - kept.length := by
    rw [List.length_append, List.length_singleton]
    omega
  simp only [arrangeNext, Arranging.behind, fresh, placed_ok places face inside, bind, Except.bind, pure, Except.pure, count,
    Ragged.Rows.append_laid, List.map_append, List.map_singleton, List.getLast?_concat]

theorem arrange_drops (met : Nat) (kept : List NumberedFace) (face last : NumberedFace) (fewer : kept.length ≤ met)
    (ends : kept.getLast? = some last) (number : last.gnum = face.gnum) (same : last.vertexGnums = face.vertexGnums) :
    arrangeNext places (.behind places met kept) face = .ok (.behind places (met + 1) kept) := by
  have count : met + 1 - kept.length = met - kept.length + 1 := by omega
  simp [arrangeNext, Arranging.behind, ends, Option.filter_some, number, same, count]

theorem arrange_loop (met : Nat) (kept faces : List NumberedFace) (fewer : kept.length ≤ met)
    (inside : ∀ face ∈ faces, ∀ v ∈ face.refs, v < places.length) :
    faces.foldlM (arrangeNext places) (.behind places met kept) =
      (dropDuplicates kept faces).map (.behind places (met + faces.length)) := by
  fun_induction dropDuplicates kept faces generalizing met with
  | case1 kept => rfl
  | case2 kept face rest last ends number same ih =>
      have next := ih (met + 1) (Nat.le_succ_of_le fewer) fun other member => inside other (by simp [member])
      rw [List.foldlM_cons, arrange_drops places met kept face last fewer ends number same, List.length_cons,
        Nat.add_comm rest.length, ← Nat.add_assoc]
      exact next
  | case3 kept face rest last ends number differ =>
      have fails : arrangeNext places (.behind places met kept) face = refuse (.inconsistentFace face.gnum) := by
        simp [arrangeNext, Arranging.behind, ends, Option.filter_some, number, differ]
      rw [List.foldlM_cons, fails]
      rfl
  | case4 kept face rest last ends other ih =>
      have next := ih (met + 1) (by simpa using fewer) fun other member => inside other (by simp [member])
      have kept := arrange_keeps places met kept face (inside face (by simp)) fun found same => by
        obtain rfl := Option.some.inj (ends.symm.trans same)
        exact other
      rw [List.foldlM_cons, kept, List.length_cons, Nat.add_comm rest.length, ← Nat.add_assoc]
      exact next
  | case5 kept face rest ends ih =>
      have next := ih (met + 1) (by simpa using fewer) fun other member => inside other (by simp [member])
      have kept := arrange_keeps places met kept face (inside face (by simp)) fun found same => by cases ends.symm.trans same
      rw [List.foldlM_cons, kept, List.length_cons, Nat.add_comm rest.length, ← Nat.add_assoc]
      exact next

end Loop

structure FirstClash (keys : List FaceKey) (gnum : UInt64) : Prop where
  clash : ∃ a ∈ keys, ∃ b ∈ keys, a.1 = gnum ∧ b.1 = gnum ∧ a.2 ≠ b.2
  below : ∀ a ∈ keys, ∀ b ∈ keys, a.1 = b.1 → a.1 < gnum → a.2 = b.2

theorem FirstClash.congr (keys others : List FaceKey) (same : ∀ key, key ∈ others ↔ key ∈ keys) (gnum : UInt64)
    (first : FirstClash keys gnum) : FirstClash others gnum := by
  obtain ⟨a, memberA, b, memberB, clash⟩ := first.clash
  refine ⟨⟨a, (same a).mpr memberA, b, (same b).mpr memberB, clash⟩, fun a memberA b memberB => ?_⟩
  exact first.below a ((same a).mp memberA) b ((same b).mp memberB)

structure Representatives (keys kept : List FaceKey) : Prop where
  ascending : kept.Pairwise fun a b => a.1 < b.1
  same : ∀ key, key ∈ kept ↔ key ∈ keys

theorem ascending_unique {α : Type} (number : α → UInt64) (items : List α) (ascending : items.Pairwise fun a b => number a < number b)
    (a b : α) (memberA : a ∈ items) (memberB : b ∈ items) (same : number a = number b) : a = b := by
  obtain ⟨i, boundA, rfl⟩ := List.getElem_of_mem memberA
  obtain ⟨j, boundB, rfl⟩ := List.getElem_of_mem memberB
  have ordered := List.pairwise_iff_getElem.mp ascending
  rcases Nat.lt_trichotomy i j with before | rfl | after
  · exact absurd (same ▸ ordered i j boundA boundB before) (UInt64.lt_irrefl _)
  · rfl
  · exact absurd (same ▸ ordered j i boundB boundA after) (UInt64.lt_irrefl _)

theorem ascending_agree {α : Type} (number : α → UInt64) (items others : List α)
    (first : items.Pairwise fun a b => number a < number b) (second : others.Pairwise fun a b => number a < number b)
    (members : ∀ a, a ∈ items ↔ a ∈ others) : items = others := by
  have irreflexive : Std.Irrefl fun a b : α => number a < number b := ⟨fun _ => UInt64.lt_irrefl _⟩
  have antisymmetric : Std.Antisymm fun a b : α => number a < number b :=
    ⟨fun _ _ less greater => absurd less (UInt64.lt_asymm greater)⟩
  exact first.eq_of_mem_iff second members

theorem representatives_agree (keys others kept chosen : List FaceKey) (members : ∀ key, key ∈ keys ↔ key ∈ others)
    (first : Representatives keys kept) (second : Representatives others chosen) : kept = chosen :=
  ascending_agree Prod.fst kept chosen first.ascending second.ascending fun key =>
    (first.same key).trans ((members key).trans (second.same key).symm)

theorem representatives_unique (keys kept : List FaceKey) (chosen : Representatives keys kept) (a b : FaceKey)
    (memberA : a ∈ keys) (memberB : b ∈ keys) (same : a.1 = b.1) : a = b :=
  ascending_unique Prod.fst kept chosen.ascending a b ((chosen.same a).mpr memberA) ((chosen.same b).mpr memberB) same

theorem no_clash (keys kept : List FaceKey) (chosen : Representatives keys kept) (gnum : UInt64) : ¬ FirstClash keys gnum := by
  intro first
  obtain ⟨a, memberA, b, memberB, numberA, numberB, differ⟩ := first.clash
  exact differ (congrArg Prod.snd (representatives_unique keys kept chosen a b memberA memberB (numberA.trans numberB.symm)))

theorem clash_below (keys others : List FaceKey) (members : ∀ key, key ∈ keys ↔ key ∈ others) (a b : UInt64)
    (first : FirstClash keys a) (second : FirstClash others b) : ¬ a < b := by
  intro less
  obtain ⟨x, memberX, y, memberY, numberX, numberY, differ⟩ := first.clash
  exact differ (second.below x ((members x).mp memberX) y ((members y).mp memberY) (numberX.trans numberY.symm) (numberX ▸ less))

theorem clashes_agree (keys others : List FaceKey) (members : ∀ key, key ∈ keys ↔ key ∈ others) (a b : UInt64)
    (first : FirstClash keys a) (second : FirstClash others b) : a = b := by
  have above := UInt64.not_lt.mp (clash_below keys others members a b first second)
  have below := UInt64.not_lt.mp (clash_below others keys (fun key => (members key).symm) b a second first)
  exact UInt64.le_antisymm below above

def NumberedFace.key (face : NumberedFace) : FaceKey := (face.gnum, face.vertexGnums)

-- The list in the middle of the walk: `kept` has one face for each number met, and nothing smaller is to come.
structure Walking (kept faces : List NumberedFace) : Prop where
  ascending : kept.Pairwise fun a b => a.gnum < b.gnum
  sorted : (kept ++ faces).Pairwise fun a b => a.gnum ≤ b.gnum

theorem last_above (kept : List NumberedFace) (last : NumberedFace) (ends : kept.getLast? = some last)
    (ascending : kept.Pairwise fun a b => a.gnum < b.gnum) : ∀ face ∈ kept, face.gnum ≤ last.gnum := by
  obtain ⟨front, rfl⟩ := List.getLast?_eq_some_iff.mp ends
  intro face member
  rcases List.mem_append.mp member with before | final
  · exact UInt64.le_of_lt ((List.pairwise_append.mp ascending).2.2 face before last (by simp))
  · obtain rfl : face = last := by simpa using final
    exact UInt64.le_refl _

theorem walking_skip (kept faces : List NumberedFace) (face : NumberedFace) (walking : Walking kept (face :: faces)) :
    Walking kept faces :=
  ⟨walking.ascending, walking.sorted.sublist (List.Sublist.append_left (List.sublist_cons_self face faces) kept)⟩

theorem walking_keep (kept faces : List NumberedFace) (face : NumberedFace) (walking : Walking kept (face :: faces))
    (new : ∀ last, kept.getLast? = some last → last.gnum ≠ face.gnum) : Walking (kept ++ [face]) faces := by
  refine ⟨?_, by simpa using walking.sorted⟩
  rw [List.pairwise_append]
  refine ⟨walking.ascending, List.pairwise_singleton _ face, fun other member next final => ?_⟩
  obtain rfl : next = face := by simpa using final
  cases ends : kept.getLast? with
  | none => simp [List.getLast?_eq_none_iff.mp ends] at member
  | some last =>
      have above := last_above kept last ends walking.ascending other member
      have upTo := (List.pairwise_append.mp walking.sorted).2.2 last (List.mem_of_getLast? ends) next (by simp)
      exact UInt64.lt_of_le_of_lt above (UInt64.lt_of_le_of_ne upTo (new last ends))

def DropSpec (keys : List FaceKey) : Result (List NumberedFace) → Prop
  | .ok chosen => Representatives keys (chosen.map NumberedFace.key)
  | .error e => ∃ gnum, e = .error (.inconsistentFace gnum) ∧ FirstClash keys gnum

theorem drop_spec_congr (keys others : List FaceKey) (same : ∀ key, key ∈ others ↔ key ∈ keys)
    (result : Result (List NumberedFace)) (spec : DropSpec keys result) : DropSpec others result := by
  cases result with
  | ok chosen => exact ⟨spec.ascending, fun key => (spec.same key).trans (same key).symm⟩
  | error e =>
      obtain ⟨gnum, rfl, first⟩ := spec
      exact ⟨gnum, rfl, first.congr keys others same gnum⟩

theorem met_before (kept faces : List NumberedFace) (face : NumberedFace) (walking : Walking kept (face :: faces))
    (key : FaceKey) (member : key ∈ (kept ++ face :: faces).map NumberedFace.key) (below : key.1 < face.gnum) :
    ∃ met ∈ kept, met.key = key := by
  obtain ⟨found, listed, rfl⟩ := List.mem_map.mp member
  rcases List.mem_append.mp listed with met | later
  · exact ⟨found, met, rfl⟩
  · have sorted := (List.pairwise_append.mp walking.sorted).2.1
    rcases List.mem_cons.mp later with rfl | rest
    · exact absurd below (UInt64.lt_irrefl _)
    · exact absurd below (UInt64.not_lt.mpr (List.rel_of_pairwise_cons sorted rest))

theorem drop_duplicates_spec (kept faces : List NumberedFace) (walking : Walking kept faces) :
    DropSpec ((kept ++ faces).map NumberedFace.key) (dropDuplicates kept faces) := by
  fun_induction dropDuplicates kept faces with
  | case1 kept => exact ⟨List.pairwise_map.mpr walking.ascending, by simp⟩
  | case2 kept face rest last ends sameNumber sameVertices ih =>
      -- The face goes, but its key stays with the last one that was kept.
      have known : face.key ∈ (kept ++ rest).map NumberedFace.key :=
        List.mem_map.mpr ⟨last, by simp [List.mem_of_getLast? ends], Prod.ext sameNumber sameVertices⟩
      refine drop_spec_congr _ _ (fun other => ?_) _ (ih (walking_skip kept rest face walking))
      simp only [List.map_append, List.map_cons, List.mem_append, List.mem_cons] at known ⊢
      constructor
      · rintro (met | rfl | later)
        · exact .inl met
        · exact known
        · exact .inr later
      · exact Or.imp_right .inr
  | case3 kept face rest last ends sameNumber differ =>
      refine ⟨face.gnum, rfl, ⟨last.key, ?_, face.key, by simp, sameNumber, rfl, differ⟩, ?_⟩
      · exact List.mem_map_of_mem (List.mem_append_left _ (List.mem_of_getLast? ends))
      · intro a memberA b memberB same below
        obtain ⟨first, metFirst, rfl⟩ := met_before kept rest face walking a memberA below
        obtain ⟨second, metSecond, rfl⟩ := met_before kept rest face walking b memberB (same ▸ below)
        rw [ascending_unique NumberedFace.gnum kept walking.ascending first second metFirst metSecond same]
  | case4 kept face rest last ends other ih =>
      have next := ih (walking_keep kept rest face walking fun found same => by
        obtain rfl := Option.some.inj (ends.symm.trans same)
        exact other)
      rwa [List.append_assoc] at next
  | case5 kept face rest ends ih =>
      have next := ih (walking_keep kept rest face walking fun found same => by cases ends.symm.trans same)
      rwa [List.append_assoc] at next

end Seam.Mesh
