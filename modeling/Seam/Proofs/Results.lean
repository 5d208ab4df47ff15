import Mathlib.Data.List.FinRange
import Mathlib.Data.List.Forall2
import Mathlib.Data.List.Induction
import Seam.Error

set_option autoImplicit false

namespace Seam

variable {α β : Type}

theorem bind_ok (first : Result α) (next : α → Result β) (value : β) (ok : (first >>= next) = .ok value) :
    ∃ middle, first = .ok middle ∧ next middle = .ok value := by
  cases first with
  | error e => cases ok
  | ok middle => exact ⟨middle, rfl, ok⟩

theorem map_ok (f : α → β) (result : Result α) (value : β) (ok : result.map f = .ok value) :
    ∃ inner, result = .ok inner ∧ f inner = value := by
  cases result with
  | error e => cases ok
  | ok inner => exact ⟨inner, rfl, Except.ok.inj ok⟩

theorem map_m_cons (f : α → Result β) (item : α) (items : List α) :
    (item :: items).mapM f = (do return (← f item) :: (← items.mapM f)) := List.mapM_cons

theorem map_m_ok (f : α → Result β) (g : α → β) (items : List α) (each : ∀ item ∈ items, f item = .ok (g item)) :
    items.mapM f = .ok (items.map g) := by
  induction items with
  | nil => rfl
  | cons item items ih =>
      rw [map_m_cons, each item (by simp), ih fun other member => each other (by simp [member])]
      rfl

theorem map_m_filter_map (f : α → Result β) (g : α → Option β) (items : List α)
    (each : ∀ item ∈ items, ∃ result, g item = some result ∧ f item = .ok result) : items.mapM f = .ok (items.filterMap g) := by
  induction items with
  | nil => rfl
  | cons item items ih =>
      obtain ⟨result, found, done⟩ := each item (by simp)
      rw [map_m_cons, done, ih fun other member => each other (by simp [member]), List.filterMap_cons_some found]
      rfl

theorem map_m_ok_iff (f : α → Result β) (items : List α) (results : List β) :
    items.mapM f = .ok results ↔ List.Forall₂ (fun item result => f item = .ok result) items results := by
  induction items generalizing results with
  | nil => cases results <;> simp [pure, Except.pure]
  | cons item items ih =>
      rw [map_m_cons]
      cases head : f item with
      | error e => cases results <;> simp [head, bind, Except.bind]
      | ok result =>
          cases tail : items.mapM f with
          | error e => cases results <;> simp [head, tail, ← ih, bind, Except.bind]
          | ok rest => cases results <;> simp [head, tail, ← ih, bind, Except.bind, pure, Except.pure]

theorem map_m_congr (f g : α → Result β) (items : List α) (same : ∀ item ∈ items, f item = g item) :
    items.mapM f = items.mapM g := by
  induction items with
  | nil => rfl
  | cons item items ih => rw [map_m_cons, map_m_cons, same item (by simp), ih fun other member => same other (by simp [member])]

theorem map_m_length (f : α → Result β) (items : List α) (results : List β) (ok : items.mapM f = .ok results) :
    results.length = items.length :=
  ((map_m_ok_iff f items results).mp ok).length_eq.symm

theorem map_m_each (f : α → Result β) (items : List α) (results : List β) (ok : items.mapM f = .ok results) :
    ∀ item ∈ items, ∃ result, f item = .ok result := by
  have pairs := (map_m_ok_iff f items results).mp ok
  clear ok
  induction pairs with
  | nil => simp
  | cons head _ ih => exact List.forall_mem_cons.mpr ⟨⟨_, head⟩, ih⟩

theorem map_m_exists (f : α → Result β) (items : List α) (each : ∀ item ∈ items, ∃ result, f item = .ok result) :
    ∃ results, items.mapM f = .ok results := by
  induction items with
  | nil => exact ⟨[], rfl⟩
  | cons item items ih =>
      obtain ⟨result, head⟩ := each item (by simp)
      obtain ⟨results, tail⟩ := ih fun other member => each other (by simp [member])
      exact ⟨result :: results, by rw [map_m_cons, head, tail]; rfl⟩

theorem map_m_first (f : α → Result β) (before after : List α) (item : α) (e : Failure)
    (fine : ∀ other ∈ before, ∃ result, f other = .ok result) (fails : f item = .error e) :
    (before ++ item :: after).mapM f = .error e := by
  induction before with
  | nil => rw [List.nil_append, map_m_cons, fails]; rfl
  | cons first before ih =>
      obtain ⟨result, ok⟩ := fine first (by simp)
      rw [List.cons_append, map_m_cons, ok, ih fun other member => fine other (by simp [member])]
      rfl

theorem map_m_all (f : α → Result β) (holds : β → Prop) (each : ∀ item result, f item = .ok result → holds result)
    (items : List α) (results : List β) (ok : items.mapM f = .ok results) : ∀ result ∈ results, holds result := by
  have pairs := (map_m_ok_iff f items results).mp ok
  clear ok
  induction pairs with
  | nil => simp
  | cons head _ ih => exact List.forall_mem_cons.mpr ⟨each _ _ head, ih⟩

theorem fold_m_holds (f : β → α → Result β) (holds : β → Prop)
    (each : ∀ before item after, holds before → f before item = .ok after → holds after)
    (items : List α) (first last : β) (start : holds first) (ok : items.foldlM f first = .ok last) : holds last := by
  induction items generalizing first with
  | nil =>
      obtain rfl : first = last := Except.ok.inj ok
      exact start
  | cons item items ih =>
      rw [List.foldlM_cons] at ok
      obtain ⟨next, stepped, rest⟩ := bind_ok _ _ _ ok
      exact ih next (each first item next start stepped) rest

theorem fold_m_ok (f : β → α → Result β) (g : β → α → β) (items : List α)
    (each : ∀ before, ∀ item ∈ items, f before item = .ok (g before item)) (first : β) :
    items.foldlM f first = .ok (items.foldl g first) := by
  induction items generalizing first with
  | nil => rfl
  | cons item items ih =>
      rw [List.foldlM_cons, each first item (by simp), List.foldl_cons]
      exact ih (fun before other member => each before other (by simp [member])) (g first item)

theorem fold_m_exists (f : β → α → Result β) (each : ∀ before item, ∃ next, f before item = .ok next) (items : List α)
    (first : β) : ∃ last, items.foldlM f first = .ok last := by
  induction items generalizing first with
  | nil => exact ⟨first, rfl⟩
  | cons item items ih =>
      obtain ⟨next, stepped⟩ := each first item
      rw [List.foldlM_cons, stepped]
      exact ih next

theorem fold_m_congr (f g : β → α → Result β) (items : List α) (same : ∀ before, ∀ item ∈ items, f before item = g before item)
    (first : β) : items.foldlM f first = items.foldlM g first := by
  induction items generalizing first with
  | nil => rfl
  | cons item items ih =>
      rw [List.foldlM_cons, List.foldlM_cons, same first item (by simp)]
      exact congrArg _ (funext fun next => ih (fun before other member => same before other (by simp [member])) next)

theorem fold_m_map {γ : Type} (f : α → Result γ) (step : β → γ → β) (items : List α) (first : β) :
    items.foldlM (fun before item => do return step before (← f item)) first =
      (items.mapM f).map fun results => results.foldl step first := by
  induction items generalizing first with
  | nil => rfl
  | cons item items ih =>
      rw [List.foldlM_cons, map_m_cons]
      cases f item with
      | error e => rfl
      | ok result =>
          refine (ih (step first result)).trans ?_
          cases items.mapM f <;> rfl

theorem fold_m_flat {γ : Type} (f : β → γ → Result β) (g : α → List γ) (items : List α) (first : β) :
    (items.flatMap g).foldlM f first = items.foldlM (fun before item => (g item).foldlM f before) first := by
  induction items generalizing first with
  | nil => rfl
  | cons item items ih =>
      rw [List.flatMap_cons, List.foldlM_append, List.foldlM_cons]
      exact congrArg _ (funext ih)

theorem fold_m_state (f : β → α → Result β) (state : List α → β) (items : List α)
    (each : ∀ before item, before ++ [item] <+: items → f (state before) item = .ok (state (before ++ [item]))) :
    items.foldlM f (state []) = .ok (state items) := by
  induction items using List.reverseRecOn with
  | nil => rfl
  | append_singleton items item ih =>
      have front := ih fun before other upTo => each before other (upTo.trans (List.prefix_append items [item]))
      rw [List.foldlM_append, front]
      change (f (state items) item >>= fun next => .ok next) = _
      rw [each items item (List.prefix_refl _)]
      rfl

theorem fold_m_numbered (f : β → α × Nat → Result β) (state : List α → β) (items : List α)
    (each : ∀ before item, before ++ [item] <+: items → f (state before) (item, before.length) = .ok (state (before ++ [item]))) :
    items.zipIdx.foldlM f (state []) = .ok (state items) := by
  induction items using List.reverseRecOn with
  | nil => rfl
  | append_singleton items item ih =>
      have front := ih fun before other upTo => each before other (upTo.trans (List.prefix_append items [item]))
      rw [List.zipIdx_append, List.foldlM_append, front, Nat.zero_add]
      change (f (state items) (item, items.length) >>= fun next => .ok next) = _
      rw [each items item (List.prefix_refl _)]
      rfl

theorem filter_m_ok (f : α → Result Bool) (g : α → Bool) (items : List α) (each : ∀ item ∈ items, f item = .ok (g item)) :
    items.filterM f = .ok (items.filter g) := by
  have walk (kept : List α) : List.filterAuxM f items kept = .ok ((items.filter g).reverse ++ kept) := by
    induction items generalizing kept with
    | nil => rfl
    | cons item items ih =>
        have rest := ih fun other member => each other (by simp [member])
        rw [List.filterAuxM, each item (by simp)]
        cases holds : g item <;> simp [holds, rest, bind, Except.bind]
  simp [List.filterM, walk, bind, Except.bind, pure, Except.pure]

theorem for_m_ok (f : α → Result Unit) (items : List α) (each : ∀ item ∈ items, f item = .ok ()) : items.forM f = .ok () := by
  induction items with
  | nil => rfl
  | cons item items ih =>
      change (f item >>= fun _ => items.forM f) = .ok ()
      rw [each item (by simp)]
      exact ih fun other member => each other (by simp [member])

theorem for_m_ok_iff (f : α → Result Unit) (items : List α) : items.forM f = .ok () ↔ ∀ item ∈ items, f item = .ok () := by
  refine ⟨fun ok => ?_, for_m_ok f items⟩
  induction items with
  | nil => simp
  | cons item items ih =>
      change (f item >>= fun _ => items.forM f) = .ok () at ok
      obtain ⟨_, head, rest⟩ := bind_ok _ _ _ ok
      exact List.forall_mem_cons.mpr ⟨head, ih rest⟩

theorem for_m_error_iff (f : α → Result Unit) (items : List α) (e : Failure) : items.forM f = .error e ↔
    ∃ (i : Nat) (item : α), items[i]? = some item ∧ f item = .error e ∧ ∀ j < i, ∀ other, items[j]? = some other → f other = .ok () := by
  induction items with
  | nil => simp [pure, Except.pure]
  | cons item items ih =>
      change (f item >>= fun _ => items.forM f) = .error e ↔ _
      cases head : f item with
      | error first =>
          constructor
          · intro fails
            obtain rfl : first = e := Except.error.inj fails
            exact ⟨0, item, rfl, head, nofun⟩
          · rintro ⟨i, other, found, fails, before⟩
            cases i with
            | zero =>
                obtain rfl : item = other := by simpa using found
                exact head.symm.trans fails
            | succ i => cases head.symm.trans (before 0 (Nat.succ_pos i) item rfl)
      | ok _ =>
          refine ih.trans ⟨?_, ?_⟩
          · rintro ⟨i, other, found, fails, before⟩
            refine ⟨i + 1, other, found, fails, fun j earlier third there => ?_⟩
            cases j with
            | zero =>
                obtain rfl : item = third := by simpa using there
                exact head
            | succ j => exact before j (Nat.lt_of_succ_lt_succ earlier) third there
          · rintro ⟨i, other, found, fails, before⟩
            cases i with
            | zero =>
                obtain rfl : item = other := by simpa using found
                cases head.symm.trans fails
            | succ i => exact ⟨i, other, found, fails, fun j earlier third there => before (j + 1) (Nat.succ_lt_succ earlier) third there⟩

theorem for_all_trans {γ : Type} (r : α → β → Prop) (s : β → γ → Prop) (first : List α) (second : List β) (third : List γ)
    (left : List.Forall₂ r first second) (right : List.Forall₂ s second third) :
    List.Forall₂ (fun a c => ∃ b, r a b ∧ s b c) first third := by
  induction left generalizing third with
  | nil => cases right; exact .nil
  | cons head _ ih =>
      cases right with
      | cons next rest => exact .cons ⟨_, head, next⟩ (ih _ rest)

theorem for_all_split {γ : Type} (r : α → β → Prop) (s : β → γ → Prop) (first : List α) (third : List γ)
    (both : List.Forall₂ (fun a c => ∃ b, r a b ∧ s b c) first third) :
    ∃ second, List.Forall₂ r first second ∧ List.Forall₂ s second third := by
  induction both with
  | nil => exact ⟨[], .nil, .nil⟩
  | cons head _ ih =>
      obtain ⟨b, left, right⟩ := head
      obtain ⟨second, lefts, rights⟩ := ih
      exact ⟨b :: second, .cons left lefts, .cons right rights⟩

theorem for_all_of_fn {n : Nat} (r : α → β → Prop) (f : Fin n → α) (g : Fin n → β) (each : ∀ i, r (f i) (g i)) :
    List.Forall₂ r (List.ofFn f) (List.ofFn g) := by
  rw [List.ofFn_eq_map, List.ofFn_eq_map, List.forall₂_map_left_iff, List.forall₂_map_right_iff, List.forall₂_same]
  exact fun i _ => each i

theorem fetch_eq_ok_iff (items : List α) (i : Nat) (item : α) : fetch items i = .ok item ↔ items[i]? = some item := by
  cases found : items[i]? <;> simp [fetch, found]

theorem store_ok (items : List α) (i : Nat) (item : α) (bound : i < items.length) : store items i item = .ok (items.set i item) :=
  if_pos bound

theorem store_length (items next : List α) (i : Nat) (item : α) (stored : store items i item = .ok next) :
    next.length = items.length := by
  rw [store] at stored
  split at stored
  · rw [← Except.ok.inj stored, List.length_set]
  · cases stored

section Tables

variable (size : Nat) (f g : Nat → α) (i : Nat) (inside : i < size)

include inside

theorem fetch_table : fetch ((List.range size).map f) i = .ok (f i) := (fetch_eq_ok_iff _ _ _).mpr (by simp [inside])

theorem store_table (same : ∀ j, j ≠ i → g j = f j) : store ((List.range size).map f) i (g i) = .ok ((List.range size).map g) := by
  rw [store_ok _ _ _ (by simpa using inside)]
  refine congrArg Except.ok (List.ext_getElem (by simp) fun j bound _ => ?_)
  by_cases here : i = j
  · subst here
    simp
  · rw [List.getElem_set_ne here]
    simp [same j (Ne.symm here)]

end Tables

-- The result does not come from looking outside a list.
def Guarded (result : Result α) : Prop := result ≠ .error .outOfBounds

theorem guarded_ok (value : α) : Guarded (.ok value : Result α) := nofun

theorem guarded_refuse (cause : Error) : Guarded (refuse cause : Result α) := nofun

theorem guarded_map (f : α → β) (result : Result α) (start : Guarded result) : Guarded (result.map f) := by
  cases result with
  | ok value => exact guarded_ok _
  | error e =>
      rintro ⟨⟩
      exact start rfl

theorem guarded_bind (first : Result α) (next : α → Result β) (start : Guarded first)
    (later : ∀ value, first = .ok value → Guarded (next value)) : Guarded (first >>= next) := by
  cases first with
  | ok value => exact later value rfl
  | error e =>
      rintro ⟨⟩
      exact start rfl

theorem guarded_first (first : Result α) (next : α → Result β) (guarded : Guarded (first >>= next)) : Guarded first := by
  rintro rfl
  exact guarded rfl

theorem guarded_map_m (f : α → Result β) (items : List α) (each : ∀ item ∈ items, Guarded (f item)) : Guarded (items.mapM f) := by
  induction items with
  | nil => exact guarded_ok []
  | cons item items ih =>
      rw [map_m_cons]
      refine guarded_bind _ _ (each item (by simp)) fun _ _ => ?_
      exact guarded_bind _ _ (ih fun other member => each other (by simp [member])) fun _ _ => guarded_ok _

theorem guarded_fold_m (f : β → α → Result β) (items : List α) (each : ∀ before, ∀ item ∈ items, Guarded (f before item))
    (first : β) : Guarded (items.foldlM f first) := by
  induction items generalizing first with
  | nil => exact guarded_ok first
  | cons item items ih =>
      rw [List.foldlM_cons]
      exact guarded_bind _ _ (each first item (by simp)) fun next _ => ih (fun before other member => each before other (by simp [member])) next

theorem guarded_fetch (items : List α) (i : Nat) (bound : i < items.length) : Guarded (fetch items i) := by
  have found := (fetch_eq_ok_iff items i items[i]).mpr (by simp)
  exact found ▸ guarded_ok _

end Seam
