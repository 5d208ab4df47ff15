import Mathlib.Data.List.Chain
import Seam.Proofs.Results
import Seam.Ragged

set_option autoImplicit false

namespace Seam.Ragged

variable {α : Type}

def boundaries (start : Nat) : List (List α) → List Nat
  | [] => [start]
  | row :: rows => start :: boundaries (start + row.length) rows

def index (rows : List (List α)) : List Nat := boundaries 0 rows

def fits (index : List Nat) (rows items : Nat) : Bool :=
  index.length == rows + 1 && index.head? == some 0 && (firstBreak (fun a b => a ≤ b) index).isNone &&
    index.getLast? == some items

theorem first_break_none_iff (allowed : α → α → Bool) (items : List α) :
    firstBreak allowed items = none ↔ items.IsChain fun a b => allowed a b = true := by
  induction items with
  | nil => simp [firstBreak]
  | cons a rest ih =>
      cases rest with
      | nil => simp [firstBreak]
      | cons b rest => by_cases fine : allowed a b <;> simp [firstBreak, fine, ih]

theorem boundaries_length (start : Nat) (rows : List (List α)) : (boundaries start rows).length = rows.length + 1 := by
  induction rows generalizing start with
  | nil => rfl
  | cons row rows ih => simp [boundaries, ih]

theorem boundaries_get (start : Nat) (rows : List (List α)) (i : Nat) (bound : i ≤ rows.length) :
    (boundaries start rows)[i]? = some (start + (rows.take i).flatten.length) := by
  induction rows generalizing start i with
  | nil =>
      obtain rfl : i = 0 := by simpa using bound
      rfl
  | cons row rows ih =>
      cases i with
      | zero => rfl
      | succ i =>
          have rest := ih (start + row.length) i (by simpa using bound)
          simp only [boundaries, List.getElem?_cons_succ, rest, List.take_succ_cons, List.flatten_cons, List.length_append,
            Nat.add_assoc]

theorem boundaries_head (start : Nat) (rows : List (List α)) : (boundaries start rows).head? = some start := by
  cases rows <;> rfl

theorem boundaries_chain (start : Nat) (rows : List (List α)) : (boundaries start rows).IsChain (· ≤ ·) := by
  induction rows generalizing start with
  | nil => exact .singleton start
  | cons row rows ih =>
      have rest := ih (start + row.length)
      cases rows with
      | nil => simp [boundaries]
      | cons next rows =>
          simp only [boundaries] at rest ⊢
          exact .cons_cons (Nat.le_add_right _ _) rest

theorem boundaries_rise (start : Nat) (rows : List (List α)) (full : ∀ row ∈ rows, row ≠ []) :
    (boundaries start rows).IsChain (· < ·) := by
  induction rows generalizing start with
  | nil => exact .singleton start
  | cons row rows ih =>
      have rest := ih (start + row.length) fun other member => full other (by simp [member])
      have longer : 0 < row.length := List.length_pos_iff.mpr (full row (by simp))
      cases rows with
      | nil => simpa [boundaries] using longer
      | cons next rows =>
          simp only [boundaries] at rest ⊢
          exact .cons_cons (Nat.lt_add_of_pos_right longer) rest

theorem boundaries_last (start : Nat) (rows : List (List α)) :
    (boundaries start rows).getLast? = some (start + rows.flatten.length) := by
  rw [List.getLast?_eq_getElem?, boundaries_length, Nat.add_sub_cancel, boundaries_get start rows _ (Nat.le_refl _),
    List.take_length]

theorem boundaries_append (start : Nat) (rows more : List (List α)) :
    boundaries start (rows ++ more) = boundaries start rows ++ (boundaries (start + rows.flatten.length) more).drop 1 := by
  induction rows generalizing start with
  | nil => cases more <;> simp [boundaries]
  | cons row rows ih => simp [boundaries, ih, Nat.add_assoc]

theorem boundaries_snoc (start : Nat) (rows : List (List α)) (row : List α) :
    boundaries start (rows ++ [row]) = boundaries start rows ++ [start + (rows ++ [row]).flatten.length] := by
  rw [boundaries_append, List.flatten_append, List.flatten_singleton, List.length_append, ← Nat.add_assoc]
  rfl

theorem boundaries_shift (start shift : Nat) (rows : List (List α)) :
    (boundaries start rows).map (shift + ·) = boundaries (shift + start) rows := by
  induction rows generalizing start with
  | nil => rfl
  | cons row rows ih => simp [boundaries, ih, Nat.add_assoc]

theorem boundaries_map {β : Type} (f : α → β) (start : Nat) (rows : List (List α)) :
    boundaries start (rows.map (List.map f)) = boundaries start rows := by
  induction rows generalizing start with
  | nil => rfl
  | cons row rows ih => rw [List.map_cons, boundaries, boundaries, ih, List.length_map]

def Rows.laid (rows : List (List α)) : Rows α := ⟨Ragged.index rows, rows.flatten⟩

theorem Rows.laid_nil : Rows.laid ([] : List (List α)) = .blank := rfl

theorem Rows.append_laid (rows : List (List α)) (row : List α) : (laid rows).append row = laid (rows ++ [row]) := by
  simp only [append, close, laid, Ragged.index, boundaries_snoc, List.flatten_append, List.flatten_singleton, Nat.zero_add]

theorem Rows.fold_append (rows done : List (List α)) : rows.foldl append (laid done) = laid (done ++ rows) := by
  induction rows generalizing done with
  | nil => rw [List.foldl_nil, List.append_nil]
  | cons row rows ih => rw [List.foldl_cons, append_laid, ih, List.append_assoc, List.singleton_append]

theorem Rows.append_all (rows : List (List α)) : rows.foldl append .blank = laid rows := fold_append rows []

theorem flatten_split (rows : List (List α)) (i : Nat) (row : List α) (found : rows[i]? = some row) :
    rows.flatten = (rows.take i).flatten ++ (row ++ (rows.drop (i + 1)).flatten) := by
  obtain ⟨bound, rfl⟩ := List.getElem?_eq_some_iff.mp found
  calc rows.flatten = (rows.take i ++ rows.drop i).flatten := by rw [List.take_append_drop]
    _ = _ := by rw [List.drop_eq_getElem_cons bound, List.flatten_append, List.flatten_cons]

theorem row_index (rows : List (List α)) (i : Nat) (items : List α) (found : rows[i]? = some items) :
    row (index rows) rows.flatten i = .ok items := by
  have bound : i < rows.length := (List.getElem?_eq_some_iff.mp found).1
  have start := boundaries_get 0 rows i (Nat.le_of_lt bound)
  have stop := boundaries_get 0 rows (i + 1) bound
  have upTo : (rows.take (i + 1)).flatten.length = (rows.take i).flatten.length + items.length := by
    rw [List.take_add_one, found, List.flatten_append, List.length_append]
    simp
  rw [Nat.zero_add] at start stop
  rw [upTo] at stop
  have inside : (rows.take i).flatten.length + items.length ≤ rows.flatten.length := by
    rw [flatten_split rows i items found]
    simp
  have span : (rows.flatten.take ((rows.take i).flatten.length + items.length)).drop (rows.take i).flatten.length = items := by
    rw [flatten_split rows i items found, List.take_length_add_append, List.drop_left, List.take_left]
  simp only [row, index, fetch, start, stop, slice, bind, Except.bind]
  rw [if_pos ⟨Nat.le_add_right _ _, inside⟩, span]

theorem index_map {β : Type} (f : α → β) (rows : List (List α)) : index (rows.map (List.map f)) = index rows :=
  boundaries_map f 0 rows

theorem fits_index (rows : List (List α)) : fits (index rows) rows.length rows.flatten.length = true := by
  have chain : firstBreak (fun a b => decide (a ≤ b)) (boundaries 0 rows) = none := by
    rw [first_break_none_iff]
    simpa using boundaries_chain 0 rows
  simp [fits, chain, index, boundaries_length, boundaries_head, boundaries_last]

theorem ends_found (index : List Nat) (rows : Nat) (length : index.length = rows + 1) :
    ∃ first last, fetch index 0 = .ok first ∧ index.head? = some first ∧ fetch index rows = .ok last ∧
      index.getLast? = some last := by
  have inside : rows < index.length := by omega
  refine ⟨index[0], index[rows], (fetch_eq_ok_iff index 0 _).mpr (List.getElem?_eq_getElem _), ?_,
    (fetch_eq_ok_iff index rows _).mpr (List.getElem?_eq_getElem _), ?_⟩
  · rw [List.head?_eq_getElem?, List.getElem?_eq_getElem]
  · rw [List.getLast?_eq_getElem?, length, Nat.add_sub_cancel, List.getElem?_eq_getElem inside]

theorem shaped_eq (index : List Nat) (rows items : Nat) (length : index.length = rows + 1) :
    shaped index rows items = .ok (fits index rows items) := by
  obtain ⟨start, stop, first, head, last, ends⟩ := ends_found index rows length
  by_cases starts : start = 0
  · cases falls : firstBreak (fun a b => decide (a ≤ b)) index <;>
      simp [shaped, fits, first, last, head, ends, length, starts, falls, pure, Except.pure, bind, Except.bind]
  · simp [shaped, fits, first, head, starts, pure, Except.pure, bind, Except.bind]

theorem head_le_last (first last : Nat) (items : List Nat) (chain : (first :: items).IsChain (· ≤ ·))
    (ends : (first :: items).getLast? = some last) : first ≤ last := by
  have ordered := List.isChain_iff_pairwise.mp chain
  rcases List.mem_cons.mp (List.mem_of_getLast? ends) with rfl | member
  · exact Nat.le_refl _
  · exact List.rel_of_pairwise_cons ordered member

theorem rows_exist (start : Nat) (boundary : List Nat) (items : List α) (starts : boundary.head? = some start)
    (chain : boundary.IsChain (· ≤ ·)) (ends : boundary.getLast? = some (start + items.length)) :
    ∃ rows, boundary = boundaries start rows ∧ items = rows.flatten := by
  induction boundary generalizing start items with
  | nil => cases starts
  | cons first rest ih =>
      obtain rfl : first = start := by simpa using starts
      cases rest with
      | nil =>
          have empty : items = [] := by simpa using ends
          exact ⟨[], by simp [boundaries], by simp [empty]⟩
      | cons next rest =>
          obtain ⟨ascends, chain⟩ := List.isChain_cons_cons.mp chain
          rw [List.getLast?_cons_cons] at ends
          have below := head_le_last next _ rest chain ends
          have remaining : next + (items.drop (next - first)).length = first + items.length := by
            rw [List.length_drop]
            omega
          obtain ⟨rows, same, split⟩ := ih next (items.drop (next - first)) rfl chain (by rw [ends, remaining])
          refine ⟨items.take (next - first) :: rows, ?_, ?_⟩
          · have width : (items.take (next - first)).length = next - first := by
              rw [List.length_take]
              omega
            rw [boundaries, width, Nat.add_sub_cancel' ascends, ← same]
          · rw [List.flatten_cons, ← split, List.take_append_drop]

theorem fits_rows (index : List Nat) (rows : Nat) (items : List α) (fit : fits index rows items.length = true) :
    ∃ parts : List (List α), parts.length = rows ∧ index = Ragged.index parts ∧ items = parts.flatten := by
  simp only [fits, Bool.and_eq_true, beq_iff_eq, Option.isNone_iff_eq_none, first_break_none_iff, decide_eq_true_eq] at fit
  obtain ⟨⟨⟨length, head⟩, chain⟩, last⟩ := fit
  obtain ⟨parts, same, split⟩ := rows_exist 0 index items head chain (by rw [last, Nat.zero_add])
  refine ⟨parts, ?_, same, split⟩
  rw [same, boundaries_length] at length
  exact Nat.add_right_cancel length

def Enclosed (index : List Nat) (items i : Nat) : Prop :=
  ∃ start stop, index[i]? = some start ∧ index[i + 1]? = some stop ∧ start ≤ stop ∧ stop ≤ items

def Within (index : List Nat) (i p : Nat) : Prop :=
  ∃ start stop, index[i]? = some start ∧ index[i + 1]? = some stop ∧ start ≤ p ∧ p < stop

theorem mem_span_iff (items : List α) (start stop : Nat) (item : α) :
    item ∈ (items.take stop).drop start ↔ ∃ p, start ≤ p ∧ p < stop ∧ items[p]? = some item := by
  simp only [List.mem_iff_getElem?, List.getElem?_drop, List.getElem?_take]
  constructor
  · rintro ⟨i, found⟩
    split at found
    · rename_i before
      exact ⟨start + i, Nat.le_add_right start i, before, found⟩
    · cases found
  · rintro ⟨p, behind, before, found⟩
    refine ⟨p - start, ?_⟩
    rw [Nat.add_sub_cancel' behind, if_pos before, found]

section Reading

variable (index : List Nat) (items : List α) (i : Nat)

theorem row_ok_iff (part : List α) : row index items i = .ok part ↔
    ∃ start stop, index[i]? = some start ∧ index[i + 1]? = some stop ∧ start ≤ stop ∧ stop ≤ items.length ∧
      part = (items.take stop).drop start := by
  constructor
  · intro ok
    obtain ⟨start, first, ok⟩ := bind_ok _ _ _ ok
    obtain ⟨stop, second, ok⟩ := bind_ok _ _ _ ok
    unfold slice at ok
    split at ok
    · rename_i inside
      exact ⟨start, stop, (fetch_eq_ok_iff _ _ _).mp first, (fetch_eq_ok_iff _ _ _).mp second, inside.1, inside.2,
        (Except.ok.inj ok).symm⟩
    · cases ok
  · rintro ⟨start, stop, first, second, rises, inside, rfl⟩
    simp only [row, (fetch_eq_ok_iff index _ _).mpr first, (fetch_eq_ok_iff index _ _).mpr second, bind, Except.bind, slice]
    exact if_pos ⟨rises, inside⟩

theorem row_enclosed (enclosed : Enclosed index items.length i) : ∃ part, row index items i = .ok part := by
  obtain ⟨start, stop, first, second, rises, inside⟩ := enclosed
  exact ⟨_, (row_ok_iff index items i _).mpr ⟨start, stop, first, second, rises, inside, rfl⟩⟩

theorem row_error (e : Failure) (fails : row index items i = .error e) : e = .outOfBounds := by
  simp only [row, fetch, slice, bind, Except.bind] at fails
  grind

theorem row_guarded_iff : Guarded (row index items i) ↔ Enclosed index items.length i := by
  constructor
  · intro guarded
    cases found : row index items i with
    | ok part =>
        obtain ⟨start, stop, first, second, rises, inside, _⟩ := (row_ok_iff index items i part).mp found
        exact ⟨start, stop, first, second, rises, inside⟩
    | error e => exact absurd (row_error index items i e found ▸ found) guarded
  · intro enclosed
    obtain ⟨part, found⟩ := row_enclosed index items i enclosed
    exact found ▸ guarded_ok part

end Reading

-- An index that ends at the list length encloses all of its rows just when it never falls.
theorem all_enclosed_iff (index : List Nat) (items : Nat) (ends : index.getLastD 0 = items) :
    (∀ i < index.length - 1, Enclosed index items i) ↔ index.IsChain (· ≤ ·) := by
  rw [List.isChain_iff_getElem]
  constructor
  · intro enclosed i bound
    obtain ⟨start, stop, first, second, rises, _⟩ := enclosed i (by omega)
    rw [List.getElem?_eq_getElem (by omega)] at first second
    rwa [Option.some.inj first, Option.some.inj second]
  · intro chain i bound
    have inner : i + 1 < index.length := by omega
    have ordered := List.isChain_iff_pairwise.mp (List.isChain_iff_getElem.mpr chain)
    have last : index[i + 1] ≤ items := by
      have full : index ≠ [] := by
        rintro rfl
        cases inner
      rw [← ends, List.getLastD_eq_getLast?, List.getLast?_eq_some_getLast full]
      exact ordered.rel_getLast (List.getElem_mem inner)
    exact ⟨index[i], index[i + 1], List.getElem?_eq_getElem _, List.getElem?_eq_getElem _, chain i inner, last⟩

theorem within_unique (index : List Nat) (chain : index.IsChain (· ≤ ·)) (i j p : Nat) (first : Within index i p)
    (second : Within index j p) : i = j := by
  have ordered := List.pairwise_iff_getElem.mp (List.isChain_iff_pairwise.mp chain)
  have notBefore (i j : Nat) (first : Within index i p) (second : Within index j p) : ¬ i < j := by
    intro earlier
    obtain ⟨_, stop, _, atStop, _, before⟩ := first
    obtain ⟨start, _, atStart, _, behind, _⟩ := second
    obtain ⟨boundStop, rfl⟩ := List.getElem?_eq_some_iff.mp atStop
    obtain ⟨boundStart, rfl⟩ := List.getElem?_eq_some_iff.mp atStart
    rcases Nat.eq_or_lt_of_le (Nat.succ_le_of_lt earlier) with next | later
    · subst next
      exact Nat.not_lt.mpr behind before
    · have rises := ordered (i + 1) j boundStop boundStart later
      omega
  exact Nat.le_antisymm (Nat.not_lt.mp (notBefore j i second first)) (Nat.not_lt.mp (notBefore i j first second))

end Seam.Ragged
