import Seam.Proofs.Group.Members
import Seam.Proofs.Group.Work
import Seam.Proofs.Wire.RoundTrip

set_option autoImplicit false

namespace Seam

theorem overlay_row {α : Type} (rows : List (List α)) (width i : Nat) (row : List α)
    (even : ∀ row ∈ rows, row.length = width) (inside : i < rows.length) (wide : row.length = width) :
    overlay rows.flatten (i * width) row = .ok (rows.set i row).flatten := by
  have front : (rows.take i).flatten.length = i * width := by
    rw [List.length_flatten, List.map_congr_left fun row member => even row (List.mem_of_mem_take member)]
    simp [Nat.min_eq_left (Nat.le_of_lt inside)]
  have split : rows.flatten = (rows.take i).flatten ++ (rows[i] ++ (rows.drop (i + 1)).flatten) := by
    rw [← List.flatten_cons, ← List.drop_eq_getElem_cons inside, ← List.flatten_append, List.take_append_drop]
  have here : rows[i].length = width := even _ (List.getElem_mem inside)
  have room : i * width + row.length ≤ rows.flatten.length := by
    rw [split, List.length_append, List.length_append, front, here, wide]
    omega
  have before : rows.flatten.take (i * width) = (rows.take i).flatten := by
    rw [split, List.take_left' front]
  have behind : rows.flatten.drop (i * width + row.length) = (rows.drop (i + 1)).flatten := by
    rw [split, ← List.drop_drop, List.drop_left' front, List.drop_left' (here.trans wide.symm)]
  rw [overlay, if_pos room, before, behind, List.set_eq_take_append_cons_drop, if_pos inside]
  simp

theorem chunks_flatten (width : Nat) (rows : List Bytes) (even : ∀ row ∈ rows, row.length = width) :
    Wire.chunks width rows.length rows.flatten = rows := by
  induction rows with
  | nil => rfl
  | cons row rows ih =>
      have here := even row (by simp)
      rw [List.length_cons, Wire.chunks, List.flatten_cons, List.take_left' here, List.drop_left' here,
        ih fun other member => even other (by simp [member])]

theorem flatten_length {α : Type} (width : Nat) (rows : List (List α)) (even : ∀ row ∈ rows, row.length = width) :
    rows.flatten.length = width * rows.length := by
  rw [List.length_flatten, List.map_congr_left even, List.map_const', List.sum_replicate_nat, Nat.mul_comm]

theorem exact_chunks_flatten (width : Nat) (rows : List Bytes) (some : 0 < width) (even : ∀ row ∈ rows, row.length = width) :
    Wire.exactChunks width rows.flatten = .ok rows := by
  rw [Wire.exactChunks, if_neg (by omega), flatten_length width rows even, Nat.mul_div_cancel_left _ some,
    chunks_flatten width rows even]

theorem zip_over_eq {α β : Type} (change : α → β → α) (items : List α) (others : List β) (fits : items.length ≤ others.length) :
    zipOver change items others = List.zipWith change items others := by
  induction items generalizing others with
  | nil => cases others <;> rfl
  | cons item items ih =>
      cases others with
      | nil => cases fits
      | cons other others => rw [zipOver, ih others (Nat.le_of_succ_le_succ fits), List.zipWith_cons_cons]

def Wire.recordsIn {β : Type} (layout : Wire.Layout β) (count : Nat) (row : Bytes) : List β :=
  (Wire.chunks layout.size count row).map layout.decode

section Rows

variable {α β : Type} (layout : Wire.Layout β) (change : α → β → α)

theorem take_row (items : List α) (row : Bytes) (some : 0 < layout.size) (full : row.length = items.length * layout.size) :
    Seat.takeRow layout change items row = .ok (List.zipWith change items (Wire.recordsIn layout items.length row)) := by
  have count : row.length / layout.size = items.length := by rw [full, Nat.mul_div_cancel _ some]
  have size : (Wire.recordsIn layout items.length row).length = items.length := by rw [Wire.recordsIn, List.length_map, Wire.chunks_length]
  rw [Seat.takeRow, Wire.exactChunks, if_neg (by omega), count, ← zip_over_eq change items _ (Nat.le_of_eq size.symm)]
  rfl

theorem take_rows (items : List α) (rows : List Bytes) (some : 0 < layout.size)
    (full : ∀ row ∈ rows, row.length = items.length * layout.size) :
    rows.foldlM (Seat.takeRow layout change) items =
      .ok ((rows.map (Wire.recordsIn layout items.length)).foldl (List.zipWith change) items) := by
  induction rows generalizing items with
  | nil => rfl
  | cons row rows ih =>
      let next := List.zipWith change items (Wire.recordsIn layout items.length row)
      have size : next.length = items.length := by simp [next, Wire.recordsIn, Wire.chunks_length]
      have later := ih next fun other member => by rw [size]; exact full other (by simp [member])
      rw [List.foldlM_cons, take_row layout change items row some (full row (by simp))]
      refine later.trans ?_
      rw [size]
      rfl

theorem fold_zip_nil (rows : List (List β)) : rows.foldl (List.zipWith change) [] = [] := by
  induction rows with
  | nil => rfl
  | cons row rows ih => rwa [List.foldl_cons, List.zipWith_nil_left]

-- The chunks of a buffer are its rows. Rows without any records are not seen, and change nothing.
theorem take_chunks (items : List α) (rows : List Bytes) (width : Nat) (some : 0 < layout.size) (wide : 0 < width)
    (even : ∀ row ∈ rows, row.length = items.length * layout.size) (size : items ≠ [] → width = items.length * layout.size) :
    (Wire.exactChunks width rows.flatten >>= fun rows => rows.foldlM (Seat.takeRow layout change) items) =
      .ok ((rows.map (Wire.recordsIn layout items.length)).foldl (List.zipWith change) items) := by
  cases items with
  | nil =>
      have nothing : rows.flatten = [] :=
        List.flatten_eq_nil_iff.mpr fun row member => List.eq_nil_of_length_eq_zero ((even row member).trans (Nat.zero_mul _))
      rw [nothing, Wire.exactChunks, if_neg (by omega), fold_zip_nil]
      simp [Wire.chunks]
      rfl
  | cons item items =>
      have right := size (List.cons_ne_nil _ _)
      rw [exact_chunks_flatten width rows wide (by rw [right]; exact even)]
      exact take_rows layout change _ rows some even

end Rows

def fault {α : Type} : Result α → Option Failure
  | .ok _ => none
  | .error e => some e

theorem fault_none {α : Type} (result : Result α) (fine : fault result = none) : ∃ value, result = .ok value := by
  cases result with
  | ok value => exact ⟨value, rfl⟩
  | error e => cases fine

theorem fault_map_m_cons {α β : Type} (f : α → Result β) (item : α) (items : List α) :
    fault ((item :: items).mapM f) = (fault (f item) <|> fault (items.mapM f)) := by
  rw [map_m_cons]
  cases f item with
  | ok result => cases items.mapM f <;> rfl
  | error e => rfl

namespace Seat

def landNext (width : Nat) (rows : List Bytes) (next : Nat × Option Bytes) : List Bytes :=
  match checkGathered width next.1 next.2 with
  | .ok data => rows.set next.1 data
  | .error _ => rows

def landed (width : Nat) (rows : List Bytes) (came : List (Nat × Option Bytes)) : List Bytes :=
  came.foldl (landNext width) rows

theorem check_gathered_length (width peer : Nat) (answer : Option Bytes) (data : Bytes)
    (fine : checkGathered width peer answer = .ok data) : answer = some data ∧ data.length = width := by
  unfold checkGathered at fine
  split at fine
  · cases fine
  · split at fine
    · cases fine
      exact ⟨rfl, ‹_›⟩
    · cases fine

theorem land_next_length (width : Nat) (rows : List Bytes) (next : Nat × Option Bytes) :
    (landNext width rows next).length = rows.length := by
  unfold landNext
  split
  · exact List.length_set
  · rfl

theorem land_next_even (width : Nat) (rows : List Bytes) (next : Nat × Option Bytes)
    (even : ∀ row ∈ rows, row.length = width) : ∀ row ∈ landNext width rows next, row.length = width := by
  unfold landNext
  split
  · rename_i data checked
    intro row member
    rcases List.mem_or_eq_of_mem_set member with known | rfl
    · exact even row known
    · exact (check_gathered_length _ _ _ _ checked).2
  · exact even

theorem take_answer (width : Nat) (rows : List Bytes) (failed : Option Failure) (next : Nat × Option Bytes)
    (even : ∀ row ∈ rows, row.length = width) (inside : next.1 < rows.length) :
    takeAnswer width (rows.flatten, failed) next =
      .ok ((landNext width rows next).flatten, failed <|> fault (checkGathered width next.1 next.2)) := by
  unfold takeAnswer landNext
  cases checked : checkGathered width next.1 next.2 with
  | ok data =>
      have placed := overlay_row rows width next.1 data even inside (check_gathered_length _ _ _ _ checked).2
      simp only [placed]
      cases failed <;> rfl
  | error e => rfl

theorem take_answers (width : Nat) (rows : List Bytes) (failed : Option Failure) (came : List (Nat × Option Bytes))
    (even : ∀ row ∈ rows, row.length = width) (inside : ∀ next ∈ came, next.1 < rows.length) :
    came.foldlM (takeAnswer width) (rows.flatten, failed) =
      .ok ((landed width rows came).flatten, failed <|> fault (came.mapM fun next => checkGathered width next.1 next.2)) := by
  induction came generalizing rows failed with
  | nil => cases failed <;> rfl
  | cons next came ih =>
      have first := take_answer width rows failed next even (inside next (by simp))
      have rest := ih (landNext width rows next) (failed <|> fault (checkGathered width next.1 next.2))
        (land_next_even width rows next even) fun other member => by
          rw [land_next_length]
          exact inside other (by simp [member])
      rw [List.foldlM_cons, first]
      refine rest.trans ?_
      rw [fault_map_m_cons]
      simp [landed, Option.or_assoc]

end Seat

namespace Group

variable {n : Nat} {α : Type}

theorem set_of_fn (items : Fin n → α) (i : Fin n) (item : α) :
    (List.ofFn items).set i.val item = List.ofFn (Function.update items i item) := by
  refine List.ext_getElem (by simp) fun j first second => ?_
  rw [List.length_ofFn] at second
  by_cases same : i.val = j
  · subst same
    simp
  · have different : (⟨j, second⟩ : Fin n) ≠ i := fun equal => same (congrArg Fin.val equal).symm
    rw [List.getElem_set_ne same, List.getElem_ofFn, List.getElem_ofFn, Function.update_of_ne different]

theorem set_all_of_fn (places : List (Fin n)) (entry items : Fin n → α) :
    places.foldl (fun rows i => rows.set i.val (entry i)) (List.ofFn items) =
      List.ofFn fun i => if i ∈ places then entry i else items i := by
  induction places generalizing items with
  | nil => simp
  | cons place places ih =>
      rw [List.foldl_cons, set_of_fn, ih]
      refine congrArg List.ofFn (funext fun i => ?_)
      by_cases same : i = place
      · simp [same]
      · simp [same]

variable (me : Fin n) (data : Bytes)

def ownRow : List Bytes := (List.ofFn fun _ : Fin n => List.replicate data.length 0).set me.val data

theorem own_row_even : ∀ row ∈ ownRow me data, row.length = data.length := by
  intro row member
  rcases List.mem_or_eq_of_mem_set member with zeros | rfl
  · obtain ⟨_, rfl⟩ := List.mem_ofFn.mp zeros
    exact List.length_replicate
  · rfl

theorem own_row_length : (ownRow me data).length = n := by simp [ownRow]

def filled (answers : List (Option Bytes)) : Result Bytes :=
  let came := ((peers me).map Fin.val).zip answers
  match fault (came.mapM fun next => Seat.checkGathered data.length next.1 next.2) with
  | some e => .error e
  | none => .ok (Seat.landed data.length (ownRow me data) came).flatten

theorem gather_into_round (length : Nat) (room : length = data.length * n) :
    ((Seat.member me).gatherInto data length).run =
      .round Seat.gatherTag ((peers me).map fun other : Fin n => (⟨other.val, data.length, data⟩ : Leg))
        fun answers => .done (filled me data answers) := by
  have fits : ¬ (List.replicate length (0 : UInt8)).length ≠ data.length * (Seat.member me).ranks := by
    rw [List.length_replicate, member_ranks, room]
    exact fun differs => differs rfl
  have zeros : List.replicate length (0 : UInt8) = (List.ofFn fun _ : Fin n => List.replicate data.length 0).flatten := by
    have rows : (List.ofFn fun _ : Fin n => List.replicate data.length (0 : UInt8)) = List.replicate n (List.replicate data.length 0) := by
      simp [List.ofFn_const]
    rw [rows, List.flatten_replicate_replicate, room, Nat.mul_comm]
  have own : overlay (List.replicate length 0) (me.val * data.length) data = .ok (ownRow me data).flatten := by
    rw [zeros]
    exact overlay_row _ _ _ _ (by simp) (by simp) rfl
  have legs : (Seat.member me).peers.map (fun p => (⟨p, data.length, data⟩ : Leg)) =
      (peers me).map fun other : Fin n => (⟨other.val, data.length, data⟩ : Leg) := by
    rw [member_peers, List.map_map]
    rfl
  have heard (answers : List (Option Bytes)) : ((Seat.member me).peers.zip answers).foldlM (Seat.takeAnswer data.length)
      ((ownRow me data).flatten, none) = .ok ((Seat.landed data.length (ownRow me data) (((peers me).map Fin.val).zip answers)).flatten,
        fault ((((peers me).map Fin.val).zip answers).mapM fun next => Seat.checkGathered data.length next.1 next.2)) := by
    rw [member_peers]
    refine (Seat.take_answers _ _ _ _ (own_row_even me data) fun next member => ?_).trans (by simp)
    obtain ⟨other, -, same⟩ := List.mem_map.mp (List.of_mem_zip member).1
    rw [own_row_length, ← same]
    exact other.isLt
  rw [Seat.gatherInto, Work.run_on]
  simp only [Seat.gathering, Work.outcome_get_bind, if_neg fits, member_rank, own, Work.outcome_result_bind, Work.outcome_set_bind,
    Work.outcome_collective_bind, legs]
  have sent : (Collective.round Seat.gatherTag ((peers me).map fun other : Fin n => (⟨other.val, data.length, data⟩ : Leg))).run =
      .round Seat.gatherTag _ fun answers => .done (.ok answers) := rfl
  rw [sent, Program.bind_round, Program.bind_round]
  congr 1
  funext answers
  simp only [Program.bind, heard answers, filled]
  cases fault ((((peers me).map Fin.val).zip answers).mapM fun next => Seat.checkGathered data.length next.1 next.2) <;> rfl

theorem checked_answer (answer : Fin n → Option Bytes) (others : List Bytes)
    (checked : ((peers me).mapM fun other => Seat.checkGathered data.length other.val (answer other)) = .ok others)
    (other : Fin n) (member : other ∈ peers me) :
    Seat.checkGathered data.length other.val (answer other) = .ok ((answer other).getD []) := by
  obtain ⟨row, fine⟩ := map_m_each _ _ _ checked other member
  have given := (Seat.check_gathered_length _ _ _ _ fine).1
  rw [fine, given, Option.getD_some]

theorem landed_answers (answer : Fin n → Option Bytes)
    (each : ∀ other ∈ peers me, Seat.checkGathered data.length other.val (answer other) = .ok ((answer other).getD [])) :
    Seat.landed data.length (ownRow me data) ((peers me).map fun other => (other.val, answer other)) =
      (Seat.member me).place data ((peers me).map fun other => (answer other).getD []) := by
  have lands : Seat.landed data.length (ownRow me data) ((peers me).map fun other => (other.val, answer other)) =
      (peers me).foldl (fun rows other => rows.set other.val ((answer other).getD [])) (ownRow me data) := by
    rw [Seat.landed, List.foldl_map]
    refine List.foldl_ext _ _ _ fun rows other member => ?_
    rw [Seat.landNext, each other member]
  rw [lands, ownRow, set_of_fn, set_all_of_fn, place_peers]
  refine congrArg List.ofFn (funext fun other => ?_)
  by_cases own : other = me
  · simp [own, mem_peers]
  · simp [own, mem_peers]

theorem filled_answers (answer : Fin n → Option Bytes) :
    filled me data ((peers me).map answer) =
      ((peers me).mapM fun other => Seat.checkGathered data.length other.val (answer other)).map fun others =>
        ((Seat.member me).place data others).flatten := by
  have came : ((peers me).map Fin.val).zip ((peers me).map answer) = (peers me).map fun other => (other.val, answer other) :=
    List.zip_map'
  rw [filled]
  simp only [came, List.mapM_map, Function.comp_def]
  cases checked : (peers me).mapM fun other => Seat.checkGathered data.length other.val (answer other) with
  | error e => rfl
  | ok others =>
      have each := checked_answer me data answer others checked
      have same : others = (peers me).map fun other => (answer other).getD [] :=
        Except.ok.inj (checked.symm.trans (map_m_ok _ _ _ each))
      simp only [fault, landed_answers me data answer each, ← same]
      rfl

end Group

end Seam
