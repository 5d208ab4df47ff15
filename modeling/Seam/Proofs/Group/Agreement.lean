import Mathlib.Algebra.BigOperators.Fin
import Mathlib.Data.Fin.VecNotation
import Seam.Proofs.Group.Orderly
import Seam.Proofs.Group.Reduction
import Seam.Proofs.RecordOrder

set_option autoImplicit false

namespace Seam.Group

def column {α : Type} (rows : List (List α)) (i : Nat) : List α := rows.filterMap fun row => row[i]?

theorem fold_columns {α : Type} (f : α → α → α) (start : List α) (rows : List (List α))
    (width : ∀ row ∈ rows, row.length = start.length) :
    rows.foldl (List.zipWith f) start = start.mapIdx fun i first => (column rows i).foldl f first := by
  induction rows generalizing start with
  | nil => exact List.ext_getElem (by simp) (by simp [column])
  | cons row rows ih =>
      have same := width row (by simp)
      have size : (List.zipWith f start row).length = start.length := by simp [same]
      rw [List.foldl_cons, ih _ fun other member => (width other (by simp [member])).trans size.symm]
      refine List.ext_getElem (by simp [same]) fun i _ bound => ?_
      have inside : i < row.length := by simpa [same] using bound
      simp [column, inside]

variable {n : Nat}

theorem fold_singles {α : Type} (f : α → α → α) (start : α) (items : Fin n → α) :
    (List.ofFn fun me => [items me]).foldl (List.zipWith f) [start] = [(List.ofFn items).foldl f start] := by
  have width : ∀ row ∈ List.ofFn fun me => [items me], row.length = [start].length := by simp
  have entries : column (List.ofFn fun me => [items me]) 0 = List.ofFn items := by
    simp [column, List.ofFn_eq_map, List.filterMap_map]
  rw [fold_columns _ _ _ width, List.mapIdx_singleton, entries]

theorem reduced_columns (r : Reducer) (records : Fin n → List Vertex) (length : Nat) (same : ∀ me, (records me).length = length)
    (me : Fin n) :
    reducedRecords r records me = .ok ((List.range length).map fun i => r.reduce (column (List.ofFn records) i)) := by
  have width : ∀ row ∈ List.ofFn records, row.length = (List.replicate length r.identity).length := by
    simp [same]
  rw [reduced_records_same_length r records length same me, fold_columns _ _ _ width]
  refine congrArg Except.ok (List.ext_getElem (by simp) fun i _ _ => ?_)
  simp [Reducer.reduce]

theorem reduced_ragged (r : Reducer) (records : Fin n → List Vertex) (counted : ∀ me, (records me).length < UInt64.size)
    (me : Fin n) (ragged : ∃ other, (records other).length ≠ (records me).length) :
    ∃ other, (records other).length ≠ (records me).length ∧
      reducedRecords r records me = refuse (.wire (.reduceCount (records me).length (.ofNat (records other).length))) := by
  have told : ∀ a b, UInt64.ofNat (records a).length = UInt64.ofNat (records b).length → (records a).length = (records b).length :=
    fun a b same => by
      have equal := congrArg UInt64.toNat same
      rwa [UInt64.toNat_ofNat_of_lt' (counted a), UInt64.toNat_ofNat_of_lt' (counted b)] at equal
  have noticed : ((List.ofFn fun other => UInt64.ofNat (records other).length).find?
      fun count => count ≠ .ofNat (records me).length).isSome := by
    obtain ⟨other, differs⟩ := ragged
    simp only [List.find?_isSome, List.mem_ofFn]
    exact ⟨_, ⟨other, rfl⟩, by simpa using fun same => differs (told other me same)⟩
  obtain ⟨count, first⟩ := Option.isSome_iff_exists.mp noticed
  obtain ⟨other, rfl⟩ := List.mem_ofFn.mp (List.mem_of_find?_eq_some first)
  have differs := List.find?_some first
  refine ⟨other, fun same => ?_, by rw [reducedRecords, first]⟩
  simp [same] at differs

def vertexTotal (meshes : Fin n → Mesh) : Nat := ∑ me, (meshes me).vertexCount

theorem words_summed (numbers : List Nat) (start : Nat) :
    (numbers.map UInt64.ofNat).foldl (· + ·) (.ofNat start) = UInt64.ofNat (start + numbers.sum) := by
  induction numbers generalizing start with
  | nil => simp
  | cons number numbers ih => rw [List.map_cons, List.foldl_cons, ← UInt64.ofNat_add, ih, List.sum_cons, Nat.add_assoc]

theorem totals_single (counts : Fin n → Nat) : totals (fun me => [UInt64.ofNat (counts me)]) 1 = [.ofNat (∑ me, counts me)] := by
  have total := words_summed (List.ofFn counts) 0
  rw [Nat.zero_add, List.sum_ofFn, List.map_ofFn] at total
  rw [totals, List.replicate_one, fold_singles]
  exact congrArg (fun sum => [sum]) total

def gatheredVertices (meshes : Fin n → Mesh) : List Vertex := (List.ofFn fun me => (meshes me).vertices).flatten

theorem gathered_vertices_length (meshes : Fin n → Mesh) : (gatheredVertices meshes).length = vertexTotal meshes := by
  simp [gatheredVertices, vertexTotal, Mesh.vertexCount, List.length_flatten, List.map_ofFn, List.sum_ofFn]

theorem reduced_reductions (r : Reducer) (meshes : Fin n → Mesh) :
    (List.ofFn fun me => [r.reduce (meshes me).vertices]).foldl (List.zipWith r.combine) [r.identity] =
      [r.reduce (gatheredVertices meshes)] := by
  have parts := Reducer.reduce_flatten r (List.ofFn fun me => (meshes me).vertices)
  rw [List.map_ofFn] at parts
  rw [fold_singles]
  exact congrArg (fun v => [v]) parts

theorem group_tolerances (meshes : Fin n → Mesh) (counted : vertexTotal meshes < UInt64.size) :
    groupTolerances meshes =
      if gatheredVertices meshes = [] then none
      else some ⟨Reducer.least.reduce (gatheredVertices meshes), Reducer.greatest.reduce (gatheredVertices meshes)⟩ := by
  have total : (totals (fun me => [UInt64.ofNat (meshes me).vertexCount]) 1).headD 0 = .ofNat (vertexTotal meshes) := by
    rw [totals_single]
    rfl
  have none : UInt64.ofNat (vertexTotal meshes) = 0 ↔ gatheredVertices meshes = [] := by
    rw [← List.length_eq_zero_iff, gathered_vertices_length, ← UInt64.toNat_inj, UInt64.toNat_ofNat_of_lt' counted]
    rfl
  simp only [groupTolerances, total, none, reduced_reductions, List.headD_cons]

-- Reductions of lists and of tolerances end alike on all ranks, however the records are spread and however the ranks take
-- turns. `all` stands for any order of the vertices of all ranks.
theorem reductions_agree (r : Reducer) (records : Fin n → List Vertex) (meshes : Fin n → Mesh)
    (listed : ∀ me, (records me).length < UInt64.size) (counted : vertexTotal meshes < UInt64.size) :
    (∃ results, Network.Settles (fun me => ((Seat.member me).reduceRecords r (records me)).run) results ∧
      (∀ length, (∀ me, (records me).length = length) →
        ∀ me, results me = .ok ((List.range length).map fun i => r.reduce (column (List.ofFn records) i))) ∧
      ((∃ a b, (records a).length ≠ (records b).length) → ∀ me, ∃ other, (records other).length ≠ (records me).length ∧
        results me = refuse (.wire (.reduceCount (records me).length (.ofNat (records other).length))))) ∧
    ∃ ranges, Network.Settles (fun me => (toleranceRange (Seat.member me) (meshes me)).run) ranges ∧
      ((∀ me, (meshes me).vertices = []) → ∀ me, ranges me = .ok none) ∧
      ∀ all, all.Perm (gatheredVertices meshes) → all ≠ [] →
        ∀ me, ranges me = .ok (some ⟨Reducer.least.reduce all, Reducer.greatest.reduce all⟩) := by
  have reducing := reduce_records_lockstep (fun _ => r) records
  have ranging := tolerance_range_lockstep meshes
  refine ⟨⟨_, settles_of_lockstep _ _ (fun _ => Seat.reduce_records_orderly _ _ _) reducing, ?same, ?ragged⟩,
    _, settles_of_lockstep _ _ (fun _ => tolerance_range_orderly _ _) ranging, ?nothing, ?all⟩
  case same => exact fun length same me => reduced_columns r records length same me
  case ragged =>
    rintro ⟨a, b, differs⟩ me
    refine reduced_ragged r records listed me ?_
    by_cases first : (records a).length = (records me).length
    · exact ⟨b, fun same => differs (first.trans same.symm)⟩
    · exact ⟨a, first⟩
  case nothing =>
    intro empty _
    have none : gatheredVertices meshes = [] := by simp [gatheredVertices, empty]
    rw [group_tolerances meshes counted, if_pos none]
  case all =>
    intro all same some _
    have held : gatheredVertices meshes ≠ [] := fun none => some (List.perm_nil.mp (none ▸ same))
    rw [group_tolerances meshes counted, if_neg held, Reducer.reduce_perm .least _ _ same, Reducer.reduce_perm .greatest _ _ same]

def plain (gnum tolerance : UInt64) : Vertex := ⟨gnum, ⟨tolerance⟩, ⟨⟨0⟩, ⟨0⟩, ⟨0⟩⟩⟩

theorem plain_records_reduced_alike :
    let records : Fin 2 → List Vertex := ![[plain 1 2, plain 2 7], [plain 3 5, plain 4 3]]
    let meshes : Fin 2 → Mesh := ![Mesh.empty "none", { Mesh.empty "pair" with vertices := [plain 1 2, plain 2 7] }]
    (∃ results, Network.Settles (fun me => ((Seat.member me).reduceRecords .least (records me)).run) results ∧
      ∀ me, results me = .ok [plain 1 2, plain 4 3]) ∧
    ∃ ranges, Network.Settles (fun me => (toleranceRange (Seat.member me) (meshes me)).run) ranges ∧
      ∀ me, ranges me = .ok (some ⟨plain 1 2, plain 2 7⟩) := by
  intro records meshes
  obtain ⟨⟨results, reducing, same, _⟩, ranges, ranging, _, all⟩ :=
    reductions_agree .least records meshes (by decide) (by decide)
  refine ⟨⟨results, reducing, fun me => ?_⟩, ranges, ranging, fun me => ?_⟩
  · rw [same 2 (by decide) me]
    decide
  · rw [all [plain 2 7, plain 1 2] (by decide) (by decide) me]
    decide

end Seam.Group
