import Seam.Mesh.Canonical
import Seam.Proofs.Edit
import Seam.Proofs.Mesh.Layout

set_option autoImplicit false

namespace Seam.Mesh

section Tables

variable {α : Type}

-- The table has at each position what the first pair for it says.
structure Tabled (table : List α) (size : Nat) (pairs : List (Nat × α)) : Prop where
  size : table.length = size
  found : ∀ v new, pairs.lookup v = some new → table[v]? = some new

theorem tabled_blank (size : Nat) (fill : α) : Tabled (List.replicate size fill) size [] :=
  ⟨List.length_replicate, fun _ _ found => by cases found⟩

theorem tabled_store (table : List α) (size : Nat) (pairs : List (Nat × α)) (tabled : Tabled table size pairs) (v : Nat) (new : α)
    (inside : v < size) : ∃ next, store table v new = .ok next ∧ Tabled next size ((v, new) :: pairs) := by
  have bound : v < table.length := tabled.size ▸ inside
  refine ⟨_, store_ok table v new bound, (List.length_set ..).trans tabled.size, fun w other found => ?_⟩
  by_cases same : w = v
  · subst same
    obtain rfl : new = other := by simpa using found
    exact List.getElem?_set_self bound
  · have apart : (w == v) = false := by simpa using same
    rw [List.lookup_cons, apart] at found
    rw [List.getElem?_set_ne (Ne.symm same)]
    exact tabled.found w other found

theorem tabled_stores (table : List α) (size : Nat) (pairs more : List (Nat × α)) (tabled : Tabled table size pairs)
    (inside : ∀ pair ∈ more, pair.1 < size) :
    ∃ last, more.foldlM (fun table pair => store table pair.1 pair.2) table = .ok last ∧ Tabled last size (more.reverse ++ pairs) := by
  induction more generalizing table pairs with
  | nil => exact ⟨table, rfl, tabled⟩
  | cons pair more ih =>
      obtain ⟨next, stored, first⟩ := tabled_store table size pairs tabled pair.1 pair.2 (inside pair (by simp))
      obtain ⟨last, run, rest⟩ := ih next _ first fun other member => inside other (by simp [member])
      refine ⟨last, ?_, ?_⟩
      · rw [List.foldlM_cons, stored]
        exact run
      · rw [List.reverse_cons, List.append_assoc, List.singleton_append]
        exact rest

end Tables

def renumber (pairs : List (Nat × Nat)) (v : Nat) : Result Nat :=
  match pairs.lookup v with
  | some new => .ok new
  | none => .error .outOfBounds

theorem renumber_ok_iff (pairs : List (Nat × Nat)) (v new : Nat) : renumber pairs v = .ok new ↔ pairs.lookup v = some new := by
  cases found : pairs.lookup v <;> simp [renumber, found]

theorem tabled_fetch (table : List Nat) (size : Nat) (pairs : List (Nat × Nat)) (tabled : Tabled table size pairs) (v new : Nat)
    (renumbered : renumber pairs v = .ok new) : fetch table v = .ok new :=
  (fetch_eq_ok_iff table v new).mpr (tabled.found v new ((renumber_ok_iff pairs v new).mp renumbered))

theorem tabled_row (table : List Nat) (size : Nat) (pairs : List (Nat × Nat)) (tabled : Tabled table size pairs) (row moved : List Nat)
    (renumbered : row.mapM (renumber pairs) = .ok moved) : row.mapM (fetch table) = .ok moved := by
  rw [map_m_ok_iff] at renumbered ⊢
  exact renumbered.imp fun v new => tabled_fetch table size pairs tabled v new

theorem marked_ok (size : Nat) (positions : List Nat) (inside : ∀ v ∈ positions, v < size) :
    marked size positions = .ok ((List.range size).map fun v => decide (v ∈ positions)) := by
  induction positions using List.reverseRecOn with
  | nil =>
      have blank : ((List.range size).map fun v => decide (v ∈ ([] : List Nat))) = List.replicate size false := by
        simp
      rw [blank]
      rfl
  | append_singleton positions w ih =>
      have front := ih fun v member => inside v (by simp [member])
      have last := store_table size (fun v => decide (v ∈ positions)) (fun v => decide (v ∈ positions ++ [w])) w (inside w (by simp))
        fun v apart => by simp [apart]
      have listed : decide (w ∈ positions ++ [w]) = true := by simp
      rw [marked] at front ⊢
      rw [List.foldlM_append, front]
      rw [listed] at last
      change (store _ w true >>= fun next => .ok next) = _
      rw [last]
      rfl

section Runs

def mergeRuns : List Vertex → List (Nat × Nat) → List (Vertex × Nat) → List Vertex × List (Nat × Nat)
  | kept, renumbered, [] => (kept, renumbered)
  | kept, renumbered, (v, old) :: rest =>
      let kept := if kept.getLast?.map Vertex.gnum = some v.gnum then kept else kept ++ [v]
      mergeRuns kept ((old, kept.length - 1) :: renumbered) rest

theorem merge_run_loop (items : List (Vertex × Nat)) (kept : List Vertex) (pairs : List (Nat × Nat)) (places : List Nat) (size : Nat)
    (tabled : Tabled places size pairs) (inside : ∀ item ∈ items, item.2 < size) :
    ∃ last, items.foldlM mergeRun (kept, places) = .ok ((mergeRuns kept pairs items).1, last) ∧
      Tabled last size (mergeRuns kept pairs items).2 := by
  induction items generalizing kept pairs places with
  | nil => exact ⟨places, rfl, tabled⟩
  | cons item items ih =>
      let next := if kept.getLast?.map Vertex.gnum = some item.1.gnum then kept else kept ++ [item.1]
      obtain ⟨table, stored, first⟩ := tabled_store places size pairs tabled item.2 (next.length - 1) (inside item (by simp))
      have step : mergeRun (kept, places) item = .ok (next, table) := by
        rw [mergeRun]
        simp only [next] at stored
        simp only [stored, bind, Except.bind]
        rfl
      rw [List.foldlM_cons, step]
      exact ih next _ table first fun other member => inside other (by simp [member])

end Runs

section Redirecting

theorem redirect_run (m : Mesh) (places : List Nat) (i v place : Nat) (found : fetch m.faceRefs i = .ok v)
    (placed : fetch places v = .ok place) :
    (redirect places i).run.run m = (.ok (), { m with faceRefs := m.faceRefs.set i place }) := by
  change (Edit.ofResult (fetch m.faceRefs i) >>= fun v => Edit.ofResult (fetch places v) >>= fun place =>
    modify fun m => { m with faceRefs := m.faceRefs.set i place } : Edit Mesh PUnit).run.run m = _
  rw [found, Edit.ok_bind, placed, Edit.ok_bind]
  rfl

theorem redirect_front (m : Mesh) (places : List Nat) (move : Nat → Nat)
    (placed : ∀ v ∈ m.faceRefs, fetch places v = .ok (move v)) (k : Nat) (upTo : k ≤ m.faceRefs.length) :
    (forM (List.range k) (redirect places) : Edit Mesh PUnit).run.run m =
      (.ok (), { m with faceRefs := (m.faceRefs.take k).map move ++ m.faceRefs.drop k }) := by
  induction k with
  | zero => rfl
  | succ k ih =>
      have bound : k < m.faceRefs.length := upTo
      have count : ((m.faceRefs.take k).map move).length = k := by simp [Nat.le_of_lt bound]
      have current : ((m.faceRefs.take k).map move ++ m.faceRefs.drop k)[k]? = some m.faceRefs[k] := by
        rw [List.getElem?_append_right (Nat.le_of_eq count), count, Nat.sub_self, List.getElem?_drop, Nat.add_zero,
          List.getElem?_eq_getElem bound]
      have replaced : ((m.faceRefs.take k).map move ++ m.faceRefs.drop k).set k (move m.faceRefs[k]) =
          (m.faceRefs.take (k + 1)).map move ++ m.faceRefs.drop (k + 1) := by
        rw [List.set_append_right _ _ (Nat.le_of_eq count), count, Nat.sub_self, List.drop_eq_getElem_cons bound, List.set_cons_zero,
          List.take_succ_eq_append_getElem bound, List.map_append, List.map_singleton, List.append_assoc, List.singleton_append]
      have last := redirect_run { m with faceRefs := (m.faceRefs.take k).map move ++ m.faceRefs.drop k } places k _ _
        ((fetch_eq_ok_iff _ k _).mpr current) (placed m.faceRefs[k] (List.getElem_mem bound))
      rw [List.range_succ, List.forM_append, Edit.run_bind, ih (Nat.le_of_lt bound)]
      dsimp only
      rw [List.forM_cons, Edit.run_bind, last, replaced]
      rfl

theorem redirect_all (m : Mesh) (places : List Nat) (move : Nat → Nat) (placed : ∀ v ∈ m.faceRefs, fetch places v = .ok (move v)) :
    (forM (List.range m.faceRefs.length) (redirect places) : Edit Mesh PUnit).run.run m =
      (.ok (), { m with faceRefs := m.faceRefs.map move }) := by
  rw [redirect_front m places move placed _ (Nat.le_refl _), List.take_length, List.drop_length, List.append_nil]

end Redirecting

section Compacting

variable (m : Mesh)

def usedInOrder : List (Vertex × Nat) := m.orderedVertices.filter fun item => m.faceRefs.contains item.2

theorem ordered_perm : m.orderedVertices.Perm m.vertices.zipIdx := List.mergeSort_perm _ _

theorem ordered_get (v : Vertex) (old : Nat) : (v, old) ∈ m.orderedVertices ↔ m.vertices[old]? = some v :=
  (ordered_perm m).mem_iff.trans List.mem_zipIdx_iff_getElem?

theorem ordered_inside (item : Vertex × Nat) (member : item ∈ m.orderedVertices) : item.2 < m.vertexCount :=
  (List.getElem?_eq_some_iff.mp ((ordered_get m item.1 item.2).mp member)).1

theorem compact_renumbered (valid : m.check = .ok ()) (move : Nat → Nat)
    (moved : ∀ v ∈ m.faceRefs, renumber (mergeRuns [] [] m.usedInOrder).2 v = .ok (move v)) :
    m.compact = .ok ({ m with vertices := (mergeRuns [] [] m.usedInOrder).1, faceRefs := m.faceRefs.map move },
      m.vertexCount - (mergeRuns [] [] m.usedInOrder).1.length) := by
  have marks := marked_ok m.vertexCount m.faceRefs (refs_inside m valid)
  have filtered : m.orderedVertices.filterM
      (fun item => fetch ((List.range m.vertexCount).map fun v => decide (v ∈ m.faceRefs)) item.2) = .ok m.usedInOrder := by
    refine filter_m_ok _ _ _ fun item member => ?_
    rw [fetch_table m.vertexCount _ item.2 (ordered_inside m item member), List.contains_eq_mem]
  obtain ⟨places, merged, tabled⟩ := merge_run_loop m.usedInOrder [] [] _ m.vertexCount (tabled_blank m.vertexCount unplaced)
    fun item member => ordered_inside m item (List.mem_filter.mp member).1
  have redirected := redirect_all m places move fun v member => tabled_fetch places _ _ tabled v _ (moved v member)
  refine Edit.outcome_of_run _ _ _ _ ?_
  simp only [compacting, Edit.run_get_bind, valid, marks, filtered, merged, Edit.ok_bind]
  exact (Edit.run_bind _ _ _).trans (redirected ▸ rfl)

end Compacting

end Seam.Mesh
