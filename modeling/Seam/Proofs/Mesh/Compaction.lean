import Seam.Proofs.Mesh.Canonical

set_option autoImplicit false

namespace Seam.Mesh

open Assembly (Names)

structure Runs (seen : List (Vertex × Nat)) (kept : List Vertex) (renumbered : List (Nat × Nat)) : Prop where
  ascending : kept.Pairwise fun a b => a.gnum < b.gnum
  least : ∀ v ∈ kept, LeastCopy (seen.map Prod.fst) v
  last : ∀ item ∈ seen, ∃ last, kept.getLast? = some last ∧ item.1.gnum ≤ last.gnum
  known : ∀ item ∈ seen, ∃ new, (item.2, new) ∈ renumbered
  named : ∀ pair ∈ renumbered, ∃ v, (v, pair.1) ∈ seen ∧ (kept.map Vertex.gnum)[pair.2]? = some v.gnum

theorem known_more (seen : List (Vertex × Nat)) (renumbered : List (Nat × Nat)) (v : Vertex) (old new : Nat)
    (known : ∀ item ∈ seen, ∃ new, (item.2, new) ∈ renumbered) :
    ∀ item ∈ seen ++ [(v, old)], ∃ target, (item.2, target) ∈ (old, new) :: renumbered := by
  intro item member
  rcases List.mem_append.mp member with before | here
  · obtain ⟨target, listed⟩ := known item before
    exact ⟨target, List.mem_cons_of_mem _ listed⟩
  · obtain rfl : item = (v, old) := by simpa using here
    exact ⟨new, by simp⟩

theorem runs_same (seen : List (Vertex × Nat)) (kept : List Vertex) (renumbered : List (Nat × Nat)) (v : Vertex) (old : Nat)
    (runs : Runs seen kept renumbered) (after : ∀ item ∈ seen, vertexLe item.1 v = true)
    (same : kept.getLast?.map Vertex.gnum = some v.gnum) :
    Runs (seen ++ [(v, old)]) kept ((old, kept.length - 1) :: renumbered) where
  ascending := runs.ascending
  least w member := by
    have before := runs.least w member
    rw [List.map_append, List.map_singleton]
    refine ⟨List.mem_append_left _ before.held, fun copy listed gnum => ?_⟩
    rcases List.mem_append.mp listed with earlier | here
    · exact before.least copy earlier gnum
    · obtain rfl : copy = v := by simpa using here
      obtain ⟨item, known, rfl⟩ := List.mem_map.mp before.held
      exact compare_of_vertex_le item.1 copy (after item known) gnum.symm
  last item member := by
    rcases List.mem_append.mp member with earlier | here
    · exact runs.last item earlier
    · obtain rfl : item = (v, old) := by simpa using here
      obtain ⟨last, ends, equal⟩ := Option.map_eq_some_iff.mp same
      exact ⟨last, ends, UInt64.le_of_eq equal.symm⟩
  known := known_more seen renumbered v old _ runs.known
  named pair member := by
    rcases List.mem_cons.mp member with rfl | earlier
    · refine ⟨v, by simp, ?_⟩
      rw [← same, ← List.getLast?_map, List.getLast?_eq_getElem?, List.length_map]
    · obtain ⟨w, known, number⟩ := runs.named pair earlier
      exact ⟨w, List.mem_append_left _ known, number⟩

theorem runs_above (seen : List (Vertex × Nat)) (kept : List Vertex) (renumbered : List (Nat × Nat)) (v : Vertex)
    (runs : Runs seen kept renumbered) (after : ∀ item ∈ seen, vertexLe item.1 v = true)
    (other : kept.getLast?.map Vertex.gnum ≠ some v.gnum) : ∀ item ∈ seen, item.1.gnum < v.gnum := by
  intro item member
  obtain ⟨last, ends, le⟩ := runs.last item member
  obtain ⟨top, known, rfl⟩ := List.mem_map.mp (runs.least last (List.mem_of_getLast? ends)).held
  have upTo := gnum_le_of_vertex_le top.1 v (after top known)
  have different : top.1.gnum ≠ v.gnum := fun same => other (by rw [ends, Option.map_some, same])
  exact UInt64.lt_of_le_of_lt le (UInt64.lt_of_le_of_ne upTo different)

theorem runs_new (seen : List (Vertex × Nat)) (kept : List Vertex) (renumbered : List (Nat × Nat)) (v : Vertex) (old : Nat)
    (runs : Runs seen kept renumbered) (after : ∀ item ∈ seen, vertexLe item.1 v = true)
    (other : kept.getLast?.map Vertex.gnum ≠ some v.gnum) :
    Runs (seen ++ [(v, old)]) (kept ++ [v]) ((old, (kept ++ [v]).length - 1) :: renumbered) := by
  -- Copies of one number follow each other, so a new number is above all that were seen.
  have above := runs_above seen kept renumbered v runs after other
  have aboveKept : ∀ w ∈ kept, w.gnum < v.gnum := by
    intro w member
    obtain ⟨item, known, rfl⟩ := List.mem_map.mp (runs.least w member).held
    exact above item known
  refine ⟨?ascending, ?least, ?last, known_more seen renumbered v old _ runs.known, ?named⟩
  case ascending =>
    refine List.pairwise_append.mpr ⟨runs.ascending, by simp, fun w member x here => ?_⟩
    obtain rfl : x = v := by simpa using here
    exact aboveKept w member
  case least =>
    intro w member
    rw [List.map_append, List.map_singleton]
    rcases List.mem_append.mp member with earlier | here
    · exact LeastCopy.beside _ w v (runs.least w earlier) (UInt64.ne_of_lt (aboveKept w earlier)).symm
    · obtain rfl : w = v := by simpa using here
      refine LeastCopy.alone _ w fun listed => ?_
      obtain ⟨copy, known, same⟩ := List.mem_map.mp listed
      obtain ⟨item, before, rfl⟩ := List.mem_map.mp known
      exact UInt64.ne_of_lt (above item before) same
  case last =>
    intro item member
    refine ⟨v, by simp, ?_⟩
    rcases List.mem_append.mp member with earlier | here
    · exact UInt64.le_of_lt (above item earlier)
    · obtain rfl : item = (v, old) := by simpa using here
      exact UInt64.le_refl _
  case named =>
    intro pair member
    rcases List.mem_cons.mp member with rfl | earlier
    · exact ⟨v, by simp, by simp⟩
    · obtain ⟨w, known, number⟩ := runs.named pair earlier
      refine ⟨w, List.mem_append_left _ known, ?_⟩
      rw [List.map_append, List.getElem?_append_left (List.getElem?_eq_some_iff.mp number).1, number]

theorem merge_runs_spec (seen rest : List (Vertex × Nat)) (kept : List Vertex) (renumbered : List (Nat × Nat))
    (runs : Runs seen kept renumbered) (ordered : (seen ++ rest).Pairwise fun a b => vertexLe a.1 b.1 = true) :
    Runs (seen ++ rest) (mergeRuns kept renumbered rest).1 (mergeRuns kept renumbered rest).2 := by
  induction rest generalizing seen kept renumbered with
  | nil => simpa [mergeRuns] using runs
  | cons item rest ih =>
      obtain ⟨v, old⟩ := item
      have after : ∀ item ∈ seen, vertexLe item.1 v = true := fun item member =>
        (List.pairwise_append.mp ordered).2.2 item member (v, old) (by simp)
      rw [List.append_cons] at ordered ⊢
      rw [mergeRuns]
      by_cases same : kept.getLast?.map Vertex.gnum = some v.gnum
      · rw [if_pos same]
        exact ih _ _ _ (runs_same seen kept renumbered v old runs after same) ordered
      · rw [if_neg same]
        exact ih _ _ _ (runs_new seen kept renumbered v old runs after same) ordered

def usedVertices (m : Mesh) : List Vertex := look m.vertices m.faceRefs

structure Compacted (m result : Mesh) (removed : Nat) : Prop where
  valid : result.check = .ok ()
  name : result.name = m.name
  globalFaces : result.globalFaces = m.globalFaces
  globalVertices : result.globalVertices = m.globalVertices
  faceGnums : result.faceGnums = m.faceGnums
  faceIndex : result.faceIndex = m.faceIndex
  faces : result.faceKeys = m.faceKeys
  ascending : result.vertices.Pairwise fun a b => a.gnum < b.gnum
  used : ∀ i, i < result.vertexCount → i ∈ result.faceRefs
  vertices : ∀ v, v ∈ result.vertices ↔ LeastCopy m.usedVertices v
  removed : removed = m.vertexCount - result.vertexCount

section Compacting

variable (m : Mesh)

theorem mem_used_in_order (v : Vertex) (old : Nat) : (v, old) ∈ m.usedInOrder ↔ m.vertices[old]? = some v ∧ old ∈ m.faceRefs := by
  rw [usedInOrder, List.mem_filter, ordered_get, List.contains_iff_mem]

theorem mem_used_vertices (v : Vertex) : v ∈ m.usedVertices ↔ ∃ old, m.vertices[old]? = some v ∧ old ∈ m.faceRefs := by
  simp only [usedVertices, look, List.mem_filterMap, and_comm]

theorem used_held (v : Vertex) (used : v ∈ m.usedVertices) : v ∈ m.vertices := by
  obtain ⟨old, found, _⟩ := (mem_used_vertices m v).mp used
  exact List.mem_of_getElem? found

theorem mem_used_records (v : Vertex) : v ∈ m.usedInOrder.map Prod.fst ↔ v ∈ m.usedVertices := by
  rw [mem_used_vertices]
  constructor
  · intro member
    obtain ⟨item, listed, rfl⟩ := List.mem_map.mp member
    exact ⟨item.2, (mem_used_in_order m item.1 item.2).mp listed⟩
  · rintro ⟨old, both⟩
    exact List.mem_map.mpr ⟨(v, old), (mem_used_in_order m v old).mpr both, rfl⟩

theorem used_runs : Runs m.usedInOrder (mergeRuns [] [] m.usedInOrder).1 (mergeRuns [] [] m.usedInOrder).2 := by
  have start : Runs [] [] [] := by constructor <;> simp
  refine merge_runs_spec [] m.usedInOrder [] [] start (List.Pairwise.filter _ ?_)
  exact List.pairwise_mergeSort (fun a b c => vertex_le_trans a.1 b.1 c.1) (fun a b => vertex_le_total a.1 b.1) _

def target (old : Nat) : Nat := ((mergeRuns [] [] m.usedInOrder).2.lookup old).getD 0

theorem renumber_target (old : Nat) (v : Vertex) (found : m.vertices[old]? = some v) (used : old ∈ m.faceRefs) :
    renumber (mergeRuns [] [] m.usedInOrder).2 old = .ok (m.target old) ∧
      ((mergeRuns [] [] m.usedInOrder).1.map Vertex.gnum)[m.target old]? = some v.gnum := by
  have runs := used_runs m
  obtain ⟨some, listed⟩ := runs.known (v, old) ((mem_used_in_order m v old).mpr ⟨found, used⟩)
  cases lookup : (mergeRuns [] [] m.usedInOrder).2.lookup old with
  | none => simpa using List.lookup_eq_none_iff.mp lookup _ listed
  | some new =>
      have here : m.target old = new := by rw [target, lookup, Option.getD_some]
      obtain ⟨before, after, split, _⟩ := List.lookup_eq_some_iff.mp lookup
      obtain ⟨w, known, number⟩ := runs.named (old, new) (split ▸ by simp)
      obtain rfl : v = w := Option.some.inj (found.symm.trans ((mem_used_in_order m w old).mp known).1)
      rw [here]
      exact ⟨by rw [renumber, lookup], number⟩

theorem names_moved (numbers next : List UInt64) (move : Nat → Nat) (row : List Nat) (named : List UInt64)
    (names : Names numbers row named) (each : ∀ old ∈ row, next[move old]? = numbers[old]?) : Names next (row.map move) named := by
  induction names with
  | nil => exact .nil
  | @cons old number row named head _ ih =>
      exact .cons ((each old (by simp)).trans head) (ih fun other member => each other (by simp [member]))

def compacted : Mesh := { m with vertices := (mergeRuns [] [] m.usedInOrder).1, faceRefs := m.faceRefs.map m.target }

variable (rows : List (List Nat)) (laid : m.Laid rows)

include laid

theorem target_in_row (row : List Nat) (member : row ∈ rows) (old : Nat) (listed : old ∈ row) :
    (m.compacted.vertices.map Vertex.gnum)[m.target old]? = (m.vertices.map Vertex.gnum)[old]? := by
  have bound : old < m.vertices.length := laid.inside row member old listed
  have used : old ∈ m.faceRefs := laid.refs ▸ List.mem_flatten.mpr ⟨row, member, listed⟩
  have found : m.vertices[old]? = some m.vertices[old] := by simp [bound]
  calc _ = some m.vertices[old].gnum := (renumber_target m old _ found used).2
    _ = (m.vertices.map Vertex.gnum)[old]? := by rw [List.getElem?_map, found, Option.map_some]

theorem compacted_laid : m.compacted.Laid (rows.map (List.map m.target)) where
  count := by
    rw [List.length_map]
    exact laid.count
  index := laid.index.trans (Ragged.index_map m.target rows).symm
  refs := by rw [compacted, laid.refs, List.map_flatten]
  inside := by
    simp only [List.forall_mem_map]
    intro row member old listed
    have bound : old < (m.vertices.map Vertex.gnum).length := by
      rw [List.length_map]
      exact laid.inside row member old listed
    have number := (target_in_row m rows laid row member old listed).trans (List.getElem?_eq_getElem bound)
    have inside := (List.getElem?_eq_some_iff.mp number).1
    rwa [List.length_map] at inside

theorem compacted_keys : m.compacted.faceKeys = m.faceKeys := by
  refine face_keys_unique _ _ (compacted_laid m rows laid) m.faceKeys (face_keys_numbers m rows laid).symm ?_
  rw [List.forall₂_map_left_iff]
  have names := face_keys_names m rows laid
  refine List.forall₂_iff_get.mpr ⟨names.length_eq, fun f bound boundKey => ?_⟩
  exact names_moved _ _ m.target _ _ (names.get bound boundKey) (target_in_row m rows laid _ (List.get_mem rows ⟨f, bound⟩))

omit laid in
theorem compacted_ascends : m.compacted.vertices.Pairwise fun a b => a.gnum < b.gnum := (used_runs m).ascending

omit laid in
theorem compacted_distinct : (m.compacted.vertices.map Vertex.gnum).Nodup :=
  List.pairwise_map.mpr ((compacted_ascends m).imp UInt64.ne_of_lt)

omit laid in
theorem compacted_vertices (v : Vertex) : v ∈ m.compacted.vertices ↔ LeastCopy m.usedVertices v := by
  have runs := used_runs m
  constructor
  · intro member
    exact (LeastCopy.congr _ _ v fun copy => mem_used_records m copy).mp (runs.least v member)
  · intro least
    obtain ⟨old, found, used⟩ := (mem_used_vertices m v).mp least.held
    obtain ⟨_, number⟩ := renumber_target m old v found used
    obtain ⟨w, place, same⟩ : ∃ w, m.compacted.vertices[m.target old]? = some w ∧ w.gnum = v.gnum := by simpa [compacted] using number
    have kept := List.mem_of_getElem? place
    have equal := LeastCopy.unique _ _ w v (runs.least w kept) least same fun copy => mem_used_records m copy
    rwa [← equal]

omit laid in
theorem compacted_used (i : Nat) (bound : i < m.compacted.vertexCount) : i ∈ m.compacted.faceRefs := by
  have inside : i < m.compacted.vertices.length := bound
  have held := (compacted_vertices m m.compacted.vertices[i]).mp (List.getElem_mem inside)
  obtain ⟨old, found, used⟩ := (mem_used_vertices m _).mp held.held
  have number := (renumber_target m old _ found used).2
  have here : (m.compacted.vertices.map Vertex.gnum)[i]? = some m.compacted.vertices[i].gnum := by simp [inside]
  obtain rfl := (List.getElem?_inj (by simpa using inside) (compacted_distinct m)).mp (here.trans number.symm)
  exact List.mem_map_of_mem used

omit laid in
theorem compact_spec (valid : m.check = .ok ()) : ∃ removed, m.compact = .ok (m.compacted, removed) ∧ Compacted m m.compacted removed := by
  obtain ⟨rows, laid⟩ := (check_ok_iff m).mp valid
  refine ⟨m.vertexCount - m.compacted.vertexCount, compact_renumbered m valid m.target fun old member => ?_, ?_⟩
  · have bound : old < m.vertices.length := refs_inside m valid old member
    exact (renumber_target m old m.vertices[old] (by simp [bound]) member).1
  · exact ⟨(check_ok_iff _).mpr ⟨_, compacted_laid m rows laid⟩, rfl, rfl, rfl, rfl, rfl, compacted_keys m rows laid,
      compacted_ascends m, compacted_used m, compacted_vertices m, rfl⟩

omit laid in
theorem compact_ordered (valid : m.check = .ok ()) (pairs : List (Vertex × Nat)) (ordered : m.orderedVertices = pairs) :
    let runs := mergeRuns [] [] (pairs.filter fun item => m.faceRefs.contains item.2)
    m.compact = .ok ({ m with vertices := runs.1, faceRefs := m.faceRefs.map fun old => (runs.2.lookup old).getD 0 },
      m.vertexCount - runs.1.length) := by
  obtain ⟨removed, done, spec⟩ := compact_spec m valid
  subst ordered
  rw [done, spec.removed]
  rfl

-- The references are written one by one, but none of them is refused any more.
omit laid in
theorem compacting_atomic : compacting.Atomic m := by
  intro e fails
  cases valid : m.check with
  | error cause => simp [compacting, valid]
  | ok _ =>
      obtain ⟨removed, done, _⟩ := compact_spec m valid
      cases fails.symm.trans ((Edit.outcome_ok_iff ..).mp done).1

end Compacting

theorem look_numbers (vertices : List Vertex) (row : List Nat) :
    (look vertices row).map Vertex.gnum = row.filterMap fun v => (vertices.map Vertex.gnum)[v]? := by
  rw [look, List.map_filterMap]
  exact List.filterMap_congr fun v _ => List.getElem?_map.symm

section References

variable (m : Mesh) (valid : m.check = .ok ())

include valid

theorem facets_records : m.facets.flatMap Prod.snd = m.usedVertices := by
  obtain ⟨rows, laid⟩ := (check_ok_iff m).mp valid
  have count : rows.length = m.faceGnums.length := laid.count
  have records : (List.zipWith (fun gnum row => (gnum, look m.vertices row)) m.faceGnums rows).map Prod.snd =
      rows.map (look m.vertices) := by
    rw [List.map_zipWith]
    exact List.ext_getElem (by simp [count]) fun f _ _ => by simp
  rw [List.flatMap_def, facets_laid m rows laid, records, usedVertices, look, laid.refs, List.filterMap_flatten]
  rfl

theorem compacted_numbers :
    (look m.compacted.vertices m.compacted.faceRefs).map Vertex.gnum = m.usedVertices.map Vertex.gnum := by
  obtain ⟨rows, laid⟩ := (check_ok_iff m).mp valid
  rw [usedVertices, look_numbers, look_numbers]
  change (m.faceRefs.map m.target).filterMap _ = _
  rw [List.filterMap_map]
  refine List.filterMap_congr fun old member => ?_
  obtain ⟨row, listed, inRow⟩ := List.mem_flatten.mp (laid.refs ▸ member)
  exact target_in_row m rows laid row listed old inRow

omit valid in
theorem compacted_fewer : m.compacted.vertexCount ≤ m.vertexCount := by
  have distinct : m.compacted.vertices.Nodup := (compacted_distinct m).of_map Vertex.gnum
  have held : m.compacted.vertices ⊆ m.vertices := fun v member => used_held m v ((compacted_vertices m v).mp member).held
  exact distinct.length_le_of_subset held

theorem compact_keeps_least_copies :
    ∃ result removed before after, m.compact = .ok (result, removed) ∧
      result = { m with vertices := result.vertices, faceRefs := result.faceRefs } ∧
      m.records m.faceRefs = .ok before ∧ result.records result.faceRefs = .ok after ∧
      after.map Vertex.gnum = before.map Vertex.gnum ∧
      (result.vertices.Pairwise fun a b => a.gnum < b.gnum) ∧ (∀ i, i < result.vertexCount → i ∈ result.faceRefs) ∧
      (∀ v, v ∈ result.vertices ↔ LeastCopy before v) ∧
      result.vertexCount + removed = m.vertexCount ∧ result.compact = .ok (result, 0) := by
  obtain ⟨removed, done, spec⟩ := compact_spec m valid
  have before := records_inside m m.faceRefs (refs_inside m valid)
  have after := records_inside m.compacted m.compacted.faceRefs (refs_inside _ spec.valid)
  have total : m.compacted.vertexCount + removed = m.vertexCount := by
    rw [spec.removed]
    exact Nat.add_sub_cancel' (compacted_fewer m)
  exact ⟨m.compacted, removed, _, _, done, rfl, before, after, compacted_numbers m valid, spec.ascending, spec.used,
    spec.vertices, total, compact_stays _ spec.valid spec.ascending spec.used⟩

end References

def bristle (gnum tolerance height : UInt64) : Vertex := ⟨gnum, ⟨tolerance⟩, ⟨⟨0⟩, ⟨0⟩, ⟨height⟩⟩⟩

def tuft : Mesh :=
  { empty "tuft" with
    faceGnums := [1, 2], faceIndex := [0, 3, 6], faceRefs := [0, 1, 3, 4, 3, 0]
    vertices := [bristle 5 0x7FF8000000000000 0, bristle 3 0x4000000000000000 0, bristle 9 0 0, bristle 5 0x3FF0000000000000 0,
      bristle 3 0x4000000000000000 0x8000000000000000, bristle 5 0 0] }

def trimmed : List Vertex := [bristle 3 0x4000000000000000 0x8000000000000000, bristle 5 0x3FF0000000000000 0]

theorem tuft_compacts :
    tuft.check = .ok () ∧ ∃ result after, tuft.compact = .ok (result, 4) ∧ result.records result.faceRefs = .ok after ∧
      after.map Vertex.gnum = [5, 3, 5, 3, 5, 5] ∧ result.vertices.Perm trimmed ∧ result.compact = .ok (result, 0) := by
  have valid : tuft.check = .ok () := by decide
  obtain ⟨result, removed, before, after, done, _, looked, found, numbers, ascending, _, least, total, again⟩ :=
    compact_keeps_least_copies tuft valid
  obtain rfl : before = tuft.usedVertices := Except.ok.inj (looked.symm.trans rfl)
  have distinct : result.vertices.Nodup := .of_map Vertex.gnum (List.pairwise_map.mpr (ascending.imp UInt64.ne_of_lt))
  have held : ∀ v ∈ trimmed, v ∈ tuft.usedVertices ∧ ∀ copy ∈ tuft.usedVertices, copy.gnum = v.gnum → v.compare copy ≠ .gt := by
    decide
  have only : ∀ v ∈ tuft.usedVertices, (∀ copy ∈ tuft.usedVertices, copy.gnum = v.gnum → v.compare copy ≠ .gt) → v ∈ trimmed := by
    decide
  have kept : result.vertices.Perm trimmed := (List.perm_ext_iff_of_nodup distinct (by decide)).mpr fun v =>
    (least v).trans ⟨fun copy => only v copy.held copy.least, fun member => ⟨(held v member).1, (held v member).2⟩⟩
  have four : removed = 4 := by
    have two : result.vertices.length = 2 := kept.length_eq
    change result.vertices.length + removed = 6 at total
    omega
  exact ⟨valid, result, after, four ▸ done, found, numbers, kept, again⟩

end Seam.Mesh
