import Mathlib.Order.Bounds.Defs
import Seam.Mesh.Merge
import Seam.Proofs.Ragged

set_option autoImplicit false

namespace Seam

def Insertions.ofRows (rows : List (List Nat)) : Insertions := ⟨Ragged.index rows, rows.flatten⟩

theorem Insertions.check_ok_iff (ins : Insertions) (edges newVertices : Nat) : ins.check edges newVertices = .ok () ↔
    ∃ rows, ins = .ofRows rows ∧ rows.length = edges ∧ ∀ row ∈ rows, ∀ v ∈ row, v < newVertices := by
  constructor
  · intro ok
    by_cases entries : ins.index.length = edges + 1
    · have whole := Ragged.shaped_eq _ edges ins.vertices.length entries
      cases fit : Ragged.fits ins.index edges ins.vertices.length with
      | false => simp [check, entries, whole, fit, refuse, bind, Except.bind] at ok
      | true =>
          obtain ⟨rows, length, index, vertices⟩ := Ragged.fits_rows ins.index edges ins.vertices fit
          refine ⟨rows, by rw [ofRows, ← index, ← vertices], length, ?_⟩
          cases stray : ins.vertices.find? fun v => decide (newVertices ≤ v) with
          | some v => simp [check, entries, whole, fit, stray, refuse, bind, Except.bind] at ok
          | none =>
              rw [vertices] at stray
              exact List.forall_mem_flatten.mp fun v member => by simpa using List.find?_eq_none.mp stray v member
    · simp [check, entries, refuse, bind, Except.bind] at ok
  · rintro ⟨rows, rfl, length, below⟩
    have shape : Ragged.fits (ofRows rows).index edges (ofRows rows).vertices.length = true := length ▸ Ragged.fits_index rows
    have entries : (ofRows rows).index.length = edges + 1 := length ▸ Ragged.boundaries_length 0 rows
    have none : (ofRows rows).vertices.find? (fun v => decide (newVertices ≤ v)) = none := by
      rw [List.find?_eq_none]
      exact fun v member => by simpa using List.forall_mem_flatten.mpr below v member
    have whole := Ragged.shaped_eq _ edges (ofRows rows).vertices.length entries
    simp [check, entries, whole, shape, none, bind, Except.bind]

theorem Insertions.on_edge_rows (rows : List (List Nat)) (e : Nat) (row : List Nat) (found : rows[e]? = some row) :
    (ofRows rows).onEdge e = .ok row := Ragged.row_index rows e row found

namespace Mesh.Plan

variable (p : Plan) (m : Mesh)

theorem check_image_ok_iff : p.checkImage m = .ok () ↔ p.image.length = m.vertexCount ∧ ∀ new ∈ p.image, new < p.newVertices := by
  unfold checkImage
  constructor
  · intro ok
    split at ok
    · cases ok
    rename_i length
    split at ok
    · cases ok
    rename_i none
    refine ⟨not_not.mp length, fun new member => ?_⟩
    obtain ⟨old, found⟩ := List.getElem?_of_mem member
    simpa using List.find?_eq_none.mp none (new, old) (List.mem_zipIdx_iff_getElem?.mpr found)
  · rintro ⟨length, below⟩
    rw [if_neg (not_not.mpr length)]
    split
    · rename_i new old stray
      have listed := List.mem_of_getElem? (List.mem_zipIdx_iff_getElem?.mp (List.mem_of_find?_eq_some stray))
      exact absurd (below new listed) (by simpa using List.find?_some stray)
    · rfl

def Inserts (edges : Nat) (rows : List (List Nat)) : Prop :=
  match p.insertions with
  | none => rows = []
  | some ins => ins = .ofRows rows ∧ rows.length = edges ∧ ∀ row ∈ rows, ∀ v ∈ row, v < p.newVertices

theorem check_insertions_ok_iff (s : EdgeSet) (covers : s.vertexCount = m.vertexCount) :
    p.checkInsertions m s = .ok () ↔ ∃ rows, p.Inserts s.edgeCount rows := by
  cases given : p.insertions with
  | none => simp [checkInsertions, Inserts, given]
  | some ins =>
      simp only [checkInsertions, Inserts, given, if_neg (not_not.mpr covers)]
      exact ins.check_ok_iff _ _

def Recorded : Prop :=
  match p.table with
  | some table => table.length = p.newVertices
  | none => ∀ new < p.newVertices, new ∈ p.image

structure Provides (vertices : List Vertex) : Prop where
  given : ∀ table, p.table = some table → vertices = table
  count : vertices.length = p.newVertices
  inherited : p.table = none → ∀ new < p.newVertices, ∃ old : Nat,
    IsLeast {old : Nat | p.image[old]? = some new} old ∧ vertices[new]? = m.vertices[old]?

theorem idx_of_least (items : List Nat) (item i : Nat) (found : items.idxOf? item = some i) :
    IsLeast {j : Nat | items[j]? = some item} i := by
  obtain ⟨bound, here, before⟩ := List.idxOf?_eq_some_iff.mp found
  refine ⟨by simp [bound, here], fun j other => ?_⟩
  obtain ⟨inside, same⟩ := List.getElem?_eq_some_iff.mp other
  by_contra earlier
  exact before j (not_le.mp earlier) same

-- The table of new vertices when these are the images of the old ones so far: each new vertex has the record of the first
-- old one that goes there.
def heirs (newVertices : Nat) (vertices : List Vertex) (images : List Nat) : List (Option Vertex) :=
  (List.range newVertices).map fun new => (images.idxOf? new).bind fun old => vertices[old]?

theorem heir_append (vertices : List Vertex) (images : List Nat) (new other : Nat) (record : Vertex)
    (found : vertices[images.length]? = some record) :
    (((images ++ [new]).idxOf? other).bind fun old => vertices[old]?) =
      if other = new then ((images.idxOf? new).bind fun old => vertices[old]?) <|> some record
      else (images.idxOf? other).bind fun old => vertices[old]? := by
  have within (i : Nat) (known : images.idxOf? other = some i) : ∃ v, vertices[i]? = some v := by
    have earlier := (List.idxOf?_eq_some_iff.mp known).1
    have bound := (List.getElem?_eq_some_iff.mp found).1
    exact ⟨_, List.getElem?_eq_getElem (Nat.lt_trans earlier bound)⟩
  rw [List.idxOf?, List.findIdx?_append]
  cases known : images.idxOf? other with
  | some i =>
      obtain ⟨v, held⟩ := within i known
      rw [List.idxOf?] at known
      by_cases same : other = new
      · subst same
        simp [List.idxOf?, known, held]
      · simp [known, held, same]
  | none =>
      rw [List.idxOf?] at known
      by_cases same : other = new
      · subst same
        simp [List.idxOf?, known, found, List.findIdx?_cons]
      · simp [known, same, List.findIdx?_cons, Ne.symm same]

theorem cover_heirs (newVertices : Nat) (images : List Nat) (new : Nat) (below : new < newVertices)
    (inside : images.length < m.vertices.length) :
    cover m (heirs newVertices m.vertices images) (new, images.length) = .ok (heirs newVertices m.vertices (images ++ [new])) := by
  have record := List.getElem?_eq_getElem inside
  have old := (fetch_eq_ok_iff m.vertices images.length _).mpr record
  have heir (other : Nat) := heir_append m.vertices images new other _ record
  have stored := store_table newVertices (fun other => (images.idxOf? other).bind fun old => m.vertices[old]?)
    (fun other => ((images ++ [new]).idxOf? other).bind fun old => m.vertices[old]?) new below fun other apart =>
      (heir other).trans (if_neg apart)
  rw [heir new, if_pos rfl] at stored
  simp only [cover, heirs, fetch_table newVertices _ new below, old, bind, Except.bind]
  exact stored

theorem cover_all (newVertices : Nat) (images : List Nat) (below : ∀ new ∈ images, new < newVertices)
    (inside : images.length ≤ m.vertices.length) :
    images.zipIdx.foldlM (cover m) (List.replicate newVertices none) = .ok (heirs newVertices m.vertices images) := by
  induction images using List.reverseRecOn with
  | nil =>
      have blank : heirs newVertices m.vertices [] = (List.range newVertices).map fun _ => none := rfl
      rw [blank, List.map_const', List.length_range]
      rfl
  | append_singleton images new ih =>
      have bound : images.length < m.vertices.length := by simpa [Nat.succ_le_iff] using inside
      have front := ih (fun other member => below other (by simp [member])) (Nat.le_of_lt bound)
      have last := cover_heirs m newVertices images new (below new (by simp)) bound
      rw [List.zipIdx_append, List.foldlM_append, front, Nat.zero_add]
      change (cover m _ (new, images.length) >>= fun next => .ok next) = _
      rw [last]
      rfl

theorem covered_ok_iff (table : List (Option Vertex)) (vertices : List Vertex) :
    covered table = .ok vertices ↔ table = vertices.map some := by
  have bare := List.forall₂_map_left_iff (f := Prod.fst) (R := fun record v => record = some v) (l := table.zipIdx) (u := vertices)
  rw [List.zipIdx_map_fst] at bare
  rw [covered, map_m_ok_iff, ← List.forall₂_eq_eq_eq, List.forall₂_map_right_iff, bare]
  constructor
  · refine fun made => made.imp ?_
    rintro ⟨record, place⟩ v taken
    cases record with
    | some given => exact congrArg some (Except.ok.inj taken)
    | none => cases taken
  · refine fun given => given.imp ?_
    rintro ⟨record, place⟩ v (rfl : record = some v)
    rfl

section Given

variable (length : p.image.length = m.vertexCount) (below : ∀ new ∈ p.image, new < p.newVertices)

include length below

theorem inherited_vertices (absent : p.table = none) : p.vertices m = covered (heirs p.newVertices m.vertices p.image) := by
  have walk := cover_all m p.newVertices p.image below (Nat.le_of_eq length)
  simp only [Plan.vertices, absent, walk, bind, Except.bind]

theorem vertices_provide (vertices : List Vertex) (made : p.vertices m = .ok vertices) : p.Provides m vertices := by
  cases given : p.table with
  | some table =>
      simp only [Plan.vertices, given] at made
      split at made
      · rename_i count
        obtain rfl := Except.ok.inj made
        exact ⟨fun other same => Option.some.inj (given.symm.trans same), count, fun absent => by cases given.symm.trans absent⟩
      · cases made
  | none =>
      rw [inherited_vertices p m length below given, covered_ok_iff] at made
      have count : vertices.length = p.newVertices := by simpa [heirs] using (congrArg List.length made).symm
      refine ⟨fun table same => (by cases given.symm.trans same), count, fun _ new bound => ?_⟩
      have here : (heirs p.newVertices m.vertices p.image)[new]? = some ((p.image.idxOf? new).bind fun old => m.vertices[old]?) := by
        simp [heirs, bound]
      rw [made, List.getElem?_map, List.getElem?_eq_getElem (count ▸ bound), Option.map_some, Option.some.injEq] at here
      cases found : p.image.idxOf? new with
      | none => simp [found] at here
      | some old =>
          rw [found, Option.bind_some] at here
          exact ⟨old, idx_of_least _ _ _ found, (List.getElem?_eq_getElem (count ▸ bound)).trans here⟩

theorem vertices_ok_iff : (∃ vertices, p.vertices m = .ok vertices) ↔ p.Recorded := by
  cases given : p.table with
  | some table =>
      simp only [Plan.vertices, Recorded, given]
      constructor
      · rintro ⟨vertices, made⟩
        by_contra wrong
        rw [if_neg wrong] at made
        cases made
      · exact fun fits => ⟨table, if_pos fits⟩
  | none =>
      rw [inherited_vertices p m length below given, Recorded, given]
      constructor
      · rintro ⟨vertices, made⟩ new bound
        have provided := vertices_provide p m length below vertices ((inherited_vertices p m length below given).trans made)
        obtain ⟨old, least, _⟩ := provided.inherited given new bound
        exact List.mem_of_getElem? least.1
      · intro each
        refine map_m_exists _ _ fun item member => ?_
        obtain ⟨new, range, same⟩ := List.mem_map.mp (List.fst_mem_of_mem_zipIdx member)
        have bound : new ∈ p.image := each new (List.mem_range.mp range)
        obtain ⟨old, found⟩ := Option.isSome_iff_exists.mp (List.isSome_idxOf?.mpr bound)
        have inside : old < m.vertices.length := (List.idxOf?_eq_some_iff.mp found).1.trans_eq length
        obtain ⟨record, place⟩ := item
        obtain rfl : some m.vertices[old] = record := by simpa [found, inside] using same
        exact ⟨m.vertices[old], rfl⟩

theorem vertices_guarded : Guarded (p.vertices m) := by
  cases given : p.table with
  | some table =>
      simp only [Plan.vertices, given]
      split
      · exact guarded_ok _
      · exact guarded_refuse _
  | none =>
      rw [inherited_vertices p m length below given]
      refine guarded_map_m _ _ fun item _ => ?_
      obtain ⟨record, new⟩ := item
      cases record with
      | some v => exact guarded_ok v
      | none => exact guarded_refuse _

end Given

structure Fits (edges : Nat) (rows : List (List Nat)) : Prop where
  length : p.image.length = m.vertexCount
  below : ∀ new ∈ p.image, new < p.newVertices
  inserts : p.Inserts edges rows
  recorded : p.Recorded

end Mesh.Plan

end Seam
