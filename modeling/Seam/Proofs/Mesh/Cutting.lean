import Seam.Mesh.Subset
import Seam.Proofs.Mesh.Facets
import Seam.Proofs.Mesh.Places

set_option autoImplicit false

namespace Seam

theorem idx_of_member {α : Type} [DecidableEq α] (items : List α) (item : α) (member : item ∈ items) :
    items.idxOf? item = some (items.idxOf item) := by
  have bound := List.idxOf_lt_length_of_mem member
  exact List.idxOf?_eq_some_iff.mpr ⟨bound, List.getElem_idxOf bound, fun i before => by simpa using List.not_of_lt_findIdx before⟩

theorem filter_map_get {α β : Type} (g : α → Option β) (items : List α) (each : ∀ a ∈ items, ∃ b, g a = some b) (i : Nat)
    (a : α) (place : items[i]? = some a) : (items.filterMap g)[i]? = g a := by
  induction items generalizing i with
  | nil => cases place
  | cons first items ih =>
      obtain ⟨b, found⟩ := each first (by simp)
      rw [List.filterMap_cons_some found]
      cases i with
      | zero =>
          obtain rfl : first = a := by simpa using place
          simp [found]
      | succ i => exact ih (fun other member => each other (by simp [member])) i (by simpa using place)

namespace Mesh

theorem look_get (vertices : List Vertex) (kept : List Nat) (inside : ∀ v ∈ kept, v < vertices.length) (i v : Nat)
    (place : kept[i]? = some v) : (look vertices kept)[i]? = vertices[v]? :=
  filter_map_get (fun v => vertices[v]?) kept (fun v member => ⟨_, List.getElem?_eq_getElem (inside v member)⟩) i v place

theorem look_located (vertices : List Vertex) (kept row : List Nat) (inside : ∀ v ∈ kept, v < vertices.length)
    (among : ∀ v ∈ row, v ∈ kept) : look (look vertices kept) (row.map kept.idxOf) = look vertices row := by
  rw [look, List.filterMap_map, look]
  refine List.filterMap_congr fun v member => ?_
  have bound := List.idxOf_lt_length_of_mem (among v member)
  exact look_get vertices kept inside (kept.idxOf v) v (by simp [bound])

def keptFor (parent : Mesh) (faces : List (List Nat)) : List Nat :=
  (List.range parent.vertexCount).filter fun v => faces.flatten.contains v

section Taking

variable (name : String) (parent : Mesh) (positions : List Nat)

-- The walk has taken these vertices over, in this order, and noted where they are now.
structure Taken (kept : List Nat) (state : Mesh × List Nat) : Prop where
  vertices : state.1 = { empty name with vertices := look parent.vertices kept }
  size : state.2.length = parent.vertexCount
  placed : ∀ v ∈ kept, state.2[v]? = some (kept.idxOf v)

theorem look_append (vertices : List Vertex) (kept : List Nat) (v : Nat) (inside : v < vertices.length) :
    look vertices (kept ++ [v]) = look vertices kept ++ [vertices[v]] := by simp [look, inside]

theorem look_length (vertices : List Vertex) (kept : List Nat) (inside : ∀ v ∈ kept, v < vertices.length) :
    (look vertices kept).length = kept.length := by
  induction kept with
  | nil => rfl
  | cons v kept ih =>
      have rest := ih fun other member => inside other (by simp [member])
      rw [look, List.filterMap_cons, List.getElem?_eq_getElem (inside v (by simp)), List.length_cons, List.length_cons]
      exact congrArg (· + 1) rest

theorem take_vertex_used (kept : List Nat) (state : Mesh × List Nat) (taken : Taken name parent kept state) (v : Nat)
    (within : ∀ w ∈ kept, w < parent.vertexCount) (inside : v < parent.vertexCount) (fresh : v ∉ kept) :
    ∃ next, parent.takeVertex state (true, v) = .ok next ∧ Taken name parent (kept ++ [v]) next := by
  obtain ⟨m, places⟩ := state
  obtain ⟨rfl, size, placed⟩ := taken
  have known : fetch parent.vertices v = .ok parent.vertices[v] := (fetch_eq_ok_iff _ _ _).mpr (List.getElem?_eq_getElem inside)
  have count : (look parent.vertices kept).length = kept.length := look_length parent.vertices kept within
  have stored := store_ok places v kept.length (size ▸ inside)
  refine ⟨({ empty name with vertices := look parent.vertices (kept ++ [v]) }, places.set v kept.length), ?_, rfl, ?_, fun w member => ?_⟩
  · simp only [takeVertex, if_true, pushVertex, known, vertexCount, count, stored, bind, Except.bind, pure, Except.pure,
      look_append parent.vertices kept v inside]
  · rw [List.length_set, size]
  · rcases List.mem_append.mp member with old | new
    · have apart : v ≠ w := fun same => fresh (same ▸ old)
      rw [List.getElem?_set_ne apart, placed w old, List.idxOf_append_of_mem old]
    · obtain rfl : w = v := by simpa using new
      rw [List.getElem?_set_self (size ▸ inside), List.idxOf_append_of_notMem fresh]
      simp

theorem take_vertices (upTo : Nat) (inside : upTo ≤ parent.vertexCount) :
    ∃ state, (List.range upTo).foldlM (fun state v => parent.takeVertex state (decide (v ∈ positions), v))
        (empty name, List.replicate parent.vertexCount unplaced) = .ok state ∧
      Taken name parent ((List.range upTo).filter fun v => positions.contains v) state := by
  -- The vertices kept so far lie below the next one, so its place is new.
  induction upTo with
  | zero => exact ⟨_, rfl, rfl, List.length_replicate, by simp⟩
  | succ v ih =>
      obtain ⟨state, run, taken⟩ := ih (Nat.le_of_succ_le inside)
      have within : ∀ w ∈ (List.range v).filter (fun w => positions.contains w), w < v := fun w member =>
        List.mem_range.mp (List.mem_of_mem_filter member)
      rw [List.range_succ, List.foldlM_append, run, List.filter_append]
      by_cases used : v ∈ positions
      · obtain ⟨next, step, further⟩ := take_vertex_used name parent _ state taken v
          (fun w member => Nat.lt_of_lt_of_le (within w member) (Nat.le_of_succ_le inside)) inside
          fun known => Nat.lt_irrefl v (within v known)
        refine ⟨next, ?_, by simpa [used] using further⟩
        change (parent.takeVertex state (decide (v ∈ positions), v) >>= fun next => .ok next) = _
        rw [decide_eq_true used, step]
        rfl
      · refine ⟨state, ?_, by simpa [used] using taken⟩
        change (parent.takeVertex state (decide (v ∈ positions), v) >>= fun next => .ok next) = _
        rw [decide_eq_false used]
        rfl

theorem take_marked (faces : List (List Nat)) : ∃ places,
    ((List.range parent.vertexCount).map fun v => decide (v ∈ faces.flatten)).zipIdx.foldlM parent.takeVertex
        (empty name, List.replicate parent.vertexCount unplaced) =
      .ok ({ empty name with vertices := look parent.vertices (parent.keptFor faces) }, places) ∧
    ∀ v ∈ parent.keptFor faces, places[v]? = some ((parent.keptFor faces).idxOf v) := by
  obtain ⟨⟨_, places⟩, taken, rfl, _, placed⟩ := take_vertices name parent faces.flatten _ (Nat.le_refl _)
  refine ⟨places, ?_, placed⟩
  have numbered : ((List.range parent.vertexCount).map fun v => decide (v ∈ faces.flatten)).zipIdx =
      (List.range parent.vertexCount).map fun v => (decide (v ∈ faces.flatten), v) :=
    List.ext_getElem (by simp) fun v _ _ => by simp
  rw [numbered, List.foldlM_map]
  exact taken

def moved (places : List Nat) (f : Nat) : Result (UInt64 × List Nat) := do
  let gnum ← fetch parent.faceGnums f
  let refs ← (← parent.face f).mapM (fetch places)
  return (gnum, refs)

theorem take_faces (places selection : List Nat) (m : Mesh) (items : List (UInt64 × List Nat))
    (taken : selection.mapM (parent.moved places) = .ok items) :
    selection.foldlM (parent.takeFace places) m = .ok (items.foldl (fun m item => m.appendFace item.1 item.2) m) := by
  have step : parent.takeFace places = fun m f => do
      let item ← parent.moved places f
      return m.appendFace item.1 item.2 := by
    funext m f
    simp only [takeFace, moved, bind_assoc, pure_bind]
  have run := fold_m_map (parent.moved places) (fun m item => m.appendFace item.1 item.2) selection m
  rw [taken] at run
  rw [step]
  exact run

end Taking

def cut (name : String) (parent : Mesh) (faceGnums : List UInt64) (faces : List (List Nat)) : Mesh :=
  ({ empty name with faceGnums, vertices := look parent.vertices (parent.keptFor faces) }.withFaces
    (faces.map (List.map (parent.keptFor faces).idxOf))).withLocalCounts

section Cutting

variable (parent : Mesh) (faces : List (List Nat)) (inside : ∀ row ∈ faces, ∀ v ∈ row, v < parent.vertexCount)

theorem kept_inside : ∀ v ∈ parent.keptFor faces, v < parent.vertexCount := fun _ member =>
  List.mem_range.mp (List.mem_of_mem_filter member)

theorem kept_rising : (parent.keptFor faces).Pairwise (· < ·) := List.pairwise_lt_range.filter _

include inside

theorem mem_kept_for (v : Nat) : v ∈ parent.keptFor faces ↔ ∃ row ∈ faces, v ∈ row := by
  rw [keptFor, List.mem_filter, List.mem_range, List.contains_iff_mem, List.mem_flatten]
  constructor
  · exact fun listed => listed.2
  · intro listed
    obtain ⟨row, member, inRow⟩ := listed
    exact ⟨inside row member v inRow, row, member, inRow⟩

theorem row_kept (row : List Nat) (member : row ∈ faces) : ∀ v ∈ row, v ∈ parent.keptFor faces :=
  fun v listed => (mem_kept_for parent faces inside v).mpr ⟨row, member, listed⟩

theorem cut_laid (name : String) (faceGnums : List UInt64) (count : faceGnums.length = faces.length) :
    (cut name parent faceGnums faces).Laid (faces.map (List.map (parent.keptFor faces).idxOf)) where
  count := by
    rw [List.length_map]
    exact count.symm
  index := rfl
  refs := rfl
  inside := by
    simp only [List.forall_mem_map]
    intro row member v listed
    have kept := row_kept parent faces inside row member v listed
    have bound := List.idxOf_lt_length_of_mem kept
    have found := look_get parent.vertices _ (kept_inside parent faces) _ v
      (show (parent.keptFor faces)[(parent.keptFor faces).idxOf v]? = some v by simp [bound])
    have known : v < parent.vertices.length := inside row member v listed
    rw [List.getElem?_eq_getElem known] at found
    exact (List.getElem?_eq_some_iff.mp found).1

theorem cut_facets (name : String) (faceGnums : List UInt64) (count : faceGnums.length = faces.length) :
    (cut name parent faceGnums faces).facets = List.zipWith (fun gnum row => (gnum, look parent.vertices row)) faceGnums faces := by
  rw [facets_laid _ _ (cut_laid parent faces inside name faceGnums count), List.zipWith_map_right]
  refine List.ext_getElem (by simp [cut, withFaces, withLocalCounts]) fun f bound other => ?_
  have boundFace : f < faces.length := by
    rw [List.length_zipWith, count] at other
    omega
  have among := row_kept parent faces inside faces[f] (List.getElem_mem boundFace)
  have records := look_located parent.vertices _ faces[f] (kept_inside parent faces) among
  simp only [List.getElem_zipWith]
  exact congrArg (Prod.mk _) records

end Cutting

structure Cut (parent : Mesh) (selection : List Nat) (piece : Mesh) : Prop where
  valid : piece.check = .ok ()
  facets : piece.facets = selection.filterMap fun f => parent.facets[f]?
  count : piece.faceCount = selection.length
  vertices : ∃ kept, kept.IsChain (· < ·) ∧ piece.vertices = look parent.vertices kept ∧
    ∀ v, v ∈ kept ↔ ∃ f ∈ selection, ∃ refs, parent.face f = .ok refs ∧ v ∈ refs

section Selecting

variable (parent : Mesh) (rows : List (List Nat)) (selection : List Nat)

def rowsAt : List (List Nat) := selection.map fun f => rows.getD f []

def gnumsAt : List UInt64 := selection.map fun f => parent.faceGnums.getD f 0

variable (laid : parent.Laid rows) (inside : ∀ f ∈ selection, f < parent.faceCount)

theorem at_length : (parent.gnumsAt selection).length = (rowsAt rows selection).length := by simp [gnumsAt, rowsAt]

include inside

theorem number_at (f : Nat) (member : f ∈ selection) : parent.faceGnums[f]? = some (parent.faceGnums.getD f 0) := by
  have bound : f < parent.faceGnums.length := inside f member
  simp [bound]

include laid

theorem row_at (f : Nat) (member : f ∈ selection) : rows[f]? = some (rows.getD f []) := by
  have bound : f < rows.length := laid.count ▸ inside f member
  simp [bound]

theorem face_at (f : Nat) (member : f ∈ selection) : parent.face f = .ok (rows.getD f []) :=
  face_laid parent rows laid.index laid.refs f _ (row_at parent rows selection laid inside f member)

theorem rows_within : ∀ refs ∈ rowsAt rows selection, ∀ v ∈ refs, v < parent.vertexCount := by
  rw [rowsAt, List.forall_mem_map]
  exact fun f member => laid.inside _ (List.mem_of_getElem? (row_at parent rows selection laid inside f member))

theorem cut_facets_at (name : String) : (cut name parent (parent.gnumsAt selection) (rowsAt rows selection)).facets =
    selection.filterMap fun f => parent.facets[f]? := by
  have parts : ∀ f ∈ selection, parent.facets[f]? = some (parent.faceGnums.getD f 0, look parent.vertices (rows.getD f [])) := by
    intro f member
    rw [facets_laid parent rows laid, List.getElem?_zipWith, number_at parent selection inside f member,
      row_at parent rows selection laid inside f member]
  have within := rows_within parent rows selection laid inside
  rw [cut_facets parent _ within name _ (at_length parent rows selection), gnumsAt, rowsAt, List.zipWith_map, List.zipWith_self,
    List.filterMap_congr parts, ← List.filterMap_eq_map]
  rfl

theorem mem_kept_iff (v : Nat) :
    v ∈ parent.keptFor (rowsAt rows selection) ↔ ∃ f ∈ selection, ∃ refs, parent.face f = .ok refs ∧ v ∈ refs := by
  have face := face_at parent rows selection laid inside
  rw [mem_kept_for parent _ (rows_within parent rows selection laid inside)]
  constructor
  · intro used
    obtain ⟨refs, member, listed⟩ := used
    obtain ⟨f, selected, rfl⟩ := List.mem_map.mp member
    exact ⟨f, selected, _, face f selected, listed⟩
  · intro used
    obtain ⟨f, selected, refs, read, listed⟩ := used
    obtain rfl := Except.ok.inj ((face f selected).symm.trans read)
    exact ⟨_, List.mem_map.mpr ⟨f, selected, rfl⟩, listed⟩

theorem moved_selected (places : List Nat)
    (placed : ∀ v ∈ parent.keptFor (rowsAt rows selection), places[v]? = some ((parent.keptFor (rowsAt rows selection)).idxOf v))
    (f : Nat) (member : f ∈ selection) : parent.moved places f =
      .ok (parent.faceGnums.getD f 0, (rows.getD f []).map (parent.keptFor (rowsAt rows selection)).idxOf) := by
  have within := rows_within parent rows selection laid inside
  have number := (fetch_eq_ok_iff _ _ _).mpr (number_at parent selection inside f member)
  have kept (v : Nat) (listed : v ∈ rows.getD f []) : v ∈ parent.keptFor (rowsAt rows selection) :=
    row_kept parent _ within _ (List.mem_map.mpr ⟨f, member, rfl⟩) v listed
  have relaid := map_m_ok (fetch places) _ (rows.getD f []) fun v listed => (fetch_eq_ok_iff _ _ _).mpr (placed v (kept v listed))
  simp only [moved, number, face_at parent rows selection laid inside f member, relaid, bind, Except.bind, pure, Except.pure]

theorem subset_done (name : String) (rising : selection.IsChain (· < ·)) :
    subset name selection parent = .ok (cut name parent (parent.gnumsAt selection) (rowsAt rows selection)) := by
  have valid : parent.check = .ok () := (check_ok_iff parent).mpr ⟨rows, laid⟩
  have unbroken : Ragged.firstBreak (fun a b => decide (a < b)) selection = none := by
    rw [Ragged.first_break_none_iff]
    simpa using rising
  have found : selection.find? (fun f => decide (parent.faceCount ≤ f)) = none := by simpa using inside
  have chosen : selection.mapM parent.face = .ok (rowsAt rows selection) :=
    map_m_ok _ _ _ (face_at parent rows selection laid inside)
  have within := rows_within parent rows selection laid inside
  have marks := marked_ok parent.vertexCount (rowsAt rows selection).flatten fun v member => by
    obtain ⟨refs, listed, inRow⟩ := List.mem_flatten.mp member
    exact within refs listed v inRow
  obtain ⟨places, walk, placed⟩ := take_marked name parent (rowsAt rows selection)
  let bare : Mesh := { empty name with vertices := look parent.vertices (parent.keptFor (rowsAt rows selection)) }
  have faces := take_faces parent places selection bare _
    (map_m_ok _ _ selection (moved_selected parent rows selection laid inside places placed))
  have pushed := append_faces bare [] [] (selection.map fun f =>
    (parent.faceGnums.getD f 0, (rows.getD f []).map (parent.keptFor (rowsAt rows selection)).idxOf))
  have start : bare = ({ bare with faceGnums := [] } : Mesh).withFaces [] := rfl
  rw [start, pushed, ← start] at faces
  simp only [subset, valid, unbroken, found, chosen, marks, walk, bind, Except.bind, pure, Except.pure]
  simp only [bare] at faces
  simp only [faces]
  rw [cut, gnumsAt, rowsAt]
  simp only [List.nil_append, List.map_map]
  rfl

end Selecting

theorem subset_cuts (name : String) (selection : List Nat) (parent : Mesh) (valid : parent.check = .ok ())
    (rising : selection.IsChain (· < ·)) (inside : ∀ f ∈ selection, f < parent.faceCount) :
    ∃ piece, subset name selection parent = .ok piece ∧ Cut parent selection piece := by
  obtain ⟨rows, laid⟩ := (check_ok_iff parent).mp valid
  have within := rows_within parent rows selection laid inside
  refine ⟨_, subset_done parent rows selection laid inside name rising, ?valid, ?facets, ?count, ?vertices⟩
  case valid => exact (check_ok_iff _).mpr ⟨_, cut_laid parent _ within name _ (at_length parent rows selection)⟩
  case facets => exact cut_facets_at parent rows selection laid inside name
  case count => exact List.length_map _
  case vertices =>
    refine ⟨parent.keptFor (rowsAt rows selection), ?_, rfl, mem_kept_iff parent rows selection laid inside⟩
    exact List.isChain_iff_pairwise.mpr (kept_rising parent _)

end Mesh

end Seam
