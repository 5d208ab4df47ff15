import Seam.Proofs.Mesh.Layout

set_option autoImplicit false

namespace Seam

abbrev Facet := UInt64 × List Vertex

namespace Mesh

def facet (m : Mesh) (f : Nat) : Result Facet := do
  let refs ← m.face f
  let gnum ← fetch m.faceGnums f
  return (gnum, ← m.records refs)

def facets (m : Mesh) : List Facet := (List.range m.faceCount).filterMap fun f => (m.facet f).toOption

theorem facet_ok (m : Mesh) (f : Nat) (item : Facet) (ok : m.facet f = .ok item) :
    m.faceGnums[f]? = some item.1 ∧ m.faceVertexGnums f = .ok (item.2.map Vertex.gnum) := by
  cases refs : m.face f with
  | error e => simp [facet, refs, bind, Except.bind] at ok
  | ok row =>
      cases number : fetch m.faceGnums f with
      | error e => simp [facet, refs, number, bind, Except.bind] at ok
      | ok gnum =>
          cases found : m.records row with
          | error e => simp [facet, refs, number, found, bind, Except.bind] at ok
          | ok records =>
              obtain rfl : (gnum, records) = item := by simpa [facet, refs, number, found, bind, Except.bind, pure, Except.pure] using ok
              refine ⟨(fetch_eq_ok_iff _ _ _).mp number, ?_⟩
              simp [faceVertexGnums, refs, found, bind, Except.bind, pure, Except.pure]

theorem facet_row (m : Mesh) (f : Nat) (item : Facet) (ok : m.facet f = .ok item) :
    ∃ row, m.face f = .ok row ∧ item.2.length = row.length := by
  obtain ⟨row, refs, ok⟩ := bind_ok _ _ _ ok
  obtain ⟨_, _, ok⟩ := bind_ok _ _ _ ok
  obtain ⟨records, found, ok⟩ := bind_ok _ _ _ ok
  obtain rfl := Except.ok.inj ok
  exact ⟨row, refs, map_m_length _ _ _ found⟩

def look (vertices : List Vertex) (row : List Nat) : List Vertex := row.filterMap fun v => vertices[v]?

theorem records_inside (m : Mesh) (row : List Nat) (inside : ∀ v ∈ row, v < m.vertexCount) :
    m.records row = .ok (look m.vertices row) := by
  refine map_m_filter_map (fetch m.vertices) _ row fun v member => ?_
  have bound : v < m.vertices.length := inside v member
  have found : m.vertices[v]? = some m.vertices[v] := List.getElem?_eq_getElem bound
  exact ⟨_, found, (fetch_eq_ok_iff _ _ _).mpr found⟩

theorem facet_laid (m : Mesh) (rows : List (List Nat)) (laid : m.Laid rows) (f : Nat) (gnum : UInt64) (row : List Nat)
    (number : m.faceGnums[f]? = some gnum) (found : rows[f]? = some row) : m.facet f = .ok (gnum, look m.vertices row) := by
  have refs := face_laid m rows laid.index laid.refs f row found
  have fetched := (fetch_eq_ok_iff m.faceGnums f gnum).mpr number
  have records := records_inside m row (laid.inside row (List.mem_of_getElem? found))
  simp [facet, refs, fetched, records, bind, Except.bind, pure, Except.pure]

theorem range_get {α : Type} (items : List α) : (List.range items.length).filterMap (fun i => items[i]?) = items := by
  rw [← List.map_coe_finRange_eq_range, List.filterMap_map]
  calc _ = (List.finRange items.length).filterMap (some ∘ fun i => items[i.val]) :=
          List.filterMap_congr fun i _ => List.getElem?_eq_getElem i.isLt
    _ = items := by rw [List.filterMap_eq_map, List.map_getElem_finRange]

theorem facets_laid (m : Mesh) (rows : List (List Nat)) (laid : m.Laid rows) :
    m.facets = List.zipWith (fun gnum row => (gnum, look m.vertices row)) m.faceGnums rows := by
  have size : (List.zipWith (fun gnum row => (gnum, look m.vertices row)) m.faceGnums rows).length = m.faceCount := by
    rw [List.length_zipWith, laid.count, faceCount, Nat.min_self]
  have each : ∀ f ∈ List.range m.faceCount, (m.facet f).toOption =
      (List.zipWith (fun gnum row => (gnum, look m.vertices row)) m.faceGnums rows)[f]? := by
    intro f member
    have bound : f < m.faceGnums.length := List.mem_range.mp member
    have boundRow : f < rows.length := laid.count ▸ bound
    rw [facet_laid m rows laid f m.faceGnums[f] rows[f] (by simp) (by simp), List.getElem?_zipWith]
    simp [bound, boundRow, Except.toOption]
  rw [facets, List.filterMap_congr each, ← size, range_get]

theorem facet_of_check (m : Mesh) (ok : m.check = .ok ()) (f : Nat) (item : Facet) :
    m.facet f = .ok item ∧ f < m.faceCount ↔ m.facets[f]? = some item := by
  obtain ⟨rows, laid⟩ := (check_ok_iff m).mp ok
  rw [facets_laid m rows laid, List.getElem?_zipWith]
  by_cases bound : f < m.faceCount
  · have boundGnum : f < m.faceGnums.length := bound
    have boundRow : f < rows.length := laid.count ▸ bound
    rw [facet_laid m rows laid f m.faceGnums[f] rows[f] (by simp) (by simp)]
    simp [boundGnum, boundRow, bound]
  · have outside : m.faceGnums[f]? = none := List.getElem?_eq_none (not_lt.mp bound)
    simp [outside, bound]

theorem facets_length (m : Mesh) (ok : m.check = .ok ()) : m.facets.length = m.faceCount := by
  obtain ⟨rows, laid⟩ := (check_ok_iff m).mp ok
  rw [facets_laid m rows laid, List.length_zipWith, laid.count, faceCount, Nat.min_self]

theorem facets_found (m : Mesh) (ok : m.check = .ok ()) (faces : List Nat) (inside : ∀ f ∈ faces, f < m.faceCount) :
    List.Forall₂ (fun f item => m.facet f = .ok item) faces (faces.filterMap fun f => (m.facet f).toOption) := by
  induction faces with
  | nil => exact .nil
  | cons f faces ih =>
      have bound : f < m.facets.length := by
        rw [facets_length m ok]
        exact inside f (by simp)
      obtain ⟨found, _⟩ := (facet_of_check m ok f m.facets[f]).mpr (by simp)
      simp only [List.filterMap_cons, found, Except.toOption]
      exact .cons found (ih fun other member => inside other (by simp [member]))

def append (a b : Mesh) : Mesh :=
  { a with
    faceGnums := a.faceGnums ++ b.faceGnums
    faceIndex := a.faceIndex ++ (b.faceIndex.drop 1).map (a.faceRefs.length + ·)
    faceRefs := a.faceRefs ++ b.faceRefs.map (a.vertexCount + ·)
    vertices := a.vertices ++ b.vertices }

theorem laid_append (a b : Mesh) (rows more : List (List Nat)) (left : a.Laid rows) (right : b.Laid more) :
    (a.append b).Laid (rows ++ more.map (List.map (a.vertexCount + ·))) where
  count := by
    have first := left.count
    have second := right.count
    simp only [faceCount] at first second
    simp [append, faceCount, first, second]
  index := by
    rw [append, Ragged.index, Ragged.boundaries_append, Ragged.boundaries_map, left.index, right.index, left.refs]
    simp only [Ragged.index, List.map_drop, Ragged.boundaries_shift, Nat.zero_add, Nat.add_zero]
  refs := by
    rw [append, List.flatten_append, left.refs, right.refs, List.map_flatten]
  inside := by
    intro row member v listed
    have count : (a.append b).vertexCount = a.vertexCount + b.vertexCount := by simp [append, vertexCount]
    rw [count]
    rcases List.mem_append.mp member with old | new
    · exact Nat.lt_add_right _ (left.inside row old v listed)
    · obtain ⟨source, among, rfl⟩ := List.mem_map.mp new
      obtain ⟨w, known, rfl⟩ := List.mem_map.mp listed
      exact Nat.add_lt_add_left (right.inside source among w known) _

theorem facets_append (a b : Mesh) (left : a.check = .ok ()) (right : b.check = .ok ()) :
    (a.append b).facets = a.facets ++ b.facets := by
  obtain ⟨rows, laidA⟩ := (check_ok_iff a).mp left
  obtain ⟨more, laidB⟩ := (check_ok_iff b).mp right
  have old : ∀ row ∈ rows, look (a.vertices ++ b.vertices) row = look a.vertices row := by
    intro row member
    exact List.filterMap_congr fun v listed => List.getElem?_append_left (laidA.inside row member v listed)
  have new : ∀ row, look (a.vertices ++ b.vertices) (row.map (a.vertexCount + ·)) = look b.vertices row := by
    intro row
    rw [look, List.filterMap_map]
    apply List.filterMap_congr
    intro v _
    rw [Function.comp_apply, vertexCount, List.getElem?_append_right (Nat.le_add_right _ _), Nat.add_sub_cancel_left]
  have same : a.faceGnums.length = rows.length := laidA.count.symm
  rw [facets_laid _ _ (laid_append a b rows more laidA laidB), facets_laid a rows laidA, facets_laid b more laidB]
  simp only [append]
  rw [List.zipWith_append same, List.zipWith_map_right]
  simp only [new]
  refine congrArg (· ++ _) (List.ext_getElem (by simp) fun f _ bound => ?_)
  have boundRow : f < rows.length := by
    rw [List.length_zipWith] at bound
    omega
  simp [old rows[f] (List.getElem_mem boundRow)]

theorem check_append (a b : Mesh) (left : a.check = .ok ()) (right : b.check = .ok ()) : (a.append b).check = .ok () := by
  obtain ⟨rows, laidA⟩ := (check_ok_iff a).mp left
  obtain ⟨more, laidB⟩ := (check_ok_iff b).mp right
  exact (check_ok_iff _).mpr ⟨_, laid_append a b rows more laidA laidB⟩

def concat (meshes : List Mesh) : Mesh := meshes.foldl append (empty "")

theorem foldl_append (first : Mesh) (meshes : List Mesh) (ok : first.check = .ok ()) (each : ∀ m ∈ meshes, m.check = .ok ()) :
    (meshes.foldl append first).check = .ok () ∧ (meshes.foldl append first).facets = first.facets ++ meshes.flatMap facets := by
  induction meshes generalizing first with
  | nil => simp [ok]
  | cons m meshes ih =>
      have next := each m (by simp)
      obtain ⟨checked, found⟩ := ih (first.append m) (check_append first m ok next) fun other member => each other (by simp [member])
      rw [List.foldl_cons, List.flatMap_cons, ← List.append_assoc, ← facets_append first m ok next]
      exact ⟨checked, found⟩

theorem check_concat (meshes : List Mesh) (each : ∀ m ∈ meshes, m.check = .ok ()) : (concat meshes).check = .ok () :=
  (foldl_append (empty "") meshes (by decide) each).1

theorem facets_concat (meshes : List Mesh) (each : ∀ m ∈ meshes, m.check = .ok ()) :
    (concat meshes).facets = meshes.flatMap facets :=
  (foldl_append (empty "") meshes (by decide) each).2

end Mesh

end Seam
