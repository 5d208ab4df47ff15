import Mathlib.Data.List.Permutation
import Seam.Proofs.Merging
import Seam.Proofs.Mesh.Duplicates

set_option autoImplicit false

namespace Seam.Mesh

open Assembly (Names)

def place (v : Vertex) : Nat ×ₗ Vertex.Key := toLex (v.gnum.toNat, v.key)

theorem vertex_le_iff (a b : Vertex) : vertexLe a b = true ↔ place a ≤ place b := by
  rw [vertexLe, place, place, Prod.Lex.toLex_le_toLex]
  by_cases same : a.gnum = b.gnum
  · rw [if_pos same, bne_iff_ne, Vertex.compare_ne_gt_iff, same]
    simp
  · have different : a.gnum.toNat ≠ b.gnum.toNat := fun equal => same (UInt64.toNat_inj.mp equal)
    simp [same, different, UInt64.lt_iff_toNat_lt]

theorem vertex_le_trans (a b c : Vertex) (first : vertexLe a b = true) (second : vertexLe b c = true) : vertexLe a c = true := by
  rw [vertex_le_iff] at first second ⊢
  exact first.trans second

theorem vertex_le_total (a b : Vertex) : (vertexLe a b || vertexLe b a) = true := by
  rw [Bool.or_eq_true, vertex_le_iff, vertex_le_iff]
  exact le_total _ _

theorem vertex_le_antisymm (a b : Vertex) (first : vertexLe a b = true) (second : vertexLe b a = true) : a = b := by
  rw [vertex_le_iff] at first second
  have same := toLex_inj.mp (le_antisymm first second)
  exact Vertex.key_injective a b (congrArg Prod.snd same)

theorem gnum_le_of_vertex_le (a b : Vertex) (le : vertexLe a b = true) : a.gnum ≤ b.gnum := by
  by_cases same : a.gnum = b.gnum
  · exact same ▸ UInt64.le_refl _
  · rw [vertexLe, if_neg same, decide_eq_true_eq] at le
    exact UInt64.le_of_lt le

theorem compare_of_vertex_le (a b : Vertex) (le : vertexLe a b = true) (same : a.gnum = b.gnum) : a.compare b ≠ .gt := by
  simpa [vertexLe, same] using le

section Moving

variable (m : Mesh)

def moves : List (Nat × Nat) := (m.orderedVertices.zipIdx.map fun item => (item.1.2, item.2)).reverse

def sortedVertices : List Vertex := m.orderedVertices.map Prod.fst

theorem sorted_perm : m.sortedVertices.Perm m.vertices := by
  have perm := (ordered_perm m).map Prod.fst
  rwa [List.zipIdx_map_fst] at perm

theorem sorted_ascends : m.sortedVertices.Pairwise fun a b => vertexLe a b = true := by
  rw [sortedVertices, List.pairwise_map]
  exact List.pairwise_mergeSort (fun a b c => vertex_le_trans a.1 b.1 c.1) (fun a b => vertex_le_total a.1 b.1) _

theorem mem_moves (old new : Nat) : (old, new) ∈ m.moves ↔ ∃ v, m.orderedVertices[new]? = some (v, old) := by
  simp only [moves, List.mem_reverse, List.mem_map, Prod.mk.injEq]
  constructor
  · rintro ⟨⟨⟨v, _⟩, _⟩, member, rfl, rfl⟩
    exact ⟨v, List.mem_zipIdx_iff_getElem?.mp member⟩
  · rintro ⟨v, found⟩
    exact ⟨((v, old), new), List.mem_zipIdx_iff_getElem?.mpr found, rfl, rfl⟩

theorem places_tabled : ∃ table, places m.vertexCount m.orderedVertices = .ok table ∧ Tabled table m.vertexCount m.moves := by
  have blank := tabled_blank m.vertexCount 0
  obtain ⟨table, run, tabled⟩ := tabled_stores _ m.vertexCount [] (m.orderedVertices.zipIdx.map fun item => (item.1.2, item.2)) blank
    fun pair member => by
      obtain ⟨item, listed, rfl⟩ := List.mem_map.mp member
      exact ordered_inside m item.1 (List.fst_mem_of_mem_zipIdx listed)
  rw [List.foldlM_map] at run
  rw [List.append_nil] at tabled
  exact ⟨table, run, tabled⟩

theorem renumber_moves (old : Nat) (v : Vertex) (found : m.vertices[old]? = some v) :
    ∃ new, renumber m.moves old = .ok new ∧ m.sortedVertices[new]? = some v := by
  obtain ⟨place, here⟩ := List.getElem?_of_mem ((ordered_get m v old).mpr found)
  have pair : (old, place) ∈ m.moves := (mem_moves m old place).mpr ⟨v, here⟩
  cases lookup : m.moves.lookup old with
  | none => simpa using List.lookup_eq_none_iff.mp lookup _ pair
  | some new =>
      obtain ⟨before, after, split, _⟩ := List.lookup_eq_some_iff.mp lookup
      obtain ⟨w, moved⟩ := (mem_moves m old new).mp (split ▸ (by simp))
      have known := (ordered_get m w old).mp (List.mem_of_getElem? moved)
      obtain rfl := Option.some.inj (found.symm.trans known)
      exact ⟨new, by simp [renumber, lookup], by simp [sortedVertices, moved]⟩

theorem renumber_names (row : List Nat) (numbers : List UInt64) (names : Names (m.vertices.map Vertex.gnum) row numbers) :
    ∃ moved, row.mapM (renumber m.moves) = .ok moved ∧ Names (m.sortedVertices.map Vertex.gnum) moved numbers := by
  induction names with
  | nil => exact ⟨[], rfl, .nil⟩
  | @cons old number row numbers head _ ih =>
      obtain ⟨moved, renumbered, named⟩ := ih
      obtain ⟨v, found, rfl⟩ : ∃ v, m.vertices[old]? = some v ∧ v.gnum = number := by simpa using head
      obtain ⟨new, first, place⟩ := renumber_moves m old v found
      refine ⟨new :: moved, ?_, .cons (by simp [place]) named⟩
      rw [map_m_cons, first, renumbered]
      rfl

end Moving

-- `laid` is the canonical layout of `m`, with this many faces dropped.
structure Arranged (m laid : Mesh) (dropped : Nat) : Prop where
  valid : laid.check = .ok ()
  name : laid.name = m.name
  globalFaces : laid.globalFaces = m.globalFaces
  globalVertices : laid.globalVertices = m.globalVertices
  vertices : laid.vertices.Perm m.vertices
  ordered : laid.vertices.Pairwise fun a b => vertexLe a b = true
  faces : Representatives m.faceKeys laid.faceKeys
  dropped : dropped = m.faceCount - laid.faceCount

theorem arranged_distinct (m laid : Mesh) (dropped : Nat) (arranged : Arranged m laid dropped)
    (distinct : (m.vertices.map Vertex.gnum).Nodup) : (laid.vertices.map Vertex.gnum).Nodup :=
  (arranged.vertices.map Vertex.gnum).nodup_iff.mpr distinct

section Arranging

variable (m : Mesh) (rows : List (List Nat)) (laid : m.Laid rows)

theorem kept_among (kept faces chosen : List NumberedFace) (ok : dropDuplicates kept faces = .ok chosen) :
    ∀ face ∈ chosen, face ∈ kept ++ faces := by
  fun_induction dropDuplicates kept faces with
  | case1 kept =>
      obtain rfl := Except.ok.inj ok
      simp
  | case2 kept face rest last ends sameNumber sameVertices ih =>
      intro other member
      have known := ih ok other member
      simp only [List.mem_append, List.mem_cons] at known ⊢
      exact known.imp_right .inr
  | case3 => cases ok
  | case4 kept face rest last ends other ih => simpa using ih ok
  | case5 kept face rest ends ih => simpa using ih ok

theorem relaid (kept : List NumberedFace)
    (each : ∀ face ∈ kept, Names (m.vertices.map Vertex.gnum) face.refs face.vertexGnums) :
    ∃ moved, kept.mapM (fun face => face.refs.mapM (renumber m.moves)) = .ok moved ∧
      List.Forall₂ (fun row key => Names (m.sortedVertices.map Vertex.gnum) row key.2) moved (kept.map NumberedFace.key) := by
  induction kept with
  | nil => exact ⟨[], rfl, .nil⟩
  | cons face kept ih =>
      obtain ⟨row, first, named⟩ := renumber_names m face.refs face.vertexGnums (each face (by simp))
      obtain ⟨moved, rest, names⟩ := ih fun other member => each other (by simp [member])
      refine ⟨row :: moved, ?_, .cons named names⟩
      rw [map_m_cons, first, rest]
      rfl

include laid

theorem numbered_faces_laid : ∃ faces, m.numberedFaces = .ok faces ∧ faces.map NumberedFace.key = m.faceKeys ∧
    ∀ face ∈ faces, Names (m.vertices.map Vertex.gnum) face.refs face.vertexGnums := by
  let number (item : UInt64 × Nat) : NumberedFace :=
    ⟨item.1, rows.getD item.2 [], (look m.vertices (rows.getD item.2 [])).map Vertex.gnum⟩
  have inside : ∀ f, f < rows.length → ∀ v ∈ rows.getD f [], v < m.vertexCount := by
    intro f bound v member
    have found : rows.getD f [] = rows[f] := by simp [bound]
    exact laid.inside rows[f] (List.getElem_mem bound) v (found ▸ member)
  have known : ∀ item ∈ m.faceGnums.zipIdx, item.2 < rows.length := by
    intro item member
    have found := List.mem_zipIdx_iff_getElem?.mp member
    rw [laid.count]
    exact (List.getElem?_eq_some_iff.mp found).1
  refine ⟨m.faceGnums.zipIdx.map number, ?_, ?_, ?_⟩
  · refine map_m_ok _ number _ fun item member => ?_
    have bound := known item member
    have face := face_laid m rows laid.index laid.refs item.2 (rows.getD item.2 []) (by simp [bound])
    have records := records_inside m _ (inside item.2 bound)
    simp only [face, records, bind, Except.bind]
    rfl
  · rw [face_keys_laid m rows laid, List.map_map]
    have count : rows.length = m.faceGnums.length := laid.count
    refine List.ext_getElem (by simp [count]) fun f bound other => ?_
    have boundRow : f < rows.length := by simpa [count] using bound
    simp [number, NumberedFace.key, boundRow]
  · intro face member
    obtain ⟨item, listed, rfl⟩ := List.mem_map.mp member
    exact names_look m.vertices _ (inside item.2 (known item listed))

end Arranging

def arrange (m : Mesh) (kept : List NumberedFace) (moved : List (List Nat)) : Mesh :=
  { m with faceGnums := kept.map NumberedFace.gnum, vertices := m.sortedVertices }.withFaces moved

theorem arrange_laid (m : Mesh) (kept : List NumberedFace) (moved : List (List Nat))
    (named : List.Forall₂ (fun row key => Names (m.sortedVertices.map Vertex.gnum) row key.2) moved (kept.map NumberedFace.key)) :
    (m.arrange kept moved).Laid moved where
  count := by
    rw [named.length_eq]
    simp [faceCount, arrange, withFaces]
  index := rfl
  refs := rfl
  inside := by
    intro row member
    obtain ⟨f, bound, rfl⟩ := List.getElem_of_mem member
    have inside := Assembly.names_inside _ _ _ (named.get bound (named.length_eq ▸ bound))
    rwa [List.length_map] at inside

theorem arrange_keys (m : Mesh) (kept : List NumberedFace) (moved : List (List Nat))
    (named : List.Forall₂ (fun row key => Names (m.sortedVertices.map Vertex.gnum) row key.2) moved (kept.map NumberedFace.key)) :
    (m.arrange kept moved).faceKeys = kept.map NumberedFace.key := by
  refine face_keys_unique _ moved (arrange_laid m kept moved named) _ ?_ named
  rw [List.map_map]
  rfl

theorem arrange_arranged (m : Mesh) (kept : List NumberedFace) (moved : List (List Nat))
    (named : List.Forall₂ (fun row key => Names (m.sortedVertices.map Vertex.gnum) row key.2) moved (kept.map NumberedFace.key))
    (faces : Representatives m.faceKeys (kept.map NumberedFace.key)) :
    Arranged m (m.arrange kept moved) (m.faceCount - kept.length) where
  valid := (check_ok_iff _).mpr ⟨moved, arrange_laid m kept moved named⟩
  name := rfl
  globalFaces := rfl
  globalVertices := rfl
  vertices := sorted_perm m
  ordered := sorted_ascends m
  faces := by rwa [arrange_keys m kept moved named]
  dropped := by simp [faceCount, arrange, withFaces]

def byNumber (faces : List NumberedFace) : List NumberedFace := faces.mergeSort fun a b => a.gnum ≤ b.gnum

theorem by_number_perm (faces : List NumberedFace) : (byNumber faces).Perm faces := List.mergeSort_perm _ _

theorem number_le_trans (a b c : NumberedFace) (first : decide (a.gnum ≤ b.gnum) = true)
    (second : decide (b.gnum ≤ c.gnum) = true) : decide (a.gnum ≤ c.gnum) = true := by
  rw [decide_eq_true_eq] at first second ⊢
  exact UInt64.le_trans first second

theorem number_le_total (a b : NumberedFace) : (decide (a.gnum ≤ b.gnum) || decide (b.gnum ≤ a.gnum)) = true := by
  simpa using UInt64.le_total a.gnum b.gnum

theorem by_number_walks (faces : List NumberedFace) : Walking [] (byNumber faces) :=
  ⟨.nil, (List.pairwise_mergeSort number_le_trans number_le_total faces).imp of_decide_eq_true⟩

theorem arranging_atomic (m : Mesh) : arranging.Atomic m := by
  refine Edit.atomic_get_bind _ _ (Edit.atomic_look_bind _ _ _ fun _ _ => Edit.atomic_look_bind _ _ _ fun places _ => ?_)
  refine Edit.atomic_look_bind _ _ _ fun faces _ => Edit.atomic_look_bind _ _ _ fun arranged _ => ?_
  exact Edit.atomic_of_ok _ _ _ rfl

theorem canonical_eq (m : Mesh) : m.canonical = do
    m.check
    let places ← places m.vertexCount m.orderedVertices
    let faces ← m.numberedFaces
    let arranged ← (byNumber faces).foldlM (arrangeNext places) ⟨[], .blank, none, 0⟩
    return ({ m with
      vertices := m.sortedVertices, faceGnums := arranged.gnums, faceIndex := arranged.rows.index,
      faceRefs := arranged.rows.items }, arranged.dropped) := by
  rw [canonical, arranging, Edit.outcome_get_bind]
  simp only [Edit.outcome_look_bind, byNumber]
  rfl

theorem placed_row (table : List Nat) (size : Nat) (pairs : List (Nat × Nat)) (tabled : Tabled table size pairs)
    (face : NumberedFace) (row : List Nat) (renumbered : face.refs.mapM (renumber pairs) = .ok row) : face.placed table = row := by
  have found := (map_m_ok_iff _ _ _).mp (tabled_row table size pairs tabled face.refs row renumbered)
  rw [NumberedFace.placed, ← List.forall₂_eq_eq_eq, List.forall₂_map_left_iff]
  exact found.imp fun v new fetched => by rw [List.getD_eq_getElem?_getD, (fetch_eq_ok_iff table v new).mp fetched, Option.getD_some]

section Walked

variable (m : Mesh) (valid : m.check = .ok ()) (faces : List NumberedFace) (numbered : m.numberedFaces = .ok faces)
  (names : ∀ face ∈ faces, Names (m.vertices.map Vertex.gnum) face.refs face.vertexGnums)

include valid numbered names

theorem canonical_walked : ∃ table, Tabled table m.vertexCount m.moves ∧ m.canonical =
    (dropDuplicates [] (byNumber faces)).map fun kept => (m.arrange kept (kept.map (NumberedFace.placed table)), faces.length - kept.length) := by
  obtain ⟨table, placed, tabled⟩ := places_tabled m
  have inside : ∀ face ∈ byNumber faces, ∀ v ∈ face.refs, v < table.length := fun face member v listed => by
    have bound := Assembly.names_inside _ _ _ (names face ((by_number_perm faces).mem_iff.mp member)) v listed
    rw [List.length_map] at bound
    exact tabled.size ▸ bound
  have loop := arrange_loop table 0 [] (byNumber faces) (Nat.le_refl 0) inside
  have start : (Arranging.behind table 0 [] : Arranging) = ⟨[], .blank, none, 0⟩ := rfl
  rw [start] at loop
  refine ⟨table, tabled, ?_⟩
  cases walked : dropDuplicates [] (byNumber faces) with
  | error e =>
      rw [walked] at loop
      simp only [canonical_eq, valid, placed, numbered, loop, Except.map, bind, Except.bind]
  | ok kept =>
      have met : 0 + (byNumber faces).length - kept.length = faces.length - kept.length := by
        rw [Nat.zero_add, byNumber, List.length_mergeSort]
      rw [walked, Except.map, Arranging.behind, met] at loop
      simp only [canonical_eq, valid, placed, numbered, loop, bind, Except.bind]
      rfl

theorem canonical_of_clash (e : Failure) (walked : dropDuplicates [] (byNumber faces) = .error e) : m.canonical = .error e := by
  obtain ⟨table, _, done⟩ := canonical_walked m valid faces numbered names
  rw [done, walked]
  rfl

theorem canonical_of_kept (kept : List NumberedFace) (walked : dropDuplicates [] (byNumber faces) = .ok kept)
    (moved : List (List Nat)) (renumbered : kept.mapM (fun face => face.refs.mapM (renumber m.moves)) = .ok moved) :
    m.canonical = .ok (m.arrange kept moved, faces.length - kept.length) := by
  obtain ⟨table, tabled, done⟩ := canonical_walked m valid faces numbered names
  have pairs := (map_m_ok_iff _ _ _).mp renumbered
  have same : kept.map (NumberedFace.placed table) = moved := by
    rw [← List.forall₂_eq_eq_eq, List.forall₂_map_left_iff]
    exact pairs.imp fun face row found => placed_row table _ _ tabled face row found
  rw [done, walked, Except.map, same]

end Walked

def CanonicalSpec (m : Mesh) : Result (Mesh × Nat) → Prop
  | .ok (laid, dropped) => Arranged m laid dropped
  | .error e => ∃ gnum, e = .error (.inconsistentFace gnum) ∧ FirstClash m.faceKeys gnum

theorem canonical_spec (m : Mesh) (valid : m.check = .ok ()) : CanonicalSpec m m.canonical := by
  obtain ⟨rows, laid⟩ := (check_ok_iff m).mp valid
  obtain ⟨faces, numbered, keys, names⟩ := numbered_faces_laid m rows laid
  have same : ∀ key, key ∈ m.faceKeys ↔ key ∈ (byNumber faces).map NumberedFace.key := fun key => by
    rw [← keys]
    exact ((by_number_perm faces).map NumberedFace.key).mem_iff.symm
  have spec := drop_spec_congr _ _ same _ (drop_duplicates_spec [] (byNumber faces) (by_number_walks faces))
  cases walked : dropDuplicates [] (byNumber faces) with
  | error e =>
      rw [walked] at spec
      rwa [canonical_of_clash m valid faces numbered names e walked]
  | ok kept =>
      have among := kept_among [] (byNumber faces) kept walked
      obtain ⟨moved, renumbered, named⟩ := relaid m kept fun face member => names face ((by_number_perm faces).mem_iff.mp (among face member))
      have count : faces.length = m.faceCount := by rw [← face_keys_length m valid, ← keys, List.length_map]
      rw [walked] at spec
      rw [canonical_of_kept m valid faces numbered names kept walked moved renumbered, count]
      exact arrange_arranged m kept moved named spec

theorem canonical_both (a b : Mesh) (validA : a.check = .ok ()) (validB : b.check = .ok ())
    (members : ∀ key, key ∈ a.faceKeys ↔ key ∈ b.faceKeys) :
    (∃ gnum, a.canonical = refuse (.inconsistentFace gnum) ∧ b.canonical = refuse (.inconsistentFace gnum)) ∨
      ∃ laid dropped other count, a.canonical = .ok (laid, dropped) ∧ b.canonical = .ok (other, count) ∧
        Arranged a laid dropped ∧ Arranged b other count := by
  have specA := canonical_spec a validA
  have specB := canonical_spec b validB
  cases endsA : a.canonical with
  | error e =>
      rw [endsA] at specA
      obtain ⟨gnum, rfl, clash⟩ := specA
      cases endsB : b.canonical with
      | error other =>
          rw [endsB] at specB
          obtain ⟨second, rfl, clashB⟩ := specB
          exact .inl ⟨gnum, rfl, by rw [clashes_agree _ _ members gnum second clash clashB]; rfl⟩
      | ok result =>
          rw [endsB] at specB
          exact absurd (clash.congr _ _ (fun key => (members key).symm) gnum) (no_clash _ _ specB.faces gnum)
  | ok result =>
      rw [endsA] at specA
      cases endsB : b.canonical with
      | error other =>
          rw [endsB] at specB
          obtain ⟨gnum, rfl, clash⟩ := specB
          exact absurd (clash.congr _ _ members gnum) (no_clash _ _ specA.faces gnum)
      | ok other =>
          rw [endsB] at specB
          exact .inr ⟨_, _, _, _, rfl, rfl, specA, specB⟩

section Agreement

variable (a b : Mesh) (validA : a.check = .ok ()) (validB : b.check = .ok ()) (name : a.name = b.name)
  (globalFaces : a.globalFaces = b.globalFaces) (globalVertices : a.globalVertices = b.globalVertices)
  (vertices : a.vertices.Perm b.vertices) (distinct : (a.vertices.map Vertex.gnum).Nodup) (faces : a.faceKeys.Perm b.faceKeys)

include validA validB name globalFaces globalVertices vertices distinct faces

theorem arranged_agree (laid other : Mesh) (dropped count : Nat) (first : Arranged a laid dropped)
    (second : Arranged b other count) : (laid, dropped) = (other, count) := by
  have sorted : laid.vertices = other.vertices := by
    have perm := first.vertices.trans (vertices.trans second.vertices.symm)
    exact perm.eq_of_pairwise (fun v w _ _ => vertex_le_antisymm v w) first.ordered second.ordered
  have apart := arranged_distinct a laid dropped first distinct
  have keys := representatives_agree _ _ _ _ (fun _ => faces.mem_iff) first.faces second.faces
  have same : laid = other := determined laid other first.valid second.valid
    (first.name.trans (name.trans second.name.symm)) (first.globalFaces.trans (globalFaces.trans second.globalFaces.symm))
    (first.globalVertices.trans (globalVertices.trans second.globalVertices.symm)) sorted apart keys
  have counts : a.faceCount = b.faceCount := by
    rw [← face_keys_length a validA, ← face_keys_length b validB, faces.length_eq]
  rw [first.dropped, second.dropped, same, counts]

theorem canonical_agrees : a.canonical = b.canonical := by
  have both := canonical_both a b validA validB fun _ => faces.mem_iff
  rcases both with ⟨gnum, failsA, failsB⟩ | ⟨laid, dropped, other, count, endsA, endsB, first, second⟩
  · rw [failsA, failsB]
  · rw [endsA, endsB]
    exact congrArg Except.ok
      (arranged_agree a b validA validB name globalFaces globalVertices vertices distinct faces _ _ _ _ first second)

end Agreement

section Compacting

theorem merge_runs_ascending (kept rest : List Vertex) (renumbered : List (Nat × Nat))
    (ascending : (kept ++ rest).Pairwise fun a b => a.gnum < b.gnum)
    (known : ∀ i, i < kept.length → renumbered.lookup i = some i) :
    (mergeRuns kept renumbered (rest.zipIdx kept.length)).1 = kept ++ rest ∧
      ∀ i, i < (kept ++ rest).length → (mergeRuns kept renumbered (rest.zipIdx kept.length)).2.lookup i = some i := by
  induction rest generalizing kept renumbered with
  | nil => simpa [mergeRuns] using known
  | cons v rest ih =>
      have new : kept.getLast?.map Vertex.gnum ≠ some v.gnum := by
        intro same
        obtain ⟨last, ends, equal⟩ := Option.map_eq_some_iff.mp same
        have less := (List.pairwise_append.mp ascending).2.2 last (List.mem_of_getLast? ends) v (by simp)
        exact absurd (equal ▸ less) (UInt64.lt_irrefl _)
      have later := ih (kept ++ [v]) ((kept.length, kept.length) :: renumbered) (by simpa using ascending) fun i bound => ?_
      · simpa [mergeRuns, List.zipIdx_cons, new] using later
      · rw [List.lookup_cons]
        by_cases here : i = kept.length
        · simp [here]
        · have below : i < kept.length := by
            rw [List.length_append, List.length_singleton] at bound
            omega
          have other : (i == kept.length) = false := by simpa using here
          rw [other]
          exact known i below

theorem ordered_of_ascending (m : Mesh) (ordered : m.vertices.Pairwise fun a b => vertexLe a b = true) :
    m.orderedVertices = m.vertices.zipIdx := by
  refine List.mergeSort_of_pairwise ?_
  rw [← List.zipIdx_map_fst 0 m.vertices, List.pairwise_map] at ordered
  exact ordered

theorem compact_stays (m : Mesh) (valid : m.check = .ok ()) (ascending : m.vertices.Pairwise fun a b => a.gnum < b.gnum)
    (used : ∀ i, i < m.vertexCount → i ∈ m.faceRefs) : m.compact = .ok (m, 0) := by
  have ordered : m.vertices.Pairwise fun a b => vertexLe a b = true := ascending.imp fun {a b} less => by
    have different : a.gnum ≠ b.gnum := fun same => UInt64.lt_irrefl _ (same ▸ less)
    simp [vertexLe, different, less]
  have all : m.usedInOrder = m.vertices.zipIdx := by
    rw [usedInOrder, ordered_of_ascending m ordered]
    refine List.filter_eq_self.mpr fun item member => ?_
    have bound := (List.getElem?_eq_some_iff.mp (List.mem_zipIdx_iff_getElem?.mp member)).1
    simpa using used item.2 bound
  obtain ⟨kept, pairs⟩ := merge_runs_ascending [] m.vertices [] ascending (by simp)
  have same : (mergeRuns [] [] m.vertices.zipIdx).1 = m.vertices := kept
  have done := compact_renumbered m valid id fun v member => by
    rw [all, renumber_ok_iff]
    exact pairs v (refs_inside m valid v member)
  rw [all, same, List.map_id, vertexCount, Nat.sub_self] at done
  exact done

def Covered (m : Mesh) : Prop := ∀ v ∈ m.vertices, ∃ key ∈ m.faceKeys, v.gnum ∈ key.2

theorem arranged_ascends (m laid : Mesh) (dropped : Nat) (arranged : Arranged m laid dropped)
    (distinct : (m.vertices.map Vertex.gnum).Nodup) : laid.vertices.Pairwise fun a b => a.gnum < b.gnum := by
  have apart := arranged_distinct m laid dropped arranged distinct
  refine (arranged.ordered.and (List.pairwise_map.mp apart)).imp fun {a b} both => ?_
  obtain ⟨le, different⟩ := both
  simpa [vertexLe, different] using le

theorem compact_arranged (m laid : Mesh) (dropped : Nat) (arranged : Arranged m laid dropped)
    (distinct : (m.vertices.map Vertex.gnum).Nodup) (covered : m.Covered) : laid.compact = .ok (laid, 0) := by
  have apart := arranged_distinct m laid dropped arranged distinct
  refine compact_stays laid arranged.valid (arranged_ascends m laid dropped arranged distinct) fun i bound => ?_
  obtain ⟨rows, laidRows⟩ := (check_ok_iff laid).mp arranged.valid
  have inside : i < laid.vertices.length := bound
  have held : laid.vertices[i] ∈ m.vertices := arranged.vertices.mem_iff.mp (List.getElem_mem inside)
  obtain ⟨key, member, listed⟩ := covered _ held
  have kept := (arranged.faces.same key).mpr member
  obtain ⟨f, boundKey, rfl⟩ := List.getElem_of_mem kept
  have names := face_keys_names laid rows laidRows
  have boundRow : f < rows.length := names.length_eq ▸ boundKey
  obtain ⟨j, inRow, same⟩ := names_mem _ _ _ (names.get boundRow boundKey) _ listed
  have here : (laid.vertices.map Vertex.gnum)[i]? = some laid.vertices[i].gnum := by simp [inside]
  obtain rfl := (List.getElem?_inj (by simpa using inside) apart).mp (here.trans same.symm)
  rw [laidRows.refs]
  exact List.mem_flatten.mpr ⟨rows[f], List.getElem_mem boundRow, inRow⟩

end Compacting

end Seam.Mesh
