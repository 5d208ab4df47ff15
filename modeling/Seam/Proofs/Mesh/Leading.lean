import Mathlib.Order.Bounds.Defs
import Seam.Proofs.Mesh.Canonical

set_option autoImplicit false

namespace Seam.Mesh

structure Leads (m : Mesh) (gnum : UInt64) (f : Nat) : Prop where
  number : m.faceGnums[f]? = some gnum
  first : ∀ g, g < f → m.faceGnums[g]? ≠ some gnum

def Clashes (m : Mesh) (gnum : UInt64) : Prop :=
  ∃ f g numbers others, m.faceGnums[f]? = some gnum ∧ m.faceGnums[g]? = some gnum ∧
    m.faceVertexGnums f = .ok numbers ∧ m.faceVertexGnums g = .ok others ∧ numbers ≠ others

section Numbers

variable (faces : List NumberedFace) (gnum : UInt64)

theorem by_number_filter :
    (byNumber faces).filter (fun face => face.gnum == gnum) = faces.filter fun face => face.gnum == gnum := by
  have alike : (faces.filter fun face => face.gnum == gnum).Pairwise fun a b => decide (a.gnum ≤ b.gnum) = true := by
    refine List.Pairwise.imp_of_mem (fun {a b} memberA memberB _ => ?_) (List.pairwise_of_forall fun _ _ => trivial)
    have numberA := eq_of_beq (List.mem_filter.mp memberA).2
    have numberB := eq_of_beq (List.mem_filter.mp memberB).2
    simp [numberA, numberB]
  have within : (faces.filter fun face => face.gnum == gnum).Sublist (byNumber faces) :=
    List.sublist_mergeSort number_le_trans number_le_total alike List.filter_sublist
  have kept := within.filter fun face => face.gnum == gnum
  rw [List.filter_filter, List.filter_congr fun face _ => Bool.and_self _] at kept
  exact (kept.eq_of_length ((by_number_perm faces).filter _).length_eq.symm).symm

theorem by_number_find :
    (byNumber faces).find? (fun face => face.gnum == gnum) = faces.find? fun face => face.gnum == gnum := by
  rw [← List.head?_filter, ← List.head?_filter, by_number_filter]

end Numbers

theorem ascending_find (faces : List NumberedFace) (ascending : faces.Pairwise fun a b => a.gnum < b.gnum)
    (face : NumberedFace) (member : face ∈ faces) : faces.find? (fun other => other.gnum == face.gnum) = some face := by
  cases found : faces.find? fun other => other.gnum == face.gnum with
  | none => exact absurd (beq_self_eq_true face.gnum) (List.find?_eq_none.mp found face member)
  | some other =>
      have same := List.find?_some found
      rw [beq_iff_eq] at same
      have listed := List.mem_of_find?_eq_some found
      rw [ascending_unique NumberedFace.gnum faces ascending other face listed member same]

theorem find_skipped (kept rest : List NumberedFace) (face last : NumberedFace) (member : last ∈ kept)
    (same : last.gnum = face.gnum) (gnum : UInt64) :
    (kept ++ face :: rest).find? (fun other => other.gnum == gnum) = (kept ++ rest).find? fun other => other.gnum == gnum := by
  rw [List.find?_append, List.find?_append]
  by_cases here : face.gnum = gnum
  · have met : (kept.find? fun other => other.gnum == gnum).isSome := by
      rw [List.find?_isSome]
      exact ⟨last, member, by simp [same, here]⟩
    obtain ⟨found, search⟩ := Option.isSome_iff_exists.mp met
    rw [search, Option.some_or, Option.some_or]
  · rw [List.find?_cons_of_neg (by simpa using here)]

theorem drop_keeps_first (kept faces chosen : List NumberedFace) (walking : Walking kept faces)
    (ok : dropDuplicates kept faces = .ok chosen) :
    ∀ face ∈ chosen, (kept ++ faces).find? (fun other => other.gnum == face.gnum) = some face := by
  fun_induction dropDuplicates kept faces with
  | case1 kept =>
      obtain rfl := Except.ok.inj ok
      rw [List.append_nil]
      exact ascending_find kept walking.ascending
  | case2 kept face rest last ends sameNumber sameVertices ih =>
      intro other member
      rw [find_skipped kept rest face last (List.mem_of_getLast? ends) sameNumber]
      exact ih (walking_skip kept rest face walking) ok other member
  | case3 => cases ok
  | case4 kept face rest last ends other ih =>
      rw [List.append_cons]
      refine ih (walking_keep kept rest face walking fun found same => ?_) ok
      obtain rfl := Option.some.inj (ends.symm.trans same)
      exact other
  | case5 kept face rest ends ih =>
      rw [List.append_cons]
      exact ih (walking_keep kept rest face walking fun found same => by cases ends.symm.trans same) ok

theorem drop_ascending (kept faces : List NumberedFace) (ascending : (kept ++ faces).Pairwise fun a b => a.gnum < b.gnum) :
    dropDuplicates kept faces = .ok (kept ++ faces) := by
  induction faces generalizing kept with
  | nil => rw [dropDuplicates, List.append_nil]
  | cons face rest ih =>
      have apart : ∀ last, kept.getLast? = some last → last.gnum ≠ face.gnum := fun last ends same => by
        have less := (List.pairwise_append.mp ascending).2.2 last (List.mem_of_getLast? ends) face (by simp)
        exact UInt64.lt_irrefl _ (same ▸ less)
      rw [List.append_cons] at ascending ⊢
      rw [dropDuplicates]
      cases ends : kept.getLast? with
      | none => exact ih _ ascending
      | some last =>
          dsimp only
          rw [if_neg (apart last ends)]
          exact ih _ ascending

section Keeping

variable (m : Mesh) (rows : List (List Nat)) (laid : m.Laid rows)

def NumberedFace.facet (face : NumberedFace) : Facet := (face.gnum, look m.vertices face.refs)

theorem renumber_look (row moved : List Nat) (inside : ∀ v ∈ row, v < m.vertexCount)
    (ok : row.mapM (renumber m.moves) = .ok moved) : look m.sortedVertices moved = look m.vertices row := by
  have pairs := (map_m_ok_iff _ _ _).mp ok
  clear ok
  induction pairs with
  | nil => rfl
  | @cons old new row moved head _ ih =>
      have bound : old < m.vertices.length := inside old (by simp)
      have found : m.vertices[old]? = some m.vertices[old] := by simp [bound]
      obtain ⟨place, renumbered, here⟩ := renumber_moves m old _ found
      obtain rfl := Except.ok.inj (head.symm.trans renumbered)
      have rest := ih fun other member => inside other (by simp [member])
      rw [look, look, List.filterMap_cons, List.filterMap_cons, here, found]
      exact congrArg (_ :: ·) rest

include laid

theorem numbered_faces_rows (faces : List NumberedFace) (ok : m.numberedFaces = .ok faces) :
    faces.map NumberedFace.gnum = m.faceGnums ∧ faces.map NumberedFace.refs = rows := by
  have pairs := (map_m_ok_iff _ _ _).mp ok
  have count : rows.length = m.faceGnums.length := laid.count
  have size : faces.length = m.faceGnums.length := by rw [← pairs.length_eq, List.length_zipIdx]
  have each : ∀ f, (bound : f < faces.length) → m.face f = .ok faces[f].refs ∧ faces[f].gnum = m.faceGnums[f] := by
    intro f bound
    have one := pairs.get (i := f) (by simpa [size] using bound) bound
    simp only [List.get_eq_getElem, List.getElem_zipIdx, Nat.zero_add] at one
    obtain ⟨refs, face, one⟩ := bind_ok _ _ _ one
    obtain ⟨records, _, one⟩ := bind_ok _ _ _ one
    have same := Except.ok.inj one
    rw [← same]
    exact ⟨face, rfl⟩
  constructor
  · refine List.ext_getElem (by simp [size]) fun f bound _ => ?_
    rw [List.getElem_map]
    exact (each f (by simpa using bound)).2
  · refine List.ext_getElem (by simp [size, count]) fun f bound other => ?_
    have found := face_laid m rows laid.index laid.refs f rows[f] (by simp)
    rw [List.getElem_map]
    exact Except.ok.inj ((each f (by simpa using bound)).1.symm.trans found)

theorem numbered_facets (faces : List NumberedFace) (ok : m.numberedFaces = .ok faces) :
    faces.map (NumberedFace.facet m) = m.facets := by
  obtain ⟨numbers, refs⟩ := numbered_faces_rows m rows laid faces ok
  rw [facets_laid m rows laid, ← numbers, ← refs, List.zipWith_map, List.zipWith_self]
  rfl

end Keeping

section Layout

variable (m : Mesh) (valid : m.check = .ok ())

theorem relaid_look (kept : List NumberedFace) (moved : List (List Nat))
    (inside : ∀ face ∈ kept, ∀ v ∈ face.refs, v < m.vertexCount)
    (ok : kept.mapM (fun face => face.refs.mapM (renumber m.moves)) = .ok moved) :
    moved.map (look m.sortedVertices) = kept.map fun face => look m.vertices face.refs := by
  have pairs := (map_m_ok_iff _ _ _).mp ok
  clear ok
  induction pairs with
  | nil => rfl
  | cons head _ ih =>
      have rest := ih fun other member => inside other (by simp [member])
      rw [List.map_cons, List.map_cons, rest, renumber_look m _ _ (inside _ (by simp)) head]

theorem arrange_facets (kept : List NumberedFace) (moved : List (List Nat)) (laid : (m.arrange kept moved).Laid moved)
    (looked : moved.map (look m.sortedVertices) = kept.map fun face => look m.vertices face.refs) :
    (m.arrange kept moved).facets = kept.map (NumberedFace.facet m) := by
  have looking : (m.arrange kept moved).facets =
      List.zipWith Prod.mk (kept.map NumberedFace.gnum) (moved.map (look m.sortedVertices)) := by
    rw [facets_laid _ moved laid, List.zipWith_map_right]
    rfl
  rw [looking, looked, List.zipWith_map, List.zipWith_self]
  rfl

include valid

theorem canonical_done (result : Mesh) (dropped : Nat) (done : m.canonical = .ok (result, dropped)) :
    ∃ faces kept, m.numberedFaces = .ok faces ∧ dropDuplicates [] (byNumber faces) = .ok kept ∧
      result.facets = kept.map (NumberedFace.facet m) := by
  obtain ⟨rows, laid⟩ := (check_ok_iff m).mp valid
  obtain ⟨faces, numbered, _, names⟩ := numbered_faces_laid m rows laid
  cases walked : dropDuplicates [] (byNumber faces) with
  | error e => cases done.symm.trans (canonical_of_clash m valid faces numbered names e walked)
  | ok kept =>
  have among := kept_among [] (byNumber faces) kept walked
  have held : ∀ face ∈ kept, face ∈ faces := fun face member => (by_number_perm faces).mem_iff.mp (among face member)
  obtain ⟨moved, renumbered, named⟩ := relaid m kept fun face member => names face (held face member)
  have same := done.symm.trans (canonical_of_kept m valid faces numbered names kept walked moved renumbered)
  obtain rfl : result = m.arrange kept moved := congrArg Prod.fst (Except.ok.inj same)
  refine ⟨faces, kept, numbered, walked, arrange_facets m kept moved (arrange_laid m kept moved named) ?_⟩
  refine relaid_look m kept moved (fun face member v listed => ?_) renumbered
  have inside := Assembly.names_inside _ _ _ (names face (held face member)) v listed
  rwa [List.length_map] at inside

theorem canonical_finds (result : Mesh) (dropped : Nat) (done : m.canonical = .ok (result, dropped)) :
    ∀ item ∈ result.facets, m.facets.find? (fun other => other.1 == item.1) = some item := by
  obtain ⟨rows, laid⟩ := (check_ok_iff m).mp valid
  obtain ⟨faces, kept, numbered, walked, facets⟩ := canonical_done m valid result dropped done
  intro item member
  obtain ⟨face, listed, rfl⟩ := List.mem_map.mp (facets ▸ member)
  have first := drop_keeps_first [] (byNumber faces) kept (by_number_walks faces) walked face listed
  rw [List.nil_append, by_number_find] at first
  rw [← numbered_facets m rows laid faces numbered, List.find?_map]
  exact congrArg (Option.map (NumberedFace.facet m)) first

theorem facet_number (f : Nat) (item : Facet) (found : m.facets[f]? = some item) : m.faceGnums[f]? = some item.1 :=
  (facet_ok m f item ((facet_of_check m valid f item).mpr found).1).1

theorem leads_of_find (item : Facet) (found : m.facets.find? (fun other => other.1 == item.1) = some item) :
    ∃ f, m.Leads item.1 f ∧ m.facet f = .ok item := by
  obtain ⟨_, f, bound, rfl, before⟩ := List.find?_eq_some_iff_getElem.mp found
  have here : m.facets[f]? = some m.facets[f] := List.getElem?_eq_getElem bound
  refine ⟨f, ⟨facet_number m valid f _ here, fun g earlier number => ?_⟩, ((facet_of_check m valid f _).mpr here).1⟩
  have inside : g < m.facets.length := Nat.lt_trans earlier bound
  have other := facet_number m valid g _ (List.getElem?_eq_getElem inside)
  have same := Option.some.inj (other.symm.trans number)
  simpa [same] using before g earlier

end Layout

section Again

variable (m : Mesh) (ordered : m.vertices.Pairwise fun a b => vertexLe a b = true)

include ordered

theorem renumber_ordered (old : Nat) (inside : old < m.vertexCount) : renumber m.moves old = .ok old := by
  have bound : old < m.vertices.length := inside
  obtain ⟨new, renumbered, _⟩ := renumber_moves m old m.vertices[old] (by simp [bound])
  cases lookup : m.moves.lookup old with
  | none => simp [renumber, lookup] at renumbered
  | some place =>
      obtain ⟨before, after, split, _⟩ := List.lookup_eq_some_iff.mp lookup
      obtain ⟨v, moved⟩ := (mem_moves m old place).mp (split ▸ (by simp))
      have still : place = old := by
        rw [ordered_of_ascending m ordered, List.getElem?_zipIdx] at moved
        obtain ⟨_, _, pair⟩ := Option.map_eq_some_iff.mp moved
        simpa using congrArg Prod.snd pair
      rw [renumber, lookup, still]

theorem canonical_stays (valid : m.check = .ok ()) (ascending : m.faceGnums.Pairwise (· < ·)) : m.canonical = .ok (m, 0) := by
  obtain ⟨rows, laid⟩ := (check_ok_iff m).mp valid
  obtain ⟨faces, numbered, _, names⟩ := numbered_faces_laid m rows laid
  obtain ⟨numbers, refs⟩ := numbered_faces_rows m rows laid faces numbered
  have rising : faces.Pairwise fun a b => a.gnum < b.gnum := by rwa [← numbers, List.pairwise_map] at ascending
  have sorted : (faces.mergeSort fun a b => a.gnum ≤ b.gnum) = faces :=
    List.mergeSort_of_pairwise (rising.imp fun less => decide_eq_true (UInt64.le_of_lt less))
  have kept : dropDuplicates [] faces = .ok faces := drop_ascending [] faces rising
  have still : ∀ face ∈ faces, face.refs.mapM (renumber m.moves) = .ok face.refs := by
    intro face member
    have row : face.refs ∈ rows := refs ▸ List.mem_map_of_mem member
    have each := map_m_ok (renumber m.moves) id face.refs fun v listed => renumber_ordered m ordered v (laid.inside _ row v listed)
    rwa [List.map_id] at each
  have moved : faces.mapM (fun face => face.refs.mapM (renumber m.moves)) = .ok rows := by
    rw [map_m_ok _ NumberedFace.refs faces still, refs]
  have vertices : m.sortedVertices = m.vertices := by
    rw [sortedVertices, ordered_of_ascending m ordered, List.zipIdx_map_fst]
  have same : m.arrange faces rows = m := by
    rw [arrange, numbers, vertices, withFaces, ← laid.index, ← laid.refs]
  have walked : dropDuplicates [] (byNumber faces) = .ok faces := by rw [byNumber, sorted, kept]
  rw [canonical_of_kept m valid faces numbered names faces walked rows moved, same, Nat.sub_self]

end Again

section Clashing

variable (m : Mesh) (valid : m.check = .ok ())

include valid

theorem mem_face_keys (gnum : UInt64) (numbers : List UInt64) :
    (gnum, numbers) ∈ m.faceKeys ↔ ∃ f, m.faceGnums[f]? = some gnum ∧ m.faceVertexGnums f = .ok numbers := by
  constructor
  · intro member
    obtain ⟨item, listed, same⟩ := List.mem_map.mp member
    obtain ⟨rfl, rfl⟩ := Prod.mk.inj same
    obtain ⟨f, found⟩ := List.getElem?_of_mem listed
    exact ⟨f, facet_ok m f item ((facet_of_check m valid f item).mpr found).1⟩
  · rintro ⟨f, number, named⟩
    have bound : f < m.facets.length := by
      rw [facets_length m valid]
      exact (List.getElem?_eq_some_iff.mp number).1
    obtain ⟨numberToo, namedToo⟩ := facet_ok m f _ ((facet_of_check m valid f _).mpr (List.getElem?_eq_getElem bound)).1
    obtain rfl := Option.some.inj (numberToo.symm.trans number)
    obtain rfl := Except.ok.inj (namedToo.symm.trans named)
    exact List.mem_map_of_mem (List.getElem_mem bound)

theorem clashes_iff (gnum : UInt64) :
    m.Clashes gnum ↔ ∃ a ∈ m.faceKeys, ∃ b ∈ m.faceKeys, a.1 = gnum ∧ b.1 = gnum ∧ a.2 ≠ b.2 := by
  constructor
  · rintro ⟨f, g, numbers, others, numberF, numberG, namedF, namedG, differ⟩
    exact ⟨(gnum, numbers), (mem_face_keys m valid _ _).mpr ⟨f, numberF, namedF⟩, (gnum, others),
      (mem_face_keys m valid _ _).mpr ⟨g, numberG, namedG⟩, rfl, rfl, differ⟩
  · rintro ⟨⟨_, numbers⟩, memberA, ⟨_, others⟩, memberB, rfl, rfl, differ⟩
    obtain ⟨f, numberF, namedF⟩ := (mem_face_keys m valid _ _).mp memberA
    obtain ⟨g, numberG, namedG⟩ := (mem_face_keys m valid _ _).mp memberB
    exact ⟨f, g, numbers, others, numberF, numberG, namedF, namedG, differ⟩

theorem first_clash_least (gnum : UInt64) (first : FirstClash m.faceKeys gnum) : IsLeast {number | m.Clashes number} gnum := by
  refine ⟨(clashes_iff m valid gnum).mpr first.clash, fun number clashes => UInt64.not_lt.mp fun less => ?_⟩
  obtain ⟨a, memberA, b, memberB, numberA, numberB, differ⟩ := (clashes_iff m valid number).mp clashes
  exact differ (first.below a memberA b memberB (numberA.trans numberB.symm) (numberA ▸ less))

end Clashing

section Outcome

variable (m laid : Mesh) (dropped : Nat) (valid : m.check = .ok ()) (arranged : Arranged m laid dropped)

include valid arranged

theorem arranged_unclashing (gnum : UInt64) : ¬ m.Clashes gnum := by
  intro clashes
  obtain ⟨a, memberA, b, memberB, numberA, numberB, differ⟩ := (clashes_iff m valid gnum).mp clashes
  have same := representatives_unique _ _ arranged.faces a b memberA memberB (numberA.trans numberB.symm)
  exact differ (congrArg Prod.snd same)

theorem arranged_numbers :
    (laid.faceGnums.Pairwise (· < ·)) ∧ ∀ gnum, gnum ∈ laid.faceGnums ↔ gnum ∈ m.faceGnums := by
  obtain ⟨rows, whole⟩ := (check_ok_iff m).mp valid
  obtain ⟨others, parts⟩ := (check_ok_iff laid).mp arranged.valid
  rw [← face_keys_numbers m rows whole, ← face_keys_numbers laid others parts]
  refine ⟨List.pairwise_map.mpr arranged.faces.ascending, fun gnum => ?_⟩
  simp only [List.mem_map, arranged.faces.same]

theorem arranged_counts : laid.faceCount + dropped = m.faceCount := by
  have distinct : laid.faceKeys.Nodup := arranged.faces.ascending.imp fun less same => by
    rw [same] at less
    exact UInt64.lt_irrefl _ less
  have fewer := distinct.length_le_of_subset fun key member => (arranged.faces.same key).mp member
  rw [face_keys_length m valid, face_keys_length laid arranged.valid] at fewer
  rw [arranged.dropped]
  exact Nat.add_sub_cancel' fewer

end Outcome

-- Sorting fails exactly when two faces of one number disagree, and reports the least such number. Otherwise each number is left
-- with its first face, on the records that this face had before, all vertices stay, and sorting again finds nothing to do.
theorem canonical_sorts_or_clashes (m : Mesh) (valid : m.check = .ok ()) :
    ((∃ gnum, m.Clashes gnum) → ∃ gnum, IsLeast {number | m.Clashes number} gnum ∧
      m.canonical = refuse (.inconsistentFace gnum) ∧ arranging.left m = m) ∧
    ((¬ ∃ gnum, m.Clashes gnum) → ∃ result dropped, m.canonical = .ok (result, dropped) ∧ result.check = .ok () ∧
      result.name = m.name ∧ result.globalFaces = m.globalFaces ∧ result.globalVertices = m.globalVertices ∧
      result.faceCount + dropped = m.faceCount ∧ result.vertices.Perm m.vertices ∧
      (result.vertices.Pairwise fun a b => a.gnum < b.gnum ∨ a.gnum = b.gnum ∧ a.compare b ≠ .gt) ∧
      (result.faceGnums.Pairwise (· < ·)) ∧ (∀ gnum, gnum ∈ result.faceGnums ↔ gnum ∈ m.faceGnums) ∧
      (∀ k, k < result.faceCount → ∃ item f, result.facet k = .ok item ∧ m.Leads item.1 f ∧ m.facet f = .ok item) ∧
      result.canonical = .ok (result, 0)) := by
  have spec := canonical_spec m valid
  cases done : m.canonical with
  | error e =>
      rw [done] at spec
      obtain ⟨gnum, rfl, first⟩ := spec
      have least := first_clash_least m valid gnum first
      have stays := arranging_atomic m _ ((Edit.outcome_error_iff _ _ _).mp done)
      exact ⟨fun _ => ⟨gnum, least, rfl, stays⟩, fun none => absurd ⟨gnum, least.1⟩ none⟩
  | ok outcome =>
      obtain ⟨result, dropped⟩ := outcome
      rw [done] at spec
      have arranged : Arranged m result dropped := spec
      obtain ⟨ascending, numbers⟩ := arranged_numbers m result dropped valid arranged
      have inOrder : result.vertices.Pairwise fun a b => a.gnum < b.gnum ∨ a.gnum = b.gnum ∧ a.compare b ≠ .gt := by
        refine arranged.ordered.imp fun {a b} le => ?_
        by_cases same : a.gnum = b.gnum
        · exact .inr ⟨same, compare_of_vertex_le a b le same⟩
        · exact .inl (by simpa [vertexLe, same] using le)
      have leading : ∀ k, k < result.faceCount → ∃ item f, result.facet k = .ok item ∧ m.Leads item.1 f ∧ m.facet f = .ok item := by
        intro k bound
        have inside : k < result.facets.length := by rwa [facets_length result arranged.valid]
        have first := canonical_finds m valid result dropped done _ (List.getElem_mem inside)
        obtain ⟨f, leads, same⟩ := leads_of_find m valid _ first
        exact ⟨result.facets[k], f, ((facet_of_check result arranged.valid k _).mpr (List.getElem?_eq_getElem inside)).1, leads, same⟩
      have plain : ¬ ∃ gnum, m.Clashes gnum := not_exists.mpr (arranged_unclashing m result dropped valid arranged)
      refine ⟨fun clashes => absurd clashes plain, fun _ => ?_⟩
      exact ⟨result, dropped, rfl, arranged.valid, arranged.name, arranged.globalFaces, arranged.globalVertices,
        arranged_counts m result dropped valid arranged, arranged.vertices, inOrder, ascending, numbers, leading,
        canonical_stays result arranged.ordered arranged.valid ascending⟩

def thread (gnum tolerance : UInt64) : Vertex := ⟨gnum, ⟨tolerance⟩, ⟨⟨0⟩, ⟨0⟩, ⟨0⟩⟩⟩

def sash : Mesh :=
  { empty "sash" with
    faceGnums := [5, 2, 5, 2], faceIndex := [0, 3, 6, 9, 12], faceRefs := [0, 1, 2, 4, 1, 0, 0, 3, 2, 4, 3, 0]
    vertices := [thread 30 0, thread 10 0x4000000000000000, thread 20 0, thread 10 0x3FF0000000000000, thread 40 0] }

def ruck : Mesh := { sash with faceGnums := [9, 9, 5, 5] }

theorem sash_sorts :
    sash.check = .ok () ∧ (∃ result, sash.canonical = .ok (result, 2) ∧ result.faceGnums = [2, 5] ∧
      result.canonical = .ok (result, 0)) ∧
    ruck.check = .ok () ∧ ruck.canonical = refuse (.inconsistentFace 5) := by
  have valid : sash.check = .ok () := by decide
  have validToo : ruck.check = .ok () := by decide
  have plain : ¬ ∃ gnum, sash.Clashes gnum := by
    rintro ⟨gnum, clashes⟩
    obtain ⟨a, memberA, b, memberB, rfl, same, differ⟩ := (clashes_iff sash valid gnum).mp clashes
    have agree : ∀ a ∈ sash.faceKeys, ∀ b ∈ sash.faceKeys, b.1 = a.1 → a.2 = b.2 := by decide
    exact differ (agree a memberA b memberB same)
  have torn : ruck.Clashes 5 := (clashes_iff ruck validToo 5).mpr (by decide)
  obtain ⟨_, sorts⟩ := canonical_sorts_or_clashes sash valid
  obtain ⟨fails, _⟩ := canonical_sorts_or_clashes ruck validToo
  obtain ⟨result, dropped, done, _, _, _, _, count, _, _, ascending, numbers, _, again⟩ := sorts plain
  obtain ⟨gnum, ⟨clashes, least⟩, refused, _⟩ := fails ⟨5, torn⟩
  have two : result.faceGnums = [2, 5] := ascending_agree id _ _ ascending (by decide) fun gnum => by
    rw [numbers]
    simp only [sash, List.mem_cons, List.not_mem_nil, or_false]
    grind
  have faces : result.faceCount = 2 := by rw [faceCount, two]; rfl
  obtain rfl : dropped = 2 := by
    rw [faces] at count
    exact Nat.add_left_cancel (count.trans rfl)
  have five : gnum = 5 := by
    obtain ⟨a, memberA, _, _, rfl, _⟩ := (clashes_iff ruck validToo gnum).mp clashes
    have numbers : ∀ a ∈ ruck.faceKeys, a.1 ≤ 5 → a.1 = 5 := by decide
    exact numbers a memberA (least torn)
  exact ⟨valid, ⟨result, done, two, again⟩, validToo, five ▸ refused⟩

end Seam.Mesh
