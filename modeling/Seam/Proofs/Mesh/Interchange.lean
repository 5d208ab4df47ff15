import Seam.Proofs.Mesh.Compaction
import Seam.Proofs.Mesh.Leading

set_option autoImplicit false

namespace Seam.Mesh

def leadingFacets (m : Mesh) : List Facet :=
  m.faceGnums.eraseDups.filterMap fun gnum => m.facets.find? fun item => item.1 == gnum

section Leading

variable (m : Mesh) (valid : m.check = .ok ())

include valid

theorem mem_leading_facets (item : Facet) :
    item ∈ m.leadingFacets ↔ m.facets.find? (fun other => other.1 == item.1) = some item := by
  simp only [leadingFacets, List.mem_filterMap, List.mem_eraseDups]
  constructor
  · rintro ⟨gnum, _, found⟩
    have same := List.find?_some found
    rw [beq_iff_eq] at same
    rwa [same]
  · intro found
    obtain ⟨f, place⟩ := List.getElem?_of_mem (List.mem_of_find?_eq_some found)
    exact ⟨item.1, List.mem_of_getElem? (facet_number m valid f item place), found⟩

theorem leading_within (item : Facet) (member : item ∈ m.leadingFacets) : item ∈ m.facets :=
  List.mem_of_find?_eq_some ((mem_leading_facets m valid item).mp member)

theorem leading_everything (distinct : m.faceGnums.Nodup) (item : Facet) (member : item ∈ m.facets) :
    item ∈ m.leadingFacets := by
  rw [mem_leading_facets m valid]
  obtain ⟨f, bound, rfl⟩ := List.getElem_of_mem member
  refine List.find?_eq_some_iff_getElem.mpr ⟨beq_self_eq_true _, f, bound, rfl, fun g earlier => ?_⟩
  have inside : g < m.facets.length := Nat.lt_trans earlier bound
  have here := facet_number m valid f _ (List.getElem?_eq_getElem bound)
  have there := facet_number m valid g _ (List.getElem?_eq_getElem inside)
  have other : m.facets[g].1 ≠ m.facets[f].1 := fun same => by
    have count := (List.getElem?_eq_some_iff.mp there).1
    exact Nat.ne_of_lt earlier ((List.getElem?_inj count distinct).mp (there.trans (same ▸ here.symm)))
  simpa using other

theorem canonical_arranged (laid : Mesh) (dropped : Nat) (done : m.canonical = .ok (laid, dropped)) : Arranged m laid dropped := by
  have spec := canonical_spec m valid
  rwa [done] at spec

theorem canonical_leading (laid : Mesh) (dropped : Nat) (done : m.canonical = .ok (laid, dropped)) (item : Facet) :
    item ∈ laid.facets ↔ item ∈ m.leadingFacets := by
  have arranged := canonical_arranged m valid laid dropped done
  rw [mem_leading_facets m valid]
  refine ⟨canonical_finds m valid laid dropped done item, fun found => ?_⟩
  obtain ⟨f, place⟩ := List.getElem?_of_mem (List.mem_of_find?_eq_some found)
  have number := List.mem_of_getElem? (facet_number m valid f item place)
  obtain ⟨k, kept⟩ := List.getElem?_of_mem (((arranged_numbers m laid dropped valid arranged).2 item.1).mpr number)
  have bound : k < laid.facets.length := by
    rw [facets_length laid arranged.valid]
    exact (List.getElem?_eq_some_iff.mp kept).1
  have listed := List.getElem_mem bound
  have here := facet_number laid arranged.valid k _ (List.getElem?_eq_getElem bound)
  have first := canonical_finds m valid laid dropped done _ listed
  rw [Option.some.inj (here.symm.trans kept), found] at first
  rwa [Option.some.inj first]

theorem canonical_used (laid : Mesh) (dropped : Nat) (done : m.canonical = .ok (laid, dropped)) (v : Vertex) :
    v ∈ laid.usedVertices ↔ v ∈ m.leadingFacets.flatMap Prod.snd := by
  have arranged := canonical_arranged m valid laid dropped done
  rw [← facets_records laid arranged.valid, List.mem_flatMap, List.mem_flatMap]
  simp only [canonical_leading m valid laid dropped done]

theorem compacted_named (gnum : UInt64) :
    gnum ∈ m.compacted.vertices.map Vertex.gnum ↔ ∃ key ∈ m.faceKeys, gnum ∈ key.2 := by
  constructor
  · intro member
    obtain ⟨v, kept, rfl⟩ := List.mem_map.mp member
    have used := ((compacted_vertices m v).mp kept).held
    rw [← facets_records m valid] at used
    obtain ⟨item, listed, among⟩ := List.mem_flatMap.mp used
    exact ⟨facetKey item, List.mem_map_of_mem listed, List.mem_map_of_mem among⟩
  · rintro ⟨key, known, named⟩
    obtain ⟨item, listed, rfl⟩ := List.mem_map.mp known
    obtain ⟨copy, among, rfl⟩ := List.mem_map.mp named
    have used : copy ∈ m.usedVertices := facets_records m valid ▸ List.mem_flatMap.mpr ⟨item, listed, among⟩
    obtain ⟨v, least, same⟩ := LeastCopy.found m.usedVertices copy used
    exact List.mem_map.mpr ⟨v, (compacted_vertices m v).mpr least, same⟩

end Leading

section Interchanging

variable (m laid : Mesh) (dropped : Nat) (valid : m.check = .ok ()) (done : m.canonical = .ok (laid, dropped))

theorem compacted_sorted (other : Mesh) (second : Arranged m.compacted other dropped) : other.vertices = m.compacted.vertices :=
  ascending_agree Vertex.gnum _ _ (arranged_ascends _ other dropped second (compacted_distinct m)) (compacted_ascends m) fun _ =>
    second.vertices.mem_iff

include valid done

theorem compacted_canonical : ∃ other, m.compacted.canonical = .ok (other, dropped) ∧ Arranged m.compacted other dropped := by
  obtain ⟨_, _, merged⟩ := compact_spec m valid
  have arranged := canonical_arranged m valid laid dropped done
  rcases canonical_both m m.compacted valid merged.valid fun key => by rw [merged.faces] with
    ⟨gnum, fails, _⟩ | ⟨_, _, other, count, _, ends, _, second⟩
  · cases done.symm.trans fails
  · have faces : other.faceKeys = laid.faceKeys :=
      representatives_agree _ _ _ _ (fun key => by rw [merged.faces]) second.faces arranged.faces
    have kept := congrArg List.length faces
    rw [face_keys_length _ second.valid, face_keys_length _ arranged.valid] at kept
    obtain rfl : count = dropped := by
      rw [second.dropped, arranged.dropped, kept]
      rfl
    exact ⟨other, ends, second⟩

variable (other : Mesh) (second : Arranged m.compacted other dropped)

include second

theorem interchanged_numbers : laid.compacted.vertices.map Vertex.gnum = other.vertices.map Vertex.gnum := by
  have arranged := canonical_arranged m valid laid dropped done
  rw [compacted_sorted m dropped other second]
  refine ascending_agree id _ _ (List.pairwise_map.mpr (compacted_ascends laid)) (List.pairwise_map.mpr (compacted_ascends m)) ?_
  intro gnum
  rw [compacted_named laid arranged.valid, compacted_named m valid]
  simp only [arranged.faces.same]

theorem interchanged : other = { laid.compacted with vertices := other.vertices } := by
  have arranged := canonical_arranged m valid laid dropped done
  obtain ⟨_, _, merged⟩ := compact_spec m valid
  obtain ⟨_, _, tidy⟩ := compact_spec laid arranged.valid
  have faces : laid.compacted.faceKeys = other.faceKeys := by
    rw [tidy.faces]
    exact representatives_agree _ _ _ _ (fun key => by rw [merged.faces]) arranged.faces second.faces
  exact determined_by_numbers _ _ tidy.valid second.valid (tidy.name.trans (arranged.name.trans (merged.name.symm.trans second.name.symm)))
    (tidy.globalFaces.trans (arranged.globalFaces.trans (merged.globalFaces.symm.trans second.globalFaces.symm)))
    (tidy.globalVertices.trans (arranged.globalVertices.trans (merged.globalVertices.symm.trans second.globalVertices.symm)))
    (interchanged_numbers m laid dropped valid done other second) (compacted_distinct laid) faces

omit second other in
theorem laid_compacted_vertices (v : Vertex) :
    v ∈ laid.compacted.vertices ↔ LeastCopy (m.leadingFacets.flatMap Prod.snd) v :=
  (compacted_vertices laid v).trans (LeastCopy.congr _ _ v (canonical_used m valid laid dropped done))

theorem interchanged_same_iff : laid.compacted = other ↔
    ∀ copy ∈ m.usedVertices, ∃ kept ∈ m.leadingFacets.flatMap Prod.snd, kept.gnum = copy.gnum ∧ kept.compare copy ≠ .gt := by
  have within : ∀ v ∈ m.leadingFacets.flatMap Prod.snd, v ∈ m.usedVertices := by
    intro v member
    obtain ⟨item, listed, among⟩ := List.mem_flatMap.mp member
    exact facets_records m valid ▸ List.mem_flatMap.mpr ⟨item, leading_within m valid item listed, among⟩
  have leading := laid_compacted_vertices m laid dropped valid done
  have whole := compacted_sorted m dropped other second
  rw [← LeastCopy.agree_iff m.usedVertices _ within]
  constructor
  · intro same v
    rw [← leading, ← compacted_vertices, same, whole]
  · intro agree
    have vertices : laid.compacted.vertices = other.vertices := by
      rw [whole]
      refine ascending_agree Vertex.gnum _ _ (compacted_ascends laid) (compacted_ascends m) fun v => ?_
      rw [leading, agree, compacted_vertices]
    rw [interchanged m laid dropped valid done other second, ← vertices]

omit second other in
theorem leading_suffices (once : m.faceGnums.Nodup ∨ (m.vertices.map Vertex.gnum).Nodup) (copy : Vertex)
    (used : copy ∈ m.usedVertices) :
    ∃ kept ∈ m.leadingFacets.flatMap Prod.snd, kept.gnum = copy.gnum ∧ kept.compare copy ≠ .gt := by
  have among := used
  rw [← facets_records m valid] at among
  obtain ⟨item, listed, held⟩ := List.mem_flatMap.mp among
  rcases once with faces | vertices
  · have leads := leading_everything m valid faces item listed
    exact ⟨copy, List.mem_flatMap.mpr ⟨item, leads, held⟩, rfl, (Vertex.compare_ne_gt_iff copy copy).mpr (le_refl _)⟩
  · have arranged := canonical_arranged m valid laid dropped done
    obtain ⟨first, kept, same⟩ := List.mem_map.mp ((arranged.faces.same _).mpr (List.mem_map_of_mem listed))
    have leads := (canonical_leading m valid laid dropped done first).mp kept
    have numbers : first.2.map Vertex.gnum = item.2.map Vertex.gnum := congrArg Prod.snd same
    obtain ⟨other, inFirst, number⟩ := List.mem_map.mp (numbers ▸ List.mem_map_of_mem held)
    have usedToo : other ∈ m.usedVertices :=
      facets_records m valid ▸ List.mem_flatMap.mpr ⟨first, leading_within m valid first leads, inFirst⟩
    obtain rfl := List.inj_on_of_nodup_map vertices (used_held m other usedToo) (used_held m copy used) number
    exact ⟨other, List.mem_flatMap.mpr ⟨first, leads, inFirst⟩, rfl, (Vertex.compare_ne_gt_iff other other).mpr (le_refl _)⟩

end Interchanging

-- Sorting and then compacting ends like compacting and then sorting, but for the records: the first leaves the least of the copies
-- on the first faces of each number, the second the least of the copies on all faces.
theorem sorting_and_compaction_meet (m laid : Mesh) (dropped : Nat) (valid : m.check = .ok ())
    (done : m.canonical = .ok (laid, dropped)) :
    ∃ tidy removed merged erased other before, laid.compact = .ok (tidy, removed) ∧ m.compact = .ok (merged, erased) ∧
      merged.canonical = .ok (other, dropped) ∧ m.records m.faceRefs = .ok before ∧
      other = { tidy with vertices := other.vertices } ∧ other.vertices.map Vertex.gnum = tidy.vertices.map Vertex.gnum ∧
      (∀ v, v ∈ tidy.vertices ↔ LeastCopy (m.leadingFacets.flatMap Prod.snd) v) ∧ (∀ v, v ∈ other.vertices ↔ LeastCopy before v) ∧
      (tidy = other ↔
        ∀ copy ∈ before, ∃ kept ∈ m.leadingFacets.flatMap Prod.snd, kept.gnum = copy.gnum ∧ kept.compare copy ≠ .gt) ∧
      (m.faceGnums.Nodup ∨ (m.vertices.map Vertex.gnum).Nodup → tidy = other) := by
  have arranged := canonical_arranged m valid laid dropped done
  obtain ⟨removed, tidied, _⟩ := compact_spec laid arranged.valid
  obtain ⟨erased, merges, _⟩ := compact_spec m valid
  obtain ⟨other, ends, second⟩ := compacted_canonical m laid dropped valid done
  have same := interchanged_same_iff m laid dropped valid done other second
  refine ⟨laid.compacted, removed, m.compacted, erased, other, m.usedVertices, tidied, merges, ends,
    records_inside m m.faceRefs (refs_inside m valid), interchanged m laid dropped valid done other second,
    (interchanged_numbers m laid dropped valid done other second).symm, laid_compacted_vertices m laid dropped valid done,
    fun v => ?_, same, fun once => same.mpr (leading_suffices m laid dropped valid done once)⟩
  rw [compacted_sorted m dropped other second, compacted_vertices]

def hem : Mesh :=
  { empty "hem" with
    faceGnums := [4, 4], faceIndex := [0, 3, 6], faceRefs := [0, 1, 2, 3, 1, 2]
    vertices := [thread 1 0x4000000000000000, thread 2 0, thread 3 0, thread 1 0x3FF0000000000000] }

def border : Mesh := { hem with faceRefs := [3, 1, 2, 0, 1, 2] }

def sewn : Mesh :=
  { border with
    faceGnums := [4], faceIndex := [0, 3], faceRefs := [0, 2, 3]
    vertices := [thread 1 0x3FF0000000000000, thread 1 0x4000000000000000, thread 2 0, thread 3 0] }

theorem border_meets : border.check = .ok () ∧ border.canonical = .ok (sewn, 1) ∧
    ∃ tidy removed merged erased, sewn.compact = .ok (tidy, removed) ∧ border.compact = .ok (merged, erased) ∧
      merged.canonical = .ok (tidy, 1) := by
  have valid : border.check = .ok () := by decide
  have sorted : border.canonical = .ok (sewn, 1) := (canonical_eq border).trans (by cbv)
  obtain ⟨tidy, removed, merged, erased, other, before, compacted, merges, ends, found, _, _, _, _, same, _⟩ :=
    sorting_and_compaction_meet border sewn 1 valid sorted
  obtain rfl : before = border.usedVertices := Except.ok.inj (found.symm.trans rfl)
  have leading : border.leadingFacets.flatMap Prod.snd = [thread 1 0x3FF0000000000000, thread 2 0, thread 3 0] := by cbv
  have equal : tidy = other := same.mpr (by rw [leading]; decide)
  exact ⟨valid, sorted, tidy, removed, merged, erased, compacted, merges, equal ▸ ends⟩

theorem hem_loses_a_copy : hem.check = .ok () ∧ ∃ laid tidy merged other before, hem.canonical = .ok (laid, 1) ∧
    laid.compact = .ok (tidy, 1) ∧ hem.compact = .ok (merged, 1) ∧ merged.canonical = .ok (other, 1) ∧ tidy ≠ other ∧
    hem.records hem.faceRefs = .ok before ∧ ∃ v ∈ tidy.vertices, ¬ LeastCopy before v := by
  let loose := thread 1 0x4000000000000000
  let tight := thread 1 0x3FF0000000000000
  let laid : Mesh := { sewn with name := "hem", faceRefs := [1, 2, 3] }
  let tidy : Mesh := { laid with faceRefs := [0, 1, 2], vertices := [loose, thread 2 0, thread 3 0] }
  let merged : Mesh := { hem with faceRefs := [0, 1, 2, 0, 1, 2], vertices := [tight, thread 2 0, thread 3 0] }
  let other : Mesh := { tidy with vertices := merged.vertices }
  have sorted : hem.canonical = .ok (laid, 1) := (canonical_eq hem).trans (by cbv)
  have compacted : laid.compact = .ok (tidy, 1) := compact_ordered laid (by decide) _ (ordered_of_ascending laid (by decide))
  have vertices : hem.orderedVertices = [(tight, 3), (loose, 0), (thread 2 0, 1), (thread 3 0, 2)] := by cbv
  have merges : hem.compact = .ok (merged, 1) := compact_ordered hem (by decide) _ vertices
  have ends : merged.canonical = .ok (other, 1) := (canonical_eq merged).trans (by cbv)
  have before : hem.records hem.faceRefs = .ok [loose, thread 2 0, thread 3 0, tight, thread 2 0, thread 3 0] := rfl
  refine ⟨by decide, laid, tidy, merged, other, _, sorted, compacted, merges, ends, by decide, before, loose, by decide, ?_⟩
  exact fun least => least.least tight (by decide) rfl (by decide)

end Seam.Mesh
