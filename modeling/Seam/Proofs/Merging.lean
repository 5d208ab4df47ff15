import Mathlib.Data.List.Nodup
import Seam.Proofs.Assembly
import Seam.Proofs.RecordOrder

set_option autoImplicit false

namespace Seam

theorem erase_dups_nodup (numbers : List UInt64) : numbers.eraseDups.Nodup := by
  cases numbers with
  | nil => simp
  | cons first rest =>
      have shorter : (rest.filter fun other => !other == first).length < rest.length + 1 :=
        Nat.lt_succ_of_le (List.length_filter_le _ rest)
      rw [List.eraseDups_cons, List.nodup_cons]
      refine ⟨?_, erase_dups_nodup (rest.filter fun other => !other == first)⟩
      simp
termination_by numbers.length

theorem erase_dups_append_one (numbers : List UInt64) (number : UInt64) :
    (numbers ++ [number]).eraseDups = if number ∈ numbers then numbers.eraseDups else numbers.eraseDups ++ [number] := by
  by_cases known : number ∈ numbers <;> simp [List.eraseDups_append, List.removeAll, known, List.eraseDups_cons]

theorem get_append_one_iff (numbers : List UInt64) (number : UInt64) (i : Nat) (absent : number ∉ numbers) :
    (numbers ++ [number])[i]? = some number ↔ i = numbers.length := by
  rcases Nat.lt_trichotomy i numbers.length with inside | rfl | beyond
  · rw [List.getElem?_append_left inside]
    exact ⟨fun found => absurd (List.mem_of_getElem? found) absent, fun last => absurd last (Nat.ne_of_lt inside)⟩
  · simp
  · have outside : (numbers ++ [number])[i]? = none := List.getElem?_eq_none (by simpa using Nat.succ_le_of_lt beyond)
    simp [outside, Nat.ne_of_gt beyond]

theorem get_append_other_iff (numbers : List UInt64) (number other : UInt64) (i : Nat) (different : other ≠ number) :
    (numbers ++ [number])[i]? = some other ↔ numbers[i]? = some other := by
  rw [List.getElem?_append]
  split
  · rfl
  · rename_i outside
    rw [List.getElem?_eq_none (not_lt.mp outside), List.getElem?_singleton]
    split <;> simp [Ne.symm different]

structure LeastCopy (copies : List Vertex) (v : Vertex) : Prop where
  held : v ∈ copies
  least : ∀ copy ∈ copies, copy.gnum = v.gnum → v.compare copy ≠ .gt

namespace LeastCopy

theorem unique (copies others : List Vertex) (v w : Vertex) (first : LeastCopy copies v) (second : LeastCopy others w)
    (same : v.gnum = w.gnum) (members : ∀ copy, copy ∈ copies ↔ copy ∈ others) : v = w := by
  have below := first.least w ((members w).mpr second.held) same.symm
  have above := second.least v ((members v).mp first.held) same
  rw [Vertex.compare_ne_gt_iff] at below above
  exact Vertex.key_injective v w (le_antisymm below above)

theorem congr (copies others : List Vertex) (v : Vertex) (members : ∀ copy, copy ∈ copies ↔ copy ∈ others) :
    LeastCopy copies v ↔ LeastCopy others v := by
  constructor
  · exact fun first => ⟨(members v).mp first.held, fun copy member => first.least copy ((members copy).mpr member)⟩
  · exact fun second => ⟨(members v).mpr second.held, fun copy member => second.least copy ((members copy).mp member)⟩

theorem beside (copies : List Vertex) (v other : Vertex) (kept : LeastCopy copies v) (different : other.gnum ≠ v.gnum) :
    LeastCopy (copies ++ [other]) v where
  held := List.mem_append_left _ kept.held
  least copy member same := by
    rcases List.mem_append.mp member with old | new
    · exact kept.least copy old same
    · obtain rfl : copy = other := by simpa using new
      exact absurd same different

theorem alone (copies : List Vertex) (v : Vertex) (fresh : v.gnum ∉ copies.map Vertex.gnum) : LeastCopy (copies ++ [v]) v where
  held := by simp
  least copy member same := by
    rcases List.mem_append.mp member with old | new
    · exact absurd (List.mem_map.mpr ⟨copy, old, same⟩) fresh
    · obtain rfl : copy = v := by simpa using new
      rw [Vertex.compare_ne_gt_iff]

theorem combine (copies : List Vertex) (known v : Vertex) (kept : LeastCopy copies known) (same : known.gnum = v.gnum) :
    LeastCopy (copies ++ [v]) (Reducer.least.combine known v) where
  held := by
    simp only [Reducer.combine]
    split
    · simp
    · exact List.mem_append_left _ kept.held
  least copy member gnum := by
    rw [Assembly.combine_gnum .least known v same] at gnum
    rw [Vertex.compare_ne_gt_iff, Reducer.key_combine]
    rcases List.mem_append.mp member with old | new
    · have below := kept.least copy old (gnum.trans same.symm)
      rw [Vertex.compare_ne_gt_iff] at below
      exact (min_le_left _ _).trans below
    · obtain rfl : copy = v := by simpa using new
      exact min_le_right _ _

end LeastCopy

namespace Assembly

-- The assembly has taken in these copies, and its slots are in step with its vertices.
structure Tracks (a : Assembly) (copies : List Vertex) : Prop where
  numbers : a.gnums = (copies.map Vertex.gnum).eraseDups
  slots : ∀ gnum i, a.slots.lookup gnum = some i ↔ a.gnums[i]? = some gnum
  least : ∀ v ∈ a.vertices, LeastCopy copies v

theorem empty_tracks : empty.Tracks [] := ⟨rfl, by simp [empty, gnums], by simp [empty]⟩

theorem tracks_distinct (a : Assembly) (copies : List Vertex) (tracks : a.Tracks copies) : a.gnums.Nodup :=
  tracks.numbers ▸ erase_dups_nodup _

theorem merged_tracks (a : Assembly) (copies : List Vertex) (v : Vertex) (i : Nat) (tracks : a.Tracks copies)
    (slot : a.slots.lookup v.gnum = some i) : (a.addVertex v).1.Tracks (copies ++ [v]) := by
  have place : a.gnums[i]? = some v.gnum := (tracks.slots v.gnum i).mp slot
  have kept : (a.addVertex v).1.gnums = a.gnums := by
    simp only [addVertex, slot]
    exact gnums_modify a.vertices i v place
  have met : v.gnum ∈ copies.map Vertex.gnum := by
    rw [← List.mem_eraseDups, ← tracks.numbers]
    exact List.mem_of_getElem? place
  refine ⟨?_, fun gnum j => ?_, fun w member => ?_⟩
  · rw [kept, tracks.numbers, List.map_append, List.map_singleton, erase_dups_append_one, if_pos met]
  · rw [kept, ← tracks.slots gnum]
    simp only [addVertex, slot, lessen]
  · simp only [addVertex, slot, lessen] at member
    obtain ⟨j, found⟩ := List.getElem?_of_mem member
    rw [List.getElem?_modify] at found
    cases old : a.vertices[j]? with
    | none => simp [old] at found
    | some known =>
        have stays := tracks.least known (List.mem_of_getElem? old)
        have number : a.gnums[j]? = some known.gnum := by simp [gnums, old]
        by_cases here : i = j
        · subst here
          obtain rfl : Reducer.least.combine known v = w := by simpa [old] using found
          exact LeastCopy.combine copies known v stays (Option.some.inj (number.symm.trans place))
        · obtain rfl : known = w := by simpa [old, here] using found
          refine LeastCopy.beside copies known v stays fun same => here ?_
          have bound := (List.getElem?_eq_some_iff.mp place).1
          exact (List.getElem?_inj bound (tracks_distinct a copies tracks)).mp (place.trans (same ▸ number.symm))

theorem grown_tracks (a : Assembly) (copies : List Vertex) (v : Vertex) (tracks : a.Tracks copies)
    (slot : a.slots.lookup v.gnum = none) : (a.addVertex v).1.Tracks (copies ++ [v]) := by
  have grown : (a.addVertex v).1.gnums = a.gnums ++ [v.gnum] := by simp [addVertex, slot, newVertex, gnums]
  have absent : v.gnum ∉ a.gnums := by
    intro member
    obtain ⟨i, found⟩ := List.getElem?_of_mem member
    cases slot.symm.trans ((tracks.slots v.gnum i).mpr found)
  have fresh : v.gnum ∉ copies.map Vertex.gnum := by
    rwa [tracks.numbers, List.mem_eraseDups] at absent
  refine ⟨?_, fun gnum i => ?_, fun w member => ?_⟩
  · rw [grown, tracks.numbers, List.map_append, List.map_singleton, erase_dups_append_one, if_neg fresh]
  · have slots : (a.addVertex v).1.slots = (v.gnum, a.gnums.length) :: a.slots := by simp [addVertex, slot, newVertex, gnums]
    rw [slots, grown, List.lookup_cons]
    by_cases new : gnum = v.gnum
    · subst new
      rw [beq_self_eq_true, get_append_one_iff a.gnums v.gnum i absent, Option.some.injEq, eq_comm]
    · have other : (gnum == v.gnum) = false := by simpa using new
      rw [other, get_append_other_iff a.gnums v.gnum gnum i new]
      exact tracks.slots gnum i
  · simp only [addVertex, slot, newVertex, List.mem_append, List.mem_singleton] at member
    rcases member with old | rfl
    · refine LeastCopy.beside copies w v (tracks.least w old) fun same => absent ?_
      rw [same]
      exact List.mem_map_of_mem old
    · exact LeastCopy.alone copies w fresh

theorem add_vertex_tracks (a : Assembly) (copies : List Vertex) (v : Vertex) (tracks : a.Tracks copies) :
    (a.addVertex v).1.Tracks (copies ++ [v]) := by
  cases slot : a.slots.lookup v.gnum with
  | some i => exact merged_tracks a copies v i tracks slot
  | none => exact grown_tracks a copies v tracks slot

theorem add_references_tracks (a : Assembly) (copies records : List Vertex) (tracks : a.Tracks copies) :
    (records.foldl addReference a).Tracks (copies ++ records) := by
  induction records generalizing a copies with
  | nil => simpa using tracks
  | cons v records ih =>
      obtain ⟨numbers, slots, least⟩ := add_vertex_tracks a copies v tracks
      rw [List.append_cons]
      exact ih (a.addReference v) (copies ++ [v]) ⟨numbers, slots, least⟩

theorem add_face_tracks (a : Assembly) (copies : List Vertex) (item : Facet) (tracks : a.Tracks copies) :
    (a.addFace item.1 item.2).Tracks (copies ++ item.2) := by
  obtain ⟨numbers, slots, least⟩ := add_references_tracks a copies item.2 tracks
  exact ⟨numbers, slots, least⟩

theorem add_facets_tracks (a : Assembly) (copies : List Vertex) (items : List Facet) (tracks : a.Tracks copies) :
    (a.addFacets items).Tracks (copies ++ items.flatMap Prod.snd) := by
  induction items generalizing a copies with
  | nil => simpa [addFacets] using tracks
  | cons item items ih =>
      rw [List.flatMap_cons, ← List.append_assoc]
      exact ih (a.addFace item.1 item.2) (copies ++ item.2) (add_face_tracks a copies item tracks)

theorem names_inside (numbers : List UInt64) (row : List Nat) (named : List UInt64) (names : Names numbers row named) :
    ∀ v ∈ row, v < numbers.length := by
  induction names with
  | nil => simp
  | cons head _ ih => exact List.forall_mem_cons.mpr ⟨(List.getElem?_eq_some_iff.mp head).1, ih⟩

theorem assembled_laid (items : List Facet) (name : String) : ∃ rows,
    ((empty.addFacets items).mesh name).Laid rows ∧
      List.Forall₂ (fun row item => Names (empty.addFacets items).gnums row (item.2.map Vertex.gnum)) rows items := by
  obtain ⟨rows, ⟨index, refs⟩, named⟩ := assembled_rows items
  refine ⟨rows, ⟨?_, index, refs, ?_⟩, named⟩
  · have count := assembled_names items name
    rw [Mesh.faceCount, count, List.length_map, named.length_eq]
  · intro row member
    obtain ⟨k, bound, rfl⟩ := List.getElem_of_mem member
    have inside := names_inside _ _ _ (named.get bound (named.length_eq ▸ bound))
    rwa [gnums, List.length_map] at inside

theorem assembled_check (items : List Facet) (name : String) : ((empty.addFacets items).mesh name).check = .ok () := by
  obtain ⟨rows, laid, _⟩ := assembled_laid items name
  exact (Mesh.check_ok_iff _).mpr ⟨rows, laid⟩

end Assembly

structure Mesh.Holds (m : Mesh) (items : List Facet) : Prop where
  numbers : m.faceGnums = items.map Prod.fst
  faces : ∀ k item, items[k]? = some item → m.faceVertexGnums k = .ok (item.2.map Vertex.gnum)
  distinct : (m.vertices.map Vertex.gnum).Nodup
  order : m.vertices.map Vertex.gnum = ((items.flatMap Prod.snd).map Vertex.gnum).eraseDups
  least : ∀ v ∈ m.vertices, LeastCopy (items.flatMap Prod.snd) v

theorem Assembly.assembled_holds (items : List Facet) (name : String) : ((empty.addFacets items).mesh name).Holds items := by
  have tracks := add_facets_tracks empty [] items empty_tracks
  rw [List.nil_append] at tracks
  exact ⟨assembled_names items name, assembled_face items name, tracks_distinct _ _ tracks, tracks.numbers, tracks.least⟩

theorem LeastCopy.found (copies : List Vertex) (copy : Vertex) (held : copy ∈ copies) :
    ∃ v, LeastCopy copies v ∧ v.gnum = copy.gnum := by
  have tracks := Assembly.add_references_tracks .empty [] copies Assembly.empty_tracks
  rw [List.nil_append] at tracks
  have listed : copy.gnum ∈ (copies.foldl Assembly.addReference .empty).gnums := by
    rw [tracks.numbers, List.mem_eraseDups]
    exact List.mem_map_of_mem held
  obtain ⟨v, member, same⟩ := List.mem_map.mp listed
  exact ⟨v, tracks.least v member, same⟩

theorem LeastCopy.agree_iff (copies others : List Vertex) (within : ∀ v ∈ others, v ∈ copies) :
    (∀ v, LeastCopy others v ↔ LeastCopy copies v) ↔
      ∀ copy ∈ copies, ∃ kept ∈ others, kept.gnum = copy.gnum ∧ kept.compare copy ≠ .gt := by
  constructor
  · intro agree copy member
    obtain ⟨v, least, same⟩ := LeastCopy.found copies copy member
    exact ⟨v, ((agree v).mpr least).held, same, least.least copy member same.symm⟩
  · intro below v
    constructor
    · intro least
      refine ⟨within v least.held, fun copy member same => ?_⟩
      obtain ⟨kept, listed, number, upTo⟩ := below copy member
      have first := least.least kept listed (number.trans same)
      rw [Vertex.compare_ne_gt_iff] at first upTo ⊢
      exact first.trans upTo
    · intro least
      obtain ⟨kept, listed, number, upTo⟩ := below v least.held
      have first := least.least kept (within kept listed) number
      rw [Vertex.compare_ne_gt_iff] at first upTo
      obtain rfl := Vertex.key_injective kept v (le_antisymm upTo first)
      exact ⟨listed, fun copy member same => least.least copy (within copy member) same⟩

end Seam
