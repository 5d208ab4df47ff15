import Seam.Journal
import Seam.Proofs.Edit
import Seam.Proofs.Mesh.Chains
import Seam.Proofs.Mesh.Layout

set_option autoImplicit false

namespace Seam.Mesh

section Sides

def steps (chain : List Nat) : List (Nat × Nat) := chain.zip chain.tail

def proper (walked : List (Nat × Nat)) : List (Nat × Nat) := walked.filter fun side => side.1 ≠ side.2

theorem sides_steps (refs : List Nat) (first : Nat) (starts : refs.head? = some first) :
    sides refs = steps (refs ++ [first]) := by
  cases refs with
  | nil => cases starts
  | cons v rest =>
      obtain rfl : v = first := Option.some.inj starts
      have cut : ((v :: rest) ++ [v]).zip ((rest ++ [v]) ++ []) = (v :: rest).zip (rest ++ [v]) ++ [v].zip [] :=
        List.zip_append (by simp)
      simpa [steps, sides] using cut.symm

theorem steps_laid (chain : List Nat) : steps (chain.foldl extend []) = proper (steps chain) := by
  induction chain with
  | nil => rfl
  | cons v chain ih =>
      rw [extend_cons]
      cases chain with
      | nil => rfl
      | cons w chain =>
          have onward : steps (v :: w :: chain) = (v, w) :: steps (w :: chain) := rfl
          by_cases same : w = v
          · subst same
            rw [List.head?_cons, if_pos rfl, ih, onward, proper, proper, List.filter_cons_of_neg (by simp)]
          · obtain ⟨rest, laid⟩ := List.head?_eq_some_iff.mp (fold_extend_head [w] chain w rfl)
            have starts : (w :: chain).foldl extend [] = w :: rest := laid
            have first : steps (v :: w :: rest) = (v, w) :: steps (w :: rest) := rfl
            rw [List.head?_cons, if_neg (by simpa using same), onward, proper, List.filter_cons_of_pos (by simpa using Ne.symm same),
              starts, first, ← starts, ih]
            rfl

theorem proper_sides (refs : List Nat) (first : Nat) (starts : refs.head? = some first) :
    proper (sides refs) = steps (extend (refs.foldl extend []) first) := by
  rw [sides_steps refs first starts, ← steps_laid, List.foldl_concat]

end Sides

section Collapsed

variable (refs : List Nat)

theorem collapsed_merged : (collapsed refs).IsChain (· ≠ ·) := by
  have merged := List.isChain_destutter (· ≠ ·) refs
  rw [collapsed]
  split
  · exact merged.prefix (List.dropLast_prefix _)
  · exact merged

theorem collapsed_sublist : (collapsed refs).Sublist refs := by
  have merged := List.destutter_sublist (· ≠ ·) refs
  rw [collapsed]
  split
  · exact (List.dropLast_sublist _).trans merged
  · exact merged

theorem close_up_head (chain : List Nat) : (closeUp chain).head? = chain.head? := by
  cases chain <;> rfl

theorem collapsed_head : (collapsed refs).head? = refs.head? := by
  rw [← close_up_laid, close_up_head]
  cases refs with
  | nil => rfl
  | cons v rest => exact fold_extend_head [v] rest v rfl

theorem collapsed_laid : (collapsed refs).foldl extend [] = collapsed refs :=
  (extend_all _).trans ((List.destutter_eq_self_iff _ _).mpr (collapsed_merged refs))

theorem collapsed_again : collapsed (collapsed refs) = collapsed refs := by
  simpa using collapsed_moved id refs

theorem collapsed_ends_apart (long : 1 < (collapsed refs).length) : (collapsed refs).getLast? ≠ (collapsed refs).head? := by
  intro closes
  have again := collapsed_again refs
  rw [collapsed, ← extend_all, collapsed_laid] at again
  rw [if_pos ⟨long, closes⟩] at again
  have shorter := congrArg List.length again
  rw [List.length_dropLast] at shorter
  omega

-- On the way back to the first vertex it does not matter whether the last reference was that vertex already.
theorem extend_collapsed (first : Nat) (starts : refs.head? = some first) :
    extend (collapsed refs) first = extend (refs.foldl extend []) first := by
  have merged : (refs.foldl extend []).IsChain (· ≠ ·) := extend_all refs ▸ List.isChain_destutter (· ≠ ·) refs
  have head : (refs.foldl extend []).head? = some first := by
    rw [← close_up_head, close_up_laid, collapsed_head, starts]
  rw [collapsed, ← extend_all]
  split
  · rename_i closes
    obtain ⟨front, upTo⟩ := List.getLast?_eq_some_iff.mp (closes.2.trans head)
    rw [upTo] at merged ⊢
    have other : front.getLast? ≠ some first := fun last =>
      (List.isChain_append.mp merged).2.2 first last first (by simp) rfl
    rw [List.dropLast_concat, extend, if_neg other, extend, if_pos List.getLast?_concat]
  · rfl

theorem sides_collapsed : proper (sides (collapsed refs)) = proper (sides refs) := by
  cases starts : refs.head? with
  | none =>
      obtain rfl := List.head?_eq_none_iff.mp starts
      rfl
  | some first =>
      rw [proper_sides refs first starts, proper_sides _ first ((collapsed_head refs).trans starts), collapsed_laid,
        extend_collapsed refs first starts]

theorem collapsed_sides_apart (long : 1 < (collapsed refs).length) (a b : Nat) (side : (a, b) ∈ sides (collapsed refs)) :
    a ≠ b := by
  cases starts : (collapsed refs).head? with
  | none =>
      rw [List.head?_eq_none_iff.mp starts] at side
      cases side
  | some first =>
      have other : (collapsed refs).getLast? ≠ some first := starts ▸ collapsed_ends_apart refs long
      have all : proper (sides (collapsed refs)) = sides (collapsed refs) := by
        rw [proper_sides _ first starts, collapsed_laid, extend, if_neg other, sides_steps _ first starts]
      rw [← all] at side
      simpa using (List.mem_filter.mp side).2

end Collapsed

section Degenerate

def firstDegenerate (gnums : List UInt64) (faces : List (List Nat)) : Option (Nat × UInt64 × Nat) :=
  (gnums.zip faces).zipIdx.findSome? fun ((gnum, refs), f) =>
    if refs.length < 3 then some (f, gnum, refs.length) else none

variable (gnums : List UInt64) (faces : List (List Nat))

theorem first_degenerate_append (refs : List Nat) (gnum : UInt64) (number : gnums[faces.length]? = some gnum) :
    firstDegenerate gnums (faces ++ [refs]) =
      (firstDegenerate gnums faces).or (if refs.length < 3 then some (faces.length, gnum, refs.length) else none) := by
  have bound : faces.length < gnums.length := (List.getElem?_eq_some_iff.mp number).1
  have zipped : gnums.zip (faces ++ [refs]) = gnums.zip faces ++ [(gnum, refs)] := by
    clear bound
    induction faces generalizing gnums with
    | nil =>
        cases gnums with
        | nil => cases number
        | cons first gnums =>
            obtain rfl : first = gnum := Option.some.inj number
            simp
    | cons face faces ih =>
        cases gnums with
        | nil => cases number
        | cons first gnums => exact congrArg ((first, face) :: ·) (ih gnums number)
  have count : (gnums.zip faces).length = faces.length := by
    rw [List.length_zip]
    omega
  rw [firstDegenerate, zipped, List.zipIdx_append, List.findSome?_append, Nat.zero_add, count]
  by_cases thin : refs.length < 3 <;> simp [firstDegenerate, thin]

theorem numbered_iff (f : Nat) (gnum : UInt64) (refs : List Nat) :
    ((gnum, refs), f) ∈ (gnums.zip faces).zipIdx ↔ gnums[f]? = some gnum ∧ faces[f]? = some refs := by
  rw [List.mem_zipIdx_iff_getElem?, List.getElem?_zip_eq_some]

theorem face_numbered (count : faces.length = gnums.length) (f : Nat) (refs : List Nat) (face : faces[f]? = some refs) :
    ∃ gnum, ((gnum, refs), f) ∈ (gnums.zip faces).zipIdx := by
  have bound : f < gnums.length := count ▸ (List.getElem?_eq_some_iff.mp face).1
  exact ⟨gnums[f], (numbered_iff gnums faces f _ refs).mpr ⟨List.getElem?_eq_getElem bound, face⟩⟩

structure FirstDegenerate (f : Nat) (gnum : UInt64) (refs : List Nat) : Prop where
  number : gnums[f]? = some gnum
  face : faces[f]? = some refs
  small : refs.length < 3
  before : ∀ g < f, ∀ other, faces[g]? = some other → 3 ≤ other.length

theorem first_degenerate_found (f size : Nat) (gnum : UInt64) (count : faces.length = gnums.length)
    (found : firstDegenerate gnums faces = some (f, gnum, size)) :
    ∃ refs, FirstDegenerate gnums faces f gnum refs ∧ size = refs.length := by
  obtain ⟨front, ⟨⟨number, refs⟩, place⟩, rest, split, small, fine⟩ := List.findSome?_eq_some_iff.mp found
  obtain ⟨before, after, both, rfl, tail⟩ := List.zipIdx_eq_append_iff.mp split
  obtain ⟨_, _, rfl, here, _⟩ := List.zipIdx_eq_cons_iff.mp tail.symm
  obtain ⟨rfl, rfl⟩ := Prod.mk.inj here
  dsimp only at small
  split at small
  · rename_i short
    simp only [Nat.zero_add, Option.some.injEq, Prod.mk.injEq] at small
    obtain ⟨rfl, rfl, rfl⟩ := small
    have place : (gnums.zip faces)[before.length]? = some (number, refs) := by simp [both]
    obtain ⟨numbered, face⟩ := List.getElem?_zip_eq_some.mp place
    refine ⟨refs, ⟨numbered, face, short, fun g earlier other faceToo => ?_⟩, rfl⟩
    obtain ⟨numberToo, known⟩ := face_numbered gnums faces count g other faceToo
    rw [List.mem_zipIdx_iff_getElem?, both, List.getElem?_append_left earlier] at known
    simpa using fine ((numberToo, other), g) (List.mem_zipIdx_iff_getElem?.mpr known)
  · cases small

theorem first_degenerate_none_iff (count : faces.length = gnums.length) :
    firstDegenerate gnums faces = none ↔ ∀ refs ∈ faces, 3 ≤ refs.length := by
  constructor
  · intro none refs member
    obtain ⟨f, face⟩ := List.getElem?_of_mem member
    obtain ⟨gnum, numbered⟩ := face_numbered gnums faces count f refs face
    simpa using List.findSome?_eq_none_iff.mp none _ numbered
  · intro full
    cases found : firstDegenerate gnums faces with
    | none => rfl
    | some place =>
        obtain ⟨refs, first, _⟩ := first_degenerate_found gnums faces place.1 place.2.2 place.2.1 count found
        exact absurd (full refs (List.mem_of_getElem? first.face)) (Nat.not_le_of_lt first.small)

end Degenerate

section Loop

def degenerate (place : Nat × UInt64 × Nat) : Error := .degenerateFace place.1 place.2.1 place.2.2

def Collapsing.behind (m : Mesh) (faces : List (List Nat)) : Collapsing :=
  ⟨.laid (faces.map collapsed), (firstDegenerate m.faceGnums (faces.map collapsed)).map degenerate⟩

theorem collapse_next_behind (m : Mesh) (before : List (List Nat)) (face : List Nat) (bound : before.length < m.faceCount) :
    m.collapseNext (.behind m before) (face, before.length) = .ok (.behind m (before ++ [face])) := by
  have number : m.faceGnums[(before.map collapsed).length]? = some (m.faceGnums.get ⟨before.length, bound⟩) := by
    rw [List.length_map]
    exact List.getElem?_eq_getElem bound
  have fetched : fetch m.faceGnums before.length = .ok (m.faceGnums.get ⟨before.length, bound⟩) :=
    (fetch_eq_ok_iff _ _ _).mpr (List.getElem?_eq_getElem _)
  have rows := Ragged.Rows.append_laid (before.map collapsed) (collapsed face)
  have degenerates := first_degenerate_append m.faceGnums _ (collapsed face) _ number
  rw [List.length_map] at degenerates
  rw [Collapsing.behind, Collapsing.behind, List.map_append, List.map_singleton, degenerates, ← rows]
  simp only [collapseNext, Ragged.Rows.laid, Ragged.Rows.append, collapse_onto_append, close_up_laid, List.length_append,
    Nat.add_sub_cancel_left]
  by_cases thin : (collapsed face).length < 3
  · rw [if_pos thin, if_pos thin, fetched]
    cases firstDegenerate m.faceGnums (before.map collapsed) <;> rfl
  · rw [if_neg thin, if_neg thin, Option.or_none]
    rfl

theorem collapse_loop (m : Mesh) (faces : List (List Nat)) (count : faces.length = m.faceCount) :
    faces.zipIdx.foldlM m.collapseNext (.behind m []) = .ok (.behind m faces) := by
  refine fold_m_numbered m.collapseNext (.behind m) faces fun before face upTo => collapse_next_behind m before face ?_
  have inside := upTo.length_le
  rw [List.length_append, List.length_singleton] at inside
  omega

end Loop

section Collapsing

variable (m : Mesh) (faces : List (List Nat)) (laid : m.Laid faces)

include laid

theorem collapsed_faces_laid : (m.withFaces (faces.map collapsed)).Laid (faces.map collapsed) where
  count := (List.length_map ..).trans laid.count
  index := rfl
  refs := rfl
  inside := by
    rw [List.forall_mem_map]
    exact fun refs member v listed => laid.inside refs member v ((collapsed_sublist refs).subset listed)

theorem collapse_laid : m.collapse =
    match firstDegenerate m.faceGnums (faces.map collapsed) with
    | some (f, gnum, size) => refuse (.degenerateFace f gnum size)
    | none => .ok (m.withFaces (faces.map collapsed), m.faceRefs.length - (faces.map collapsed).flatten.length) := by
  have valid := (check_ok_iff m).mpr ⟨faces, laid⟩
  have found := faces_laid m faces laid.count laid.index laid.refs
  have run := collapse_loop m faces laid.count
  have start : Collapsing.behind m [] = ⟨.blank, none⟩ := by simp [Collapsing.behind, firstDegenerate, Ragged.Rows.laid_nil]
  simp only [collapse, Edit.outcome, collapsing, Edit.result_get_bind, Edit.left_get_bind, valid, found, ← start,
    Edit.ok_bind]
  rw [run]
  cases thin : firstDegenerate m.faceGnums (faces.map collapsed) with
  | none =>
      simp only [Edit.ok_bind, Collapsing.behind, thin, Option.map_none]
      rfl
  | some place =>
      simp only [Edit.ok_bind, Collapsing.behind, thin, Option.map_some]
      rfl

theorem collapse_full (full : ∀ refs ∈ faces, 3 ≤ (collapsed refs).length) : m.collapse =
    .ok (m.withFaces (faces.map collapsed), m.faceRefs.length - (faces.map collapsed).flatten.length) := by
  have none := (first_degenerate_none_iff m.faceGnums (faces.map collapsed) ((List.length_map ..).trans laid.count)).mpr
    (List.forall_mem_map.mpr full)
  rw [collapse_laid m faces laid, none]

theorem collapse_thin (thin : ¬ ∀ refs ∈ faces, 3 ≤ (collapsed refs).length) :
    ∃ f gnum refs, FirstDegenerate m.faceGnums (faces.map collapsed) f gnum refs ∧
      m.collapse = refuse (.degenerateFace f gnum refs.length) := by
  have count : (faces.map collapsed).length = m.faceGnums.length := (List.length_map ..).trans laid.count
  cases found : firstDegenerate m.faceGnums (faces.map collapsed) with
  | none => exact absurd (List.forall_mem_map.mp ((first_degenerate_none_iff _ _ count).mp found)) thin
  | some place =>
      obtain ⟨f, gnum, size⟩ := place
      obtain ⟨refs, first, rfl⟩ := first_degenerate_found _ _ f size gnum count found
      refine ⟨f, gnum, refs, first, ?_⟩
      rw [collapse_laid m faces laid, found]

theorem collapsed_refs_length : (faces.map collapsed).flatten.length ≤ m.faceRefs.length := by
  rw [laid.refs]
  clear laid
  induction faces with
  | nil => exact Nat.le_refl 0
  | cons refs faces ih =>
      have kept := (collapsed_sublist refs).length_le
      simp only [List.map_cons, List.flatten_cons, List.length_append]
      omega

theorem collapse_again (full : ∀ refs ∈ faces, 3 ≤ (collapsed refs).length) :
    (m.withFaces (faces.map collapsed)).collapse = .ok (m.withFaces (faces.map collapsed), 0) := by
  have same : (faces.map collapsed).map collapsed = faces.map collapsed := by
    rw [List.map_map]
    exact List.map_congr_left fun refs _ => collapsed_again refs
  have again := collapse_full _ _ (collapsed_faces_laid m faces laid)
    (List.forall_mem_map.mpr fun refs member => (collapsed_again refs).symm ▸ full refs member)
  have none : (m.withFaces (faces.map collapsed)).faceRefs.length - (faces.map collapsed).flatten.length = 0 := Nat.sub_self _
  rw [again, same, none]
  rfl

end Collapsing

theorem collapse_refused (m : Mesh) (e : Failure) (invalid : m.check = .error e) : m.collapse = .error e :=
  Edit.outcome_refused m check _ e invalid

theorem collapse_checked (m : Mesh) (outcome : Mesh × Nat) (done : m.collapse = .ok outcome) : m.check = .ok () := by
  cases valid : m.check with
  | ok _ => rfl
  | error e => cases done.symm.trans (collapse_refused m e valid)

theorem collapsing_atomic (m : Mesh) : collapsing.Atomic m := by
  refine Edit.atomic_get_bind _ _ (Edit.atomic_look_bind _ _ _ fun _ _ => ?_)
  refine Edit.atomic_look_bind _ _ _ fun faces _ => Edit.atomic_look_bind _ _ _ fun ended _ => ?_
  obtain ⟨rows, thin⟩ := ended
  cases thin with
  | none => exact Edit.atomic_of_ok _ _ _ rfl
  | some cause => exact Edit.atomic_throw _ _

theorem collapse_done (m result : Mesh) (removed : Nat) (done : m.collapse = .ok (result, removed)) :
    ∃ faces, m.Laid faces ∧ result = m.withFaces (faces.map collapsed) := by
  obtain ⟨faces, laid⟩ := (check_ok_iff m).mp (collapse_checked m _ done)
  refine ⟨faces, laid, ?_⟩
  by_cases full : ∀ refs ∈ faces, 3 ≤ (collapsed refs).length
  · have same := done.symm.trans (collapse_full m faces laid full)
    exact (Prod.mk.inj (Except.ok.inj same)).1
  · obtain ⟨f, gnum, refs, _, refused⟩ := collapse_thin m faces laid full
    cases done.symm.trans refused

section Warnings

variable (m : Mesh) (verbosity : Int)

theorem collapsed_face_warns_iff (gnum : UInt64) (f : Nat) (refs : List Nat) :
    (∃ note ∈ Journal.collapsedFace m verbosity gnum f refs, note.level = .warning) ↔ (collapsed refs).length < 3 := by
  have same : collapseOnto [] refs = collapsed refs := (collapse_onto_append [] refs).trans (close_up_laid refs)
  by_cases thin : (collapsed refs).length < 3
  · simp [Journal.collapsedFace, same, thin]
  · simp [Journal.collapsedFace, same, thin]

theorem faces_warn_iff (faces : List (List Nat)) (count : faces.length = m.faceGnums.length) :
    (∃ note ∈ (m.faceGnums.zip faces).zipIdx.flatMap fun ((gnum, refs), f) => Journal.collapsedFace m verbosity gnum f refs,
      note.level = .warning) ↔ ¬ ∀ refs ∈ faces, 3 ≤ (collapsed refs).length := by
  constructor
  · intro ⟨note, written, warns⟩ full
    obtain ⟨⟨⟨gnum, refs⟩, f⟩, listed, among⟩ := List.mem_flatMap.mp written
    obtain ⟨_, face⟩ := (numbered_iff m.faceGnums faces f gnum refs).mp listed
    have thin := (collapsed_face_warns_iff m verbosity gnum f refs).mp ⟨note, among, warns⟩
    exact Nat.not_le_of_lt thin (full refs (List.mem_of_getElem? face))
  · intro thin
    push Not at thin
    obtain ⟨refs, member, small⟩ := thin
    obtain ⟨f, face⟩ := List.getElem?_of_mem member
    obtain ⟨gnum, listed⟩ := face_numbered m.faceGnums faces count f refs face
    obtain ⟨note, among, warns⟩ := (collapsed_face_warns_iff m verbosity gnum f refs).mpr small
    exact ⟨note, List.mem_flatMap.mpr ⟨((gnum, refs), f), listed, among⟩, warns⟩

theorem collapse_warns_iff (valid : m.check = .ok ()) :
    (∃ note ∈ Journal.collapse m verbosity m.collapse, note.level = .warning) ↔ ∃ e, m.collapse = .error e := by
  obtain ⟨faces, laid⟩ := (check_ok_iff m).mp valid
  have found := faces_laid m faces laid.count laid.index laid.refs
  have warned := faces_warn_iff m verbosity faces laid.count
  simp only [Journal.collapse, valid, found, bind, Except.bind, Journal.onSuccess, List.mem_append, or_and_right, exists_or, warned]
  by_cases full : ∀ refs ∈ faces, 3 ≤ (collapsed refs).length
  · rw [collapse_full m faces laid full]
    by_cases loud : 0 < verbosity
    · simpa [loud] using full
    · simpa [loud] using full
  · obtain ⟨f, gnum, refs, _, refused⟩ := collapse_thin m faces laid full
    rw [refused]
    simp [full, refuse]

end Warnings

-- Where every face keeps three vertices or more, the faces are replaced by their collapses, and a second run finds nothing.
-- Otherwise the first face that would be left with fewer is reported. The verbosity decides over the notes in the log alone, and
-- not over the warnings.
theorem collapse_removes_repeats (m : Mesh) (valid : m.check = .ok ()) :
    ∃ faces, m.faces = .ok faces ∧
      ((∀ refs ∈ faces, 3 ≤ (collapsed refs).length) → ∃ result removed, m.collapse = .ok (result, removed) ∧
        result = m.withFaces (faces.map collapsed) ∧ result.check = .ok () ∧ result.faces = .ok (faces.map collapsed) ∧
        result.faceRefs.length + removed = m.faceRefs.length ∧
        (∀ refs ∈ faces, (collapsed refs).head? = refs.head? ∧ ∀ a b, (a, b) ∈ sides (collapsed refs) → a ≠ b) ∧
        result.collapse = .ok (result, 0)) ∧
      ((¬ ∀ refs ∈ faces, 3 ≤ (collapsed refs).length) → ∃ f gnum refs,
        FirstDegenerate m.faceGnums (faces.map collapsed) f gnum refs ∧
        m.collapse = refuse (.degenerateFace f gnum refs.length) ∧ collapsing.left m = m) ∧
      ∀ verbosity, (∃ note ∈ Journal.collapse m verbosity m.collapse, note.level = .warning) ↔ ∃ e, m.collapse = .error e := by
  obtain ⟨faces, laid⟩ := (check_ok_iff m).mp valid
  have found := faces_laid m faces laid.count laid.index laid.refs
  refine ⟨faces, found, fun full => ?_, fun thin => ?_, fun verbosity => collapse_warns_iff m verbosity valid⟩
  · have after := collapsed_faces_laid m faces laid
    refine ⟨_, _, collapse_full m faces laid full, rfl, (check_ok_iff _).mpr ⟨_, after⟩, ?_, ?_, fun refs member => ?_,
      collapse_again m faces laid full⟩
    · exact faces_laid _ _ after.count after.index after.refs
    · exact Nat.add_sub_cancel' (collapsed_refs_length m faces laid)
    · have long : 1 < (collapsed refs).length := Nat.lt_of_lt_of_le (by decide) (full refs member)
      exact ⟨collapsed_head refs, collapsed_sides_apart refs long⟩
  · obtain ⟨f, gnum, refs, first, refused⟩ := collapse_thin m faces laid thin
    exact ⟨f, gnum, refs, first, refused, collapsing_atomic m _ ((Edit.outcome_error_iff _ _ _).mp refused)⟩

def frill : Mesh :=
  { empty "frill" with
    faceGnums := [1, 2], faceIndex := [0, 7, 11], faceRefs := [0, 0, 1, 2, 2, 0, 0, 0, 3, 3, 2]
    vertices := (List.range 4).map fun i => ⟨.ofNat (i + 1), ⟨0⟩, ⟨⟨0⟩, ⟨0⟩, ⟨0⟩⟩⟩ }

def frayed : Mesh := { frill with faceGnums := [1, 2, 3], faceIndex := [0, 7, 9, 11] }

theorem frill_collapses :
    frill.check = .ok () ∧ (∃ result, frill.collapse = .ok (result, 5) ∧ result.faces = .ok [[0, 1, 2], [0, 3, 2]] ∧
      result.collapse = .ok (result, 0)) ∧
    frayed.check = .ok () ∧ frayed.collapse = refuse (.degenerateFace 1 2 2) := by
  have valid : frill.check = .ok () := by decide
  have validToo : frayed.check = .ok () := by decide
  obtain ⟨faces, found, full, _⟩ := collapse_removes_repeats frill valid
  obtain ⟨others, foundToo, _, thin, _⟩ := collapse_removes_repeats frayed validToo
  obtain rfl : faces = [[0, 0, 1, 2, 2, 0, 0], [0, 3, 3, 2]] := Except.ok.inj (found.symm.trans (by decide))
  obtain rfl : others = [[0, 0, 1, 2, 2, 0, 0], [0, 3], [3, 2]] := Except.ok.inj (foundToo.symm.trans (by decide))
  obtain ⟨result, removed, done, shape, _, laid, count, _, again⟩ := full (by decide)
  obtain ⟨f, gnum, refs, first, refused, _⟩ := thin (by decide)
  have six : result.faceRefs.length = 6 := shape ▸ rfl
  obtain rfl : removed = 5 := Nat.add_left_cancel ((six ▸ count).trans rfl)
  have bound : f < 3 := (List.getElem?_eq_some_iff.mp first.face).1
  have early : ¬ 1 < f := fun later => absurd (first.before 1 later [0, 3] rfl) (by decide)
  have late : f ≠ 0 := by
    intro zero
    subst zero
    obtain rfl : [0, 1, 2] = refs := Option.some.inj first.face
    exact absurd first.small (by decide)
  obtain rfl : f = 1 := by omega
  obtain rfl : 2 = gnum := Option.some.inj first.number
  obtain rfl : [0, 3] = refs := Option.some.inj first.face
  exact ⟨valid, ⟨result, done, laid, again⟩, validToo, refused⟩

end Seam.Mesh
