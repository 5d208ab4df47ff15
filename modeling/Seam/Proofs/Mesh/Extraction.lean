import Seam.Proofs.Mesh.Cutting

set_option autoImplicit false

namespace Seam.Mesh.Extract

theorem first_repeat_none_iff (seen items : List Nat) :
    firstRepeat seen items = none ↔ (∀ v ∈ items, v ∉ seen) ∧ items.Nodup := by
  induction items generalizing seen with
  | nil => simp [firstRepeat]
  | cons v items ih =>
      by_cases met : v ∈ seen
      · simp [firstRepeat, met]
      · simp only [firstRepeat, List.contains_iff_mem, met, if_false, ih, List.mem_cons, not_or, List.nodup_cons]
        constructor
        · rintro ⟨apart, once⟩
          refine ⟨?_, fun again => (apart v again).1 rfl, once⟩
          rintro w (rfl | member)
          · exact met
          · exact (apart w member).2
        · rintro ⟨apart, fresh, once⟩
          exact ⟨fun w member => ⟨fun same => fresh (same ▸ member), apart w (.inr member)⟩, once⟩

variable (e : Extract)

def start (p : Nat) : Nat := e.faceIndex.getD p 0

def stop (p : Nat) : Nat := e.faceIndex.getD (p + 1) 0

def span (p : Nat) : List Nat := (e.faceRefs.take (e.stop p)).drop (e.start p)

-- Parent face `p` has a number and two boundaries, these enclose a span of the references, and its vertices are chosen.
structure Usable (p : Nat) : Prop where
  indexed : p < e.faceIndex.length - 1
  numbered : p < e.faceGnums.length
  ordered : e.start p ≤ e.stop p
  enclosed : e.stop p ≤ e.faceRefs.length
  chosen : ∀ v ∈ e.span p, v ∈ e.chosenVertices

structure Consistent : Prop where
  recorded : e.chosenVertices.length = e.records.length
  once : e.chosenVertices.Nodup
  usable : ∀ p ∈ e.chosenFaces, e.Usable p

instance (p : Nat) : Decidable (e.Usable p) :=
  decidable_of_iff (p < e.faceIndex.length - 1 ∧ p < e.faceGnums.length ∧ e.start p ≤ e.stop p ∧ e.stop p ≤ e.faceRefs.length ∧
      ∀ v ∈ e.span p, v ∈ e.chosenVertices)
    ⟨fun ⟨indexed, numbered, ordered, enclosed, chosen⟩ => ⟨indexed, numbered, ordered, enclosed, chosen⟩,
      fun ⟨indexed, numbered, ordered, enclosed, chosen⟩ => ⟨indexed, numbered, ordered, enclosed, chosen⟩⟩

instance : Decidable e.Consistent :=
  decidable_of_iff (e.chosenVertices.length = e.records.length ∧ e.chosenVertices.Nodup ∧ ∀ p ∈ e.chosenFaces, e.Usable p)
    ⟨fun ⟨recorded, once, usable⟩ => ⟨recorded, once, usable⟩, fun ⟨recorded, once, usable⟩ => ⟨recorded, once, usable⟩⟩

def taken (p : Nat) : UInt64 × List Nat := (e.faceGnums.getD p 0, (e.span p).map e.chosenVertices.idxOf)

def extracted (name : String) : Mesh :=
  { empty name with
    vertices := e.records
    faceGnums := (e.chosenFaces.map e.taken).map Prod.fst
    globalFaces := e.globalFaces
    globalVertices := e.globalVertices }.withFaces ((e.chosenFaces.map e.taken).map Prod.snd)

theorem boundary (i : Nat) (inside : i < e.faceIndex.length) : fetch e.faceIndex i = .ok (e.faceIndex.getD i 0) :=
  (fetch_eq_ok_iff _ _ _).mpr (by simp [inside])

def place (f v : Nat) : Result Nat :=
  match e.chosenVertices.idxOf? v with
  | some i => .ok i
  | none => refuse (.selection (.unselectedVertex f v))

theorem place_chosen (f v : Nat) (member : v ∈ e.chosenVertices) : e.place f v = .ok (e.chosenVertices.idxOf v) := by
  rw [place, idx_of_member e.chosenVertices v member]

theorem chosen_of_place (f v i : Nat) (ok : e.place f v = .ok i) : v ∈ e.chosenVertices := by
  cases found : e.chosenVertices.idxOf? v with
  | none => simp [place, found, refuse] at ok
  | some position =>
      obtain ⟨bound, same, _⟩ := List.idxOf?_eq_some_iff.mp found
      exact same ▸ List.getElem_mem bound

theorem place_guarded (f v : Nat) : Guarded (e.place f v) := by
  rw [place]
  split
  · exact guarded_ok _
  · exact guarded_refuse _

theorem face_usable (f p : Nat) (usable : e.Usable p) : e.face f p = .ok (e.taken p) := by
  obtain ⟨indexed, numbered, ordered, enclosed, chosen⟩ := usable
  have known : ¬ (e.faceIndex.length - 1 ≤ p ∨ e.faceGnums.length ≤ p) := by omega
  have fits : ¬ (e.stop p < e.start p ∨ e.faceRefs.length < e.stop p) := by omega
  have gnum : fetch e.faceGnums p = .ok (e.faceGnums.getD p 0) := (fetch_eq_ok_iff _ _ _).mpr (by simp [numbered])
  have first : fetch e.faceIndex p = .ok (e.start p) := e.boundary p (by omega)
  have second : fetch e.faceIndex (p + 1) = .ok (e.stop p) := e.boundary (p + 1) (by omega)
  have cut : slice e.faceRefs (e.start p) (e.stop p) = .ok (e.span p) := if_pos ⟨ordered, enclosed⟩
  have refs : (e.span p).mapM (e.place f) = .ok ((e.span p).map e.chosenVertices.idxOf) :=
    map_m_ok _ _ _ fun v member => e.place_chosen f v (chosen v member)
  simp only [face, known, gnum, first, second, fits, cut, if_false, bind, Except.bind]
  exact congrArg (Except.map (Prod.mk _)) refs

theorem usable_of_face (f p : Nat) (item : UInt64 × List Nat) (ok : e.face f p = .ok item) : e.Usable p := by
  unfold face at ok
  dsimp only at ok
  split at ok
  · cases ok
  rename_i known
  obtain ⟨gnum, _, ok⟩ := bind_ok _ _ _ ok
  obtain ⟨start, first, ok⟩ := bind_ok _ _ _ ok
  obtain ⟨stop, second, ok⟩ := bind_ok _ _ _ ok
  split at ok
  · cases ok
  rename_i fits
  obtain rfl : e.start p = start := Except.ok.inj ((e.boundary p (by omega)).symm.trans first)
  obtain rfl : e.stop p = stop := Except.ok.inj ((e.boundary (p + 1) (by omega)).symm.trans second)
  have inside : e.start p ≤ e.stop p ∧ e.stop p ≤ e.faceRefs.length := by omega
  obtain ⟨span, cut, ok⟩ := bind_ok _ _ _ ok
  obtain rfl : e.span p = span := Except.ok.inj ((if_pos inside).symm.trans cut)
  obtain ⟨refs, placed, _⟩ := bind_ok _ _ _ ok
  refine ⟨by omega, by omega, inside.1, inside.2, fun v member => ?_⟩
  obtain ⟨i, found⟩ := map_m_each (e.place f) _ _ placed v member
  exact e.chosen_of_place f v i found

theorem face_guarded (f p : Nat) : Guarded (e.face f p) := by
  unfold face
  dsimp only
  split
  · exact guarded_bind _ _ (guarded_refuse _) nofun
  rename_i known
  refine guarded_bind _ _ (guarded_fetch _ _ (by omega)) fun gnum _ => ?_
  refine guarded_bind _ _ (guarded_fetch _ _ (by omega)) fun start _ => ?_
  refine guarded_bind _ _ (guarded_fetch _ _ (by omega)) fun stop _ => ?_
  split
  · exact guarded_bind _ _ (guarded_refuse _) nofun
  rename_i fits
  have cut : slice e.faceRefs start stop = .ok ((e.faceRefs.take stop).drop start) := if_pos (by omega)
  refine guarded_bind _ _ (cut ▸ guarded_ok _) fun span _ => ?_
  exact guarded_bind _ _ (guarded_map_m (e.place f) span fun v _ => e.place_guarded f v) fun _ _ => guarded_ok _

theorem faces_consistent (consistent : e.Consistent) :
    e.chosenFaces.zipIdx.mapM (fun (p, f) => e.face f p) = .ok (e.chosenFaces.map e.taken) := by
  have each := map_m_ok (fun item : Nat × Nat => e.face item.2 item.1) (fun item => e.taken item.1) e.chosenFaces.zipIdx
    fun item member => e.face_usable item.2 item.1 (consistent.usable _ (List.fst_mem_of_mem_zipIdx member))
  have numbers : e.chosenFaces.zipIdx.map (fun item => e.taken item.1) = e.chosenFaces.map e.taken := by
    have fronts := congrArg (List.map e.taken) (List.zipIdx_map_fst 0 e.chosenFaces)
    rwa [List.map_map] at fronts
  exact each.trans (congrArg Except.ok numbers)

theorem faces_taken (m : Mesh) : e.chosenFaces.zipIdx.foldlM e.takeFace m =
    (e.chosenFaces.zipIdx.mapM fun next => e.face next.2 next.1).map fun items =>
      items.foldl (fun m item => m.appendFace item.1 item.2) m :=
  fold_m_map (fun next : Nat × Nat => e.face next.2 next.1)
    (fun (m : Mesh) (item : UInt64 × List Nat) => m.appendFace item.1 item.2) e.chosenFaces.zipIdx m

theorem mesh_consistent (name : String) (consistent : e.Consistent) : e.mesh name = .ok (e.extracted name) := by
  have sizes : ¬ e.chosenVertices.length ≠ e.records.length := not_not.mpr consistent.recorded
  have once : firstRepeat [] e.chosenVertices = none := (first_repeat_none_iff _ _).mpr ⟨by simp, consistent.once⟩
  have faces := e.faces_taken { empty name with vertices := e.records }
  rw [e.faces_consistent consistent] at faces
  have pushed := append_faces { empty name with vertices := e.records } [] [] (e.chosenFaces.map e.taken)
  have start : ({ empty name with vertices := e.records } : Mesh) =
      ({ { empty name with vertices := e.records } with faceGnums := [] } : Mesh).withFaces [] := rfl
  rw [Except.map, start, pushed, ← start] at faces
  simp only [mesh, sizes, once, faces, if_false, bind, Except.bind]
  rfl

theorem consistent_of_mesh (name : String) (m : Mesh) (ok : e.mesh name = .ok m) : e.Consistent := by
  unfold mesh at ok
  dsimp only at ok
  split at ok
  · cases ok
  rename_i sizes
  split at ok
  · cases ok
  rename_i once
  obtain ⟨_, pushed, _⟩ := bind_ok _ _ _ ok
  rw [e.faces_taken] at pushed
  obtain ⟨faces, taken, _⟩ := map_ok _ _ _ pushed
  refine ⟨not_not.mp sizes, ((first_repeat_none_iff _ _).mp once).2, fun p member => ?_⟩
  obtain ⟨f, bound, rfl⟩ := List.mem_iff_getElem.mp member
  obtain ⟨item, done⟩ := map_m_each _ _ _ taken (e.chosenFaces[f], f) (List.mk_mem_zipIdx_iff_getElem?.mpr (by simp))
  exact e.usable_of_face f _ item done

theorem mesh_guarded (name : String) : Guarded (e.mesh name) := by
  unfold mesh
  dsimp only
  split
  · exact guarded_bind _ _ (guarded_refuse _) nofun
  split
  · exact guarded_bind _ _ (guarded_refuse _) nofun
  · refine guarded_bind _ _ (guarded_fold_m _ _ (fun m item _ => ?_) _) fun _ _ => guarded_ok _
    exact guarded_bind _ _ (e.face_guarded item.2 item.1) fun _ _ => guarded_ok _

theorem span_located (p : Nat) (usable : e.Usable p) :
    List.Forall₂ (fun v i => e.chosenVertices[i]? = some v) (e.span p) (e.taken p).2 := by
  rw [taken, List.forall₂_map_right_iff, List.forall₂_same]
  intro v member
  have bound := List.idxOf_lt_length_of_mem (usable.chosen v member)
  simp [bound]

theorem extracted_laid (name : String) (consistent : e.Consistent) :
    (e.extracted name).Laid ((e.chosenFaces.map e.taken).map Prod.snd) where
  count := by simp [extracted, withFaces, faceCount]
  index := rfl
  refs := rfl
  inside := by
    simp only [List.forall_mem_map]
    intro p member v listed
    obtain ⟨w, spanned, rfl⟩ := List.mem_map.mp listed
    have bound := List.idxOf_lt_length_of_mem ((consistent.usable p member).chosen w spanned)
    rwa [consistent.recorded] at bound

theorem extraction_exact (name : String) :
    Guarded (e.mesh name) ∧ ((∃ m, e.mesh name = .ok m) ↔ e.Consistent) ∧
    ∀ m, e.mesh name = .ok m →
      m.check = .ok () ∧ m.name = name ∧ m.globalFaces = e.globalFaces ∧ m.globalVertices = e.globalVertices ∧
      m.vertices = e.records ∧ m.faceCount = e.chosenFaces.length ∧
      ∀ k p, e.chosenFaces[k]? = some p → m.faceGnums[k]? = e.faceGnums[p]? ∧
        ∃ refs, m.face k = .ok refs ∧ List.Forall₂ (fun v i => e.chosenVertices[i]? = some v) (e.span p) refs := by
  refine ⟨e.mesh_guarded name, ⟨?accepted, fun consistent => ⟨_, e.mesh_consistent name consistent⟩⟩, fun m ok => ?_⟩
  case accepted =>
    rintro ⟨m, ok⟩
    exact e.consistent_of_mesh name m ok
  have consistent := e.consistent_of_mesh name m ok
  obtain rfl : e.extracted name = m := Except.ok.inj ((e.mesh_consistent name consistent).symm.trans ok)
  have laid := e.extracted_laid name consistent
  refine ⟨(check_ok_iff _).mpr ⟨_, laid⟩, rfl, rfl, rfl, rfl, by simp [← laid.count], fun k p chosen => ?_⟩
  have usable := consistent.usable p (List.mem_of_getElem? chosen)
  have row : ((e.chosenFaces.map e.taken).map Prod.snd)[k]? = some (e.taken p).2 := by simp [chosen]
  refine ⟨?_, _, face_laid _ _ laid.index laid.refs k _ row, e.span_located p usable⟩
  simp [extracted, withFaces, chosen, taken, usable.numbered]

def offcuts : Extract :=
  { globalFaces := 5, chosenFaces := [3, 1, 3], faceGnums := [10, 11, 12, 13, 14], faceIndex := [7, 2, 5, 3, 6]
    faceRefs := [9, 9, 4, 8, 6, 4], globalVertices := 10, chosenVertices := [6, 4, 8]
    records := (List.range 3).map fun i => ⟨.ofNat i, ⟨0⟩, ⟨⟨0⟩, ⟨0⟩, ⟨0⟩⟩⟩ }

theorem offcuts_extracted :
    (∃ m refs, offcuts.mesh "scraps" = .ok m ∧ m.check = .ok () ∧ m.faceCount = 3 ∧ m.faceGnums[1]? = some 11 ∧
      m.face 1 = .ok refs ∧ List.Forall₂ (fun v i => [6, 4, 8][i]? = some v) [4, 8, 6] refs) ∧
    ¬ ∃ m, ({ offcuts with chosenFaces := [3, 2] }).mesh "scraps" = .ok m := by
  obtain ⟨_, accepts, gives⟩ := offcuts.extraction_exact "scraps"
  obtain ⟨_, refuses, _⟩ := ({ offcuts with chosenFaces := [3, 2] }).extraction_exact "scraps"
  obtain ⟨m, ok⟩ := accepts.mpr (by decide)
  obtain ⟨valid, _, _, _, _, count, faces⟩ := gives m ok
  obtain ⟨number, refs, row, located⟩ := faces 1 1 (by decide)
  exact ⟨⟨m, refs, ok, valid, count, number, row, located⟩, fun done => absurd (refuses.mp done) (by decide)⟩

end Seam.Mesh.Extract
