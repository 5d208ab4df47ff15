import Mathlib.Data.List.ChainOfFn
import Seam.Proofs.Discovery

set_option autoImplicit false

namespace Seam.EdgeSet

def Walks (walked : List (Nat × Nat)) (edge : Nat × Nat) : Prop := edge ∈ walked ∨ edge.swap ∈ walked

instance (walked : List (Nat × Nat)) (edge : Nat × Nat) : Decidable (Walks walked edge) := inferInstanceAs (Decidable (_ ∨ _))

theorem walks_one_more (walked : List (Nat × Nat)) (side edge : Nat × Nat) :
    Walks (walked ++ [side]) edge ↔ Walks walked edge ∨ edge = side ∨ edge.swap = side := by
  simp only [Walks, List.mem_append, List.mem_singleton]
  tauto

def facesAt (faces : List (List Nat)) (edge : Nat × Nat) : List Nat := faces.findIdxs fun refs => Walks (sides refs) edge

theorem faces_at_below (faces : List (List Nat)) (edge : Nat × Nat) : ∀ f ∈ facesAt faces edge, f < faces.length :=
  List.lt_add_of_mem_findIdxs

theorem mem_faces_at (faces : List (List Nat)) (edge : Nat × Nat) (f : Nat) :
    f ∈ facesAt faces edge ↔ ∃ refs, faces[f]? = some refs ∧ Walks (sides refs) edge := by
  rw [facesAt, List.mem_findIdxs_iff_exists_getElem_pos]
  simp [List.getElem?_eq_some_iff]

theorem faces_at_one_more (faces : List (List Nat)) (refs : List Nat) (edge : Nat × Nat) :
    facesAt (faces ++ [refs]) edge = facesAt faces edge ++ if Walks (sides refs) edge then [faces.length] else [] := by
  rw [facesAt, List.findIdxs_append, List.findIdxs_singleton, Nat.zero_add]
  simp only [decide_eq_true_eq]
  rfl

section Recording

variable (ends : List (Nat × Nat)) (earlier : List (List Nat)) (walked : List (Nat × Nat))

-- What is recorded under an edge while the face behind `earlier` has walked these sides.
def recordedAt (edge : Nat × Nat) : List Nat :=
  facesAt earlier edge ++ if Walks walked edge then [earlier.length] else []

def recorded : List (List Nat) := ends.map (recordedAt earlier walked)

theorem recorded_last (edge : Nat × Nat) : (recordedAt earlier walked edge).getLast? = some earlier.length ↔ Walks walked edge := by
  by_cases met : Walks walked edge
  · simp [recordedAt, met]
  · have other : (facesAt earlier edge).getLast? ≠ some earlier.length := fun last =>
      absurd (faces_at_below earlier edge _ (List.mem_of_getLast? last)) (Nat.lt_irrefl _)
    simpa [recordedAt, met] using other

theorem recorded_before : recorded ends earlier [] = ends.map (facesAt earlier) := by
  refine List.map_congr_left fun edge _ => ?_
  simp [recordedAt, Walks]

theorem recorded_behind (refs : List Nat) : recorded ends earlier (sides refs) = ends.map (facesAt (earlier ++ [refs])) := by
  refine List.map_congr_left fun edge _ => ?_
  rw [recordedAt, faces_at_one_more]

variable (oneWay : OneWay ends)

include oneWay

theorem one_edge_along (first second side : Nat × Nat) (member : first ∈ ends) (other : second ∈ ends)
    (along : first = side ∨ first.swap = side) (too : second = side ∨ second.swap = side) : first = second := by
  have either : second = first ∨ second = first.swap := by
    rcases along with rfl | rfl
    · exact too.imp id fun turned => by rw [← turned, Prod.swap_swap]
    · exact too.symm.imp (fun turned => Prod.swap_injective turned) id
  cases either with
  | inl same => exact same.symm
  | inr turned =>
      subst turned
      exact absurd other (oneWay.single first.1 first.2 member)

theorem recorded_one_more (side edge : Nat × Nat) (e : Nat) (found : ends[e]? = some edge)
    (along : edge = side ∨ edge.swap = side) :
    recorded ends earlier (walked ++ [side]) =
      (recorded ends earlier walked).set e (recordedAt earlier (walked ++ [side]) edge) := by
  have bound := (List.getElem?_eq_some_iff.mp found).1
  refine List.ext_getElem? fun i => ?_
  by_cases here : i = e
  · subst here
    rw [List.getElem?_set_self (by simpa [recorded] using bound), recorded, List.getElem?_map, found, Option.map_some]
  · rw [List.getElem?_set_ne (Ne.symm here), recorded, recorded, List.getElem?_map, List.getElem?_map]
    cases place : ends[i]? with
    | none => rfl
    | some other =>
        have apart : ¬ (other = side ∨ other.swap = side) := fun too => by
          have same := one_edge_along ends oneWay edge other side (List.mem_of_getElem? found) (List.mem_of_getElem? place) along too
          exact here ((List.getElem?_inj bound oneWay.nodup).mp (found.trans (same ▸ place.symm))).symm
        simp [recordedAt, walks_one_more, apart]

theorem touch_recorded (side edge : Nat × Nat) (e : Nat) (found : ends[e]? = some edge)
    (along : edge = side ∨ edge.swap = side) :
    touch (recorded ends earlier walked) e earlier.length = .ok (recorded ends earlier (walked ++ [side])) := by
  have here : (recorded ends earlier walked)[e]? = some (recordedAt earlier walked edge) := by
    rw [recorded, List.getElem?_map, found, Option.map_some]
  have fetched := (fetch_eq_ok_iff _ _ _).mpr here
  have met : Walks (walked ++ [side]) edge := (walks_one_more walked side edge).mpr (.inr along)
  rw [recorded_one_more ends earlier walked oneWay side edge e found along, touch, fetched]
  refine congrArg Except.ok ?_
  by_cases known : Walks walked edge
  · have same : recordedAt earlier (walked ++ [side]) edge = recordedAt earlier walked edge := by
      simp only [recordedAt, if_pos met, if_pos known]
    obtain ⟨bound, place⟩ := List.getElem?_eq_some_iff.mp here
    rw [if_pos ((recorded_last earlier walked edge).mpr known), same, ← place, List.set_getElem_self]
  · have longer : recordedAt earlier (walked ++ [side]) edge = recordedAt earlier walked edge ++ [earlier.length] := by
      simp only [recordedAt, if_pos met, if_neg known, List.append_nil]
    rw [if_neg (fun last => known ((recorded_last earlier walked edge).mp last)), longer]

theorem recorded_flat (a : Nat) : recorded ends earlier (walked ++ [(a, a)]) = recorded ends earlier walked := by
  refine List.map_congr_left fun edge member => ?_
  have apart : ¬ (edge = (a, a) ∨ edge.swap = (a, a)) := fun along => by
    have same : edge = (a, a) := along.elim id fun turned => Prod.swap_injective turned
    exact oneWay.distinct a a (same ▸ member) rfl
  simp only [recordedAt, walks_one_more, apart, or_false]

variable (vertices : Nat) (inside : ∀ a b, (a, b) ∈ ends → a < vertices ∧ b < vertices) (narrow : 2 * ends.length < UInt64.size)

include inside narrow

theorem edge_of_side (a b : Nat) (known : (a, b) ∈ ends ∨ (b, a) ∈ ends) :
    ∃ e edge number, ends[e]? = some edge ∧ (edge = (a, b) ∨ edge.swap = (a, b)) ∧
      (ofEnds vertices ends).number a b = .ok number ∧ edgeOf number = .ok e := by
  cases known with
  | inl forward =>
      obtain ⟨e, found⟩ := List.getElem?_of_mem forward
      exact ⟨e, _, _, found, .inl rfl, number_along vertices ends oneWay inside narrow e a b found, edge_of_along e⟩
  | inr backward =>
      obtain ⟨e, found⟩ := List.getElem?_of_mem backward
      exact ⟨e, _, _, found, .inr rfl, number_against vertices ends oneWay inside narrow e b a found, edge_of_against e⟩

theorem touch_sides_recorded (refs : List Nat)
    (known : ∀ a b, (a, b) ∈ sides refs → a ≠ b → (a, b) ∈ ends ∨ (b, a) ∈ ends) :
    (ofEnds vertices ends).touchSides earlier.length (ends.map (facesAt earlier)) refs =
      .ok (ends.map (facesAt (earlier ++ [refs]))) := by
  rw [← recorded_before, ← recorded_behind]
  refine fold_m_state _ (recorded ends earlier) (sides refs) fun walked side upTo => ?_
  obtain ⟨a, b⟩ := side
  dsimp only
  by_cases flat : a = b
  · subst flat
    rw [if_pos rfl, recorded_flat ends earlier walked oneWay]
    rfl
  · have side : (a, b) ∈ sides refs := upTo.subset (by simp)
    obtain ⟨e, edge, number, found, along, numbered, edgeFound⟩ :=
      edge_of_side ends oneWay vertices inside narrow a b (known a b side flat)
    simp only [if_neg flat, numbered, edgeFound, bind, Except.bind]
    exact touch_recorded ends earlier walked oneWay (a, b) edge e found along

end Recording

theorem touching_faces_at (m : Mesh) (faces : List (List Nat)) (laid : m.Laid faces)
    (narrow : 2 * (ofFaces faces).length < UInt64.size) :
    touchingFaces m (ofEnds m.vertexCount (ofFaces faces)) = .ok ((ofFaces faces).map (facesAt faces)) := by
  have start : (ofFaces faces).map (facesAt (faces.take ([] : List Nat).length)) =
      List.replicate (ofEnds m.vertexCount (ofFaces faces)).edgeCount [] := List.map_const ..
  have whole : faces.take (List.range m.faceCount).length = faces := by
    rw [List.length_range, ← laid.count, List.take_length]
  have walk := fold_m_state (fun perEdge f => do (ofEnds m.vertexCount (ofFaces faces)).touchSides f perEdge (← m.face f))
    (fun before => (ofFaces faces).map (facesAt (faces.take before.length))) (List.range m.faceCount) fun before f upTo => ?_
  · rwa [start, whole] at walk
  obtain rfl : f = before.length := by
    have same := upTo.getElem (show before.length < (before ++ [f]).length by simp)
    simpa using same
  have bound : before.length < faces.length := by
    have longer := upTo.length_le
    rw [List.length_append, List.length_singleton, List.length_range, ← laid.count] at longer
    exact longer
  have face := Mesh.face_laid m faces laid.index laid.refs before.length faces[before.length] (by simp [bound])
  have next : faces.take (before ++ [before.length]).length = faces.take before.length ++ [faces[before.length]] := by
    rw [List.length_append, List.length_singleton, List.take_append_getElem bound]
  have earlier : (faces.take before.length).length = before.length := by
    rw [List.length_take, Nat.min_eq_left (Nat.le_of_lt bound)]
  have walked := touch_sides_recorded (ofFaces faces) (faces.take before.length) (of_faces_one_way faces) m.vertexCount
    (of_faces_inside faces m.vertexCount laid.inside) narrow faces[before.length]
    (of_faces_complete faces faces[before.length] (List.getElem_mem bound))
  rw [earlier] at walked
  rw [next, face]
  exact walked

theorem faces_at_edges (m : Mesh) (valid : m.check = .ok ()) :
    ∃ s faces, ofMesh m = .ok s ∧ m.faces = .ok faces ∧ (2 * s.edgeCount < UInt64.size →
      ∃ index list, touchingRows m s = .ok (index, list) ∧ index.length = s.edgeCount + 1 ∧ index.head? = some 0 ∧
        index.Pairwise (· < ·) ∧ index.getLast? = some list.length ∧
        ∀ e a b, s.ends[e]? = some (a, b) → ∃ touching, Ragged.row index list e = .ok touching ∧ touching.Pairwise (· < ·) ∧
          ∀ f, f ∈ touching ↔ ∃ refs, faces[f]? = some refs ∧ ((a, b) ∈ sides refs ∨ (b, a) ∈ sides refs)) := by
  obtain ⟨faces, laid⟩ := (Mesh.check_ok_iff m).mp valid
  have found := Mesh.faces_laid m faces laid.count laid.index laid.refs
  refine ⟨_, faces, of_mesh_ok m valid faces found, found, fun narrow => ?_⟩
  have recorded := touching_faces_at m faces laid narrow
  have full : ∀ row ∈ (ofFaces faces).map (facesAt faces), row ≠ [] := by
    intro row member
    obtain ⟨edge, known, rfl⟩ := List.mem_map.mp member
    obtain ⟨refs, face, side⟩ := List.mem_flatMap.mp (discover_source [] _ known)
    obtain ⟨f, place⟩ := List.getElem?_of_mem face
    exact List.ne_nil_of_mem ((mem_faces_at faces edge f).mpr ⟨refs, place, .inl side⟩)
  refine ⟨Ragged.index ((ofFaces faces).map (facesAt faces)), ((ofFaces faces).map (facesAt faces)).flatten,
    ?_, ?_, ?_, ?_, ?_, fun e a b edge => ?_⟩
  · simp only [touchingRows, recorded, bind, Except.bind, pure, Except.pure, Ragged.Rows.append_all, Ragged.Rows.laid]
  · rw [Ragged.index, Ragged.boundaries_length, List.length_map]
    rfl
  · exact Ragged.boundaries_head 0 _
  · exact List.isChain_iff_pairwise.mp (Ragged.boundaries_rise 0 _ full)
  · rw [Ragged.index, Ragged.boundaries_last, Nat.zero_add]
  · have place : ((ofFaces faces).map (facesAt faces))[e]? = some (facesAt faces (a, b)) := by
      rw [List.getElem?_map]
      exact congrArg (Option.map (facesAt faces)) edge
    exact ⟨_, Ragged.row_index _ e _ place, List.pairwise_findIdxs, mem_faces_at faces (a, b)⟩

def pinwheel : Mesh :=
  { Mesh.empty "pinwheel" with
    faceGnums := [1, 2, 3], faceIndex := [0, 6, 9, 10], faceRefs := [0, 1, 2, 0, 1, 3, 1, 0, 2, 1]
    vertices := (List.range 4).map fun i => ⟨.ofNat (i + 1), ⟨0⟩, ⟨⟨0⟩, ⟨0⟩, ⟨0⟩⟩⟩ }

theorem pinwheel_faces :
    pinwheel.check = .ok () ∧ ∃ s, ofMesh pinwheel = .ok s ∧ 2 * s.edgeCount < UInt64.size ∧ s.ends[0]? = some (0, 1) ∧
      ∃ index list, touchingRows pinwheel s = .ok (index, list) ∧ index = [0, 2, 4, 6, 7, 8] ∧ list = [0, 1, 0, 1, 0, 1, 0, 0] ∧
        ∃ touching, Ragged.row index list 0 = .ok touching ∧ 1 ∈ touching ∧ 2 ∉ touching := by
  have valid : pinwheel.check = .ok () := by decide
  obtain ⟨s, faces, edges, found, adjacent⟩ := faces_at_edges pinwheel valid
  obtain rfl : s = .ofEnds 4 [(0, 1), (1, 2), (2, 0), (1, 3), (3, 0)] := Except.ok.inj (edges.symm.trans (by decide))
  obtain rfl : faces = [[0, 1, 2, 0, 1, 3], [1, 0, 2], [1]] := Except.ok.inj (found.symm.trans (by decide))
  have narrow : 2 * (ofEnds 4 [(0, 1), (1, 2), (2, 0), (1, 3), (3, 0)]).edgeCount < UInt64.size := by decide
  obtain ⟨index, list, rows, _, _, _, _, each⟩ := adjacent narrow
  obtain ⟨touching, row, _, members⟩ := each 0 0 1 rfl
  have pair : (index, list) = ([0, 2, 4, 6, 7, 8], [0, 1, 0, 1, 0, 1, 0, 0]) := Except.ok.inj (rows.symm.trans (by decide))
  obtain ⟨first, second⟩ := Prod.mk.inj pair
  have backward : 1 ∈ touching := (members 1).mpr ⟨[1, 0, 2], rfl, by decide⟩
  have other : 2 ∉ touching := fun member => by
    obtain ⟨refs, place, walks⟩ := (members 2).mp member
    obtain rfl : [1] = refs := Option.some.inj place
    exact absurd walks (by decide)
  exact ⟨valid, _, edges, narrow, rfl, index, list, rows, first, second, touching, row, backward, other⟩

end Seam.EdgeSet
