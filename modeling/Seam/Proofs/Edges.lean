import Seam.EdgeSet.Discovery
import Seam.Proofs.Mesh.Layout

set_option autoImplicit false

namespace Seam

theorem sides_inside (refs : List Nat) (a b : Nat) (side : (a, b) ∈ sides refs) : a ∈ refs ∧ b ∈ refs := by
  obtain ⟨first, second⟩ := List.of_mem_zip side
  exact ⟨first, (List.mem_append.mp second).elim List.mem_of_mem_drop List.mem_of_mem_take⟩

namespace EdgeSet

def discover (known : List (Nat × Nat)) : List (Nat × Nat) → List (Nat × Nat)
  | [] => known
  | (a, b) :: rest =>
      if a = b ∨ known.contains (a, b) ∨ known.contains (b, a) then discover known rest
      else discover (known ++ [(a, b)]) rest

def couples (ends : List (Nat × Nat)) (v : Nat) : List (Nat × Nat) :=
  ends.zipIdx.filterMap fun ((a, b), e) => if a = v then some (b, e) else none

def ofRows (ends : List (Nat × Nat)) (rows : List (List (Nat × Nat))) : EdgeSet where
  globalEdges := .ofNat ends.length
  ends := ends
  vertexIndex := Ragged.index rows
  neighbours := rows.flatten.map Prod.fst
  edgeIds := rows.flatten.map Prod.snd

def ofEnds (vertices : Nat) (ends : List (Nat × Nat)) : EdgeSet := ofRows ends ((List.range vertices).map (couples ends))

theorem mem_couples (ends : List (Nat × Nat)) (v far e : Nat) : (far, e) ∈ couples ends v ↔ ends[e]? = some (v, far) := by
  rw [couples, List.mem_filterMap]
  constructor
  · rintro ⟨⟨⟨a, b⟩, i⟩, member, same⟩
    have found := List.mem_zipIdx_iff_getElem?.mp member
    dsimp only at same found
    split at same
    · rename_i here
      obtain ⟨rfl, rfl⟩ := Prod.mk.inj (Option.some.inj same)
      exact here ▸ found
    · cases same
  · intro found
    exact ⟨((v, far), e), List.mem_zipIdx_iff_getElem?.mpr found, by simp⟩

section Growing

variable (vertices : Nat)

-- The state of the walk that has found these edges: under each vertex stand the couples of the edges that start there.
def Discovery.behind (ends : List (Nat × Nat)) : Discovery := ⟨ends, (List.range vertices).map (couples ends)⟩

theorem couples_append (ends : List (Nat × Nat)) (a b v : Nat) :
    couples (ends ++ [(a, b)]) v = if a = v then couples ends v ++ [(b, ends.length)] else couples ends v := by
  rw [couples, List.zipIdx_append, List.filterMap_append]
  by_cases here : a = v <;> simp [couples, here]

theorem couple_listed (ends : List (Nat × Nat)) (a b : Nat) :
    (couples ends a).any (fun couple => couple.1 == b) = ends.contains (a, b) := by
  rw [Bool.eq_iff_iff, List.any_eq_true, List.contains_iff_mem]
  constructor
  · rintro ⟨⟨far, e⟩, stored, same⟩
    obtain rfl : far = b := by simpa using same
    exact List.mem_of_getElem? ((mem_couples ends a far e).mp stored)
  · intro known
    obtain ⟨e, found⟩ := List.getElem?_of_mem known
    exact ⟨(b, e), (mem_couples ends a b e).mpr found, beq_self_eq_true b⟩

theorem fetch_couples (ends : List (Nat × Nat)) (v : Nat) (bound : v < vertices) :
    fetch (Discovery.behind vertices ends).adjacency v = .ok (couples ends v) := fetch_table vertices (couples ends) v bound

theorem store_couple (ends : List (Nat × Nat)) (a b : Nat) (bound : a < vertices) :
    store (Discovery.behind vertices ends).adjacency a (couples ends a ++ [(b, ends.length)]) =
      .ok (Discovery.behind vertices (ends ++ [(a, b)])).adjacency := by
  have stored := store_table vertices (couples ends) (couples (ends ++ [(a, b)])) a bound fun v apart => by
    rw [couples_append, if_neg (Ne.symm apart)]
  rwa [couples_append, if_pos rfl] at stored

theorem meet_behind (ends : List (Nat × Nat)) (a b : Nat) (start : a < vertices) (stop : b < vertices) :
    meet (.behind vertices ends) (a, b) =
      .ok (.behind vertices (if a = b ∨ ends.contains (a, b) ∨ ends.contains (b, a) then ends else ends ++ [(a, b)])) := by
  by_cases flat : a = b
  · rw [meet, if_pos flat, if_pos (.inl flat)]
    rfl
  have outward := fetch_couples vertices ends a start
  have inward := fetch_couples vertices ends b stop
  simp only [meet, if_neg flat, outward, inward, couple_listed, bind, Except.bind, pure, Except.pure]
  by_cases forward : ends.contains (a, b) = true
  · rw [if_pos forward, if_pos (.inr (.inl forward))]
  by_cases backward : ends.contains (b, a) = true
  · rw [if_neg forward, if_pos backward, if_pos (.inr (.inr backward))]
  have new : ¬ (a = b ∨ ends.contains (a, b) = true ∨ ends.contains (b, a) = true) := fun known =>
    known.elim flat fun either => either.elim forward backward
  have stored := store_couple vertices ends a b start
  rw [if_neg forward, if_neg backward, if_neg new]
  simp only [Discovery.behind] at stored ⊢
  rw [stored]

theorem meet_all (known walked : List (Nat × Nat)) (inside : ∀ a b, (a, b) ∈ walked → a < vertices ∧ b < vertices) :
    walked.foldlM meet (.behind vertices known) = .ok (.behind vertices (discover known walked)) := by
  induction walked generalizing known with
  | nil => rfl
  | cons side rest ih =>
      obtain ⟨a, b⟩ := side
      obtain ⟨start, stop⟩ := inside a b (by simp)
      have onward (next : List (Nat × Nat)) := ih next fun c d later => inside c d (by simp [later])
      rw [List.foldlM_cons, meet_behind vertices known a b start stop, discover]
      by_cases old : a = b ∨ known.contains (a, b) = true ∨ known.contains (b, a) = true
      · rw [if_pos old, if_pos old]
        exact onward known
      · rw [if_neg old, if_neg old]
        exact onward (known ++ [(a, b)])

theorem meet_faces (known : List (Nat × Nat)) (faces : List (List Nat)) (inside : ∀ refs ∈ faces, ∀ v ∈ refs, v < vertices) :
    faces.foldlM (fun d refs => (sides refs).foldlM meet d) (.behind vertices known) =
      .ok (.behind vertices (discover known (faces.flatMap sides))) := by
  have sidesInside : ∀ a b, (a, b) ∈ faces.flatMap sides → a < vertices ∧ b < vertices := by
    intro a b member
    obtain ⟨refs, face, side⟩ := List.mem_flatMap.mp member
    obtain ⟨first, second⟩ := sides_inside refs a b side
    exact ⟨inside refs face a first, inside refs face b second⟩
  rw [← meet_all vertices known _ sidesInside, fold_m_flat]

theorem push_couples (s : EdgeSet) (row : List (Nat × Nat)) : row.foldl pushCouple s =
    { s with neighbours := s.neighbours ++ row.map Prod.fst, edgeIds := s.edgeIds ++ row.map Prod.snd } := by
  induction row generalizing s with
  | nil => simp
  | cons couple row ih => simp [ih, pushCouple]

theorem append_vertices (ends : List (Nat × Nat)) (done rows : List (List (Nat × Nat))) :
    rows.foldl appendVertex (ofRows ends done) = ofRows ends (done ++ rows) := by
  induction rows generalizing done with
  | nil => rw [List.foldl_nil, List.append_nil]
  | cons row rows ih =>
      have next : appendVertex (ofRows ends done) row = ofRows ends (done ++ [row]) := by
        have closed := Ragged.boundaries_snoc 0 done row
        rw [Nat.zero_add] at closed
        simp only [appendVertex, push_couples, ofRows, Ragged.index, closed, List.flatten_append, List.flatten_singleton,
          List.map_append, List.length_append, List.length_map]
      rw [List.foldl_cons, next, ih, List.append_assoc, List.singleton_append]

end Growing

theorem of_mesh_laid (m : Mesh) (faces : List (List Nat)) (laid : m.Laid faces) :
    ofMesh m = .ok (ofEnds m.vertexCount (discover [] (faces.flatMap sides))) := by
  have valid := (Mesh.check_ok_iff m).mpr ⟨faces, laid⟩
  have found := Mesh.faces_laid m faces laid.count laid.index laid.refs
  have walk := meet_faces m.vertexCount [] faces laid.inside
  have blank : (Discovery.behind m.vertexCount [] : Discovery) = ⟨[], List.replicate m.vertexCount []⟩ := by
    have rows : (List.range m.vertexCount).map (couples []) = (List.range m.vertexCount).map fun _ => [] := rfl
    rw [Discovery.behind, rows, List.map_const', List.length_range]
  rw [blank] at walk
  have rows := append_vertices (discover [] (faces.flatMap sides)) []
    ((List.range m.vertexCount).map (couples (discover [] (faces.flatMap sides))))
  simp only [ofMesh, valid, found, walk, bind, Except.bind, pure, Except.pure]
  exact congrArg Except.ok rows

theorem of_mesh_ends (m : Mesh) (s : EdgeSet) (ok : ofMesh m = .ok s) : ∃ ends, s = ofEnds m.vertexCount ends := by
  obtain ⟨_, valid, _⟩ := bind_ok _ _ _ ok
  obtain ⟨faces, laid⟩ := (Mesh.check_ok_iff m).mp valid
  exact ⟨_, Except.ok.inj (ok.symm.trans (of_mesh_laid m faces laid))⟩

variable (vertices : Nat) (ends : List (Nat × Nat))

theorem of_ends_vertex_count : (ofEnds vertices ends).vertexCount = vertices := by
  simp [vertexCount, ofEnds, ofRows, Ragged.index, Ragged.boundaries_length]

theorem around_of_ends (v : Nat) : (ofEnds vertices ends).around v = .ok (if v < vertices then couples ends v else []) := by
  rw [around, of_ends_vertex_count]
  by_cases bound : v < vertices
  · let rows := (List.range vertices).map (couples ends)
    have part {α : Type} (f : Nat × Nat → α) :
        Ragged.row (Ragged.index rows) (rows.flatten.map f) v = .ok ((couples ends v).map f) := by
      rw [← Ragged.index_map f rows, List.map_flatten]
      exact Ragged.row_index _ v _ (by simp [rows, bound])
    have far : Ragged.row (ofEnds vertices ends).vertexIndex (ofEnds vertices ends).neighbours v = _ := part Prod.fst
    have ids : Ragged.row (ofEnds vertices ends).vertexIndex (ofEnds vertices ends).edgeIds v = _ := part Prod.snd
    rw [if_pos bound, if_pos bound, far, ids]
    exact congrArg Except.ok (List.zip_of_prod rfl rfl).symm
  · rw [if_neg bound, if_neg bound]

theorem around_edge (v far e : Nat) (couples : List (Nat × Nat)) (ok : (ofEnds vertices ends).around v = .ok couples)
    (member : (far, e) ∈ couples) : ends[e]? = some (v, far) := by
  rw [around_of_ends] at ok
  obtain rfl := Except.ok.inj ok
  split at member
  · exact (mem_couples ends v far e).mp member
  · cases member

theorem signed_range (size e : Nat) (even : size % 2 = 0) (small : e + 1 < size) (number : Int)
    (signed : number = Int.bmod (e + 1) size) : number ≠ 0 ∧ number.natAbs ≤ e + 1 ∧ 2 * number.natAbs ≤ size := by
  have inside : ((e : Int) + 1) % size = e + 1 := Int.emod_eq_of_lt (by omega) (by omega)
  rw [Int.bmod_def, inside] at signed
  split at signed <;> omega

theorem negated_range (size : Nat) (even : size % 2 = 0) (first number : Int) (some : first ≠ 0) (half : 2 * first.natAbs ≤ size)
    (signed : number = Int.bmod (-first) size) : number ≠ 0 ∧ number.natAbs = first.natAbs := by
  rw [Int.bmod_def] at signed
  by_cases positive : 0 < first
  · have inside : (-first) % size = size - first := (Int.emod_eq_iff (by omega)).mpr ⟨by omega, by omega, 1, by omega⟩
    rw [inside] at signed
    split at signed <;> omega
  · have inside : (-first) % size = -first := Int.emod_eq_of_lt (by omega) (by omega)
    rw [inside] at signed
    split at signed <;> omega

-- Signed numbers lead back to edges up to the one that they stand for, even where they no longer fit into 64 bits.
theorem edge_of_signed (e : Nat) (small : e + 1 < UInt64.size) (number : Int)
    (signed : number = signedNumber e ∨ number = Int.bmod (-signedNumber e) UInt64.size) :
    ∃ edge ≤ e, edgeOf number = .ok edge := by
  have forward := signed_range UInt64.size e rfl small (signedNumber e) rfl
  have range : number ≠ 0 ∧ number.natAbs ≤ e + 1 := by
    rcases signed with along | backward
    · rw [along]
      exact ⟨forward.1, forward.2.1⟩
    · have turned := negated_range UInt64.size rfl (signedNumber e) number forward.1 forward.2.2 backward
      exact ⟨turned.1, turned.2.trans_le forward.2.1⟩
  exact ⟨number.natAbs - 1, Nat.sub_le_of_le_add range.2, if_neg range.1⟩

theorem number_guarded (a b : Nat) : Guarded ((ofEnds vertices ends).number a b) := by
  have found (v : Nat) : Guarded ((ofEnds vertices ends).around v) := around_of_ends vertices ends v ▸ guarded_ok _
  refine guarded_bind _ _ (found a) fun first _ => ?_
  split
  · exact guarded_ok _
  refine guarded_bind _ _ (found b) fun second _ => ?_
  split
  · exact guarded_ok _
  · exact guarded_refuse _

theorem number_edge (a b : Nat) (number : Int) (ok : (ofEnds vertices ends).number a b = .ok number) :
    ∃ e, e < ends.length ∧ (number = signedNumber e ∨ number = Int.bmod (-signedNumber e) UInt64.size) := by
  obtain ⟨first, underFirst, ok⟩ := bind_ok _ _ _ ok
  split at ok
  · rename_i far e found
    have edge := around_edge vertices ends a far e first underFirst (List.mem_of_find?_eq_some found)
    exact ⟨e, (List.getElem?_eq_some_iff.mp edge).1, .inl (Except.ok.inj ok).symm⟩
  obtain ⟨second, underSecond, ok⟩ := bind_ok _ _ _ ok
  split at ok
  · rename_i far e found
    have edge := around_edge vertices ends b far e second underSecond (List.mem_of_find?_eq_some found)
    exact ⟨e, (List.getElem?_eq_some_iff.mp edge).1, .inr (Except.ok.inj ok).symm⟩
  · cases ok

theorem edge_of_number (a b : Nat) (number : Int) (small : ends.length < UInt64.size)
    (ok : (ofEnds vertices ends).number a b = .ok number) : ∃ e < ends.length, edgeOf number = .ok e := by
  obtain ⟨e, bound, signed⟩ := number_edge vertices ends a b number ok
  obtain ⟨edge, upTo, found⟩ := edge_of_signed e (Nat.lt_of_le_of_lt bound small) number signed
  exact ⟨edge, Nat.lt_of_le_of_lt upTo bound, found⟩

end EdgeSet

end Seam
