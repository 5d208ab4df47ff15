import Seam.Proofs.Edges
import Seam.Proofs.Mesh.Layout

set_option autoImplicit false

namespace Seam

theorem sides_starts (refs : List Nat) : (sides refs).map Prod.fst = refs := by
  refine List.map_fst_zip ?_
  simp only [List.length_append, List.length_drop, List.length_take]
  omega

namespace EdgeSet

structure OneWay (ends : List (Nat × Nat)) : Prop where
  nodup : ends.Nodup
  distinct : ∀ a b, (a, b) ∈ ends → a ≠ b
  single : ∀ a b, (a, b) ∈ ends → (b, a) ∉ ends

theorem one_way_nil : OneWay [] := ⟨List.nodup_nil, nofun, nofun⟩

theorem one_way_append (ends : List (Nat × Nat)) (a b : Nat) (start : OneWay ends) (different : a ≠ b)
    (forward : (a, b) ∉ ends) (backward : (b, a) ∉ ends) : OneWay (ends ++ [(a, b)]) where
  nodup := List.nodup_append.mpr ⟨start.nodup, List.nodup_singleton _, fun edge known other new same =>
    forward (List.mem_singleton.mp new ▸ same ▸ known)⟩
  distinct c d member := by
    rcases List.mem_append.mp member with old | new
    · exact start.distinct c d old
    · obtain ⟨rfl, rfl⟩ := Prod.mk.inj (List.mem_singleton.mp new)
      exact different
  single c d member turned := by
    rcases List.mem_append.mp member with old | new
    · rcases List.mem_append.mp turned with oldToo | newToo
      · exact start.single c d old oldToo
      · obtain ⟨rfl, rfl⟩ := Prod.mk.inj (List.mem_singleton.mp newToo)
        exact backward old
    · obtain ⟨rfl, rfl⟩ := Prod.mk.inj (List.mem_singleton.mp new)
      rcases List.mem_append.mp turned with oldToo | newToo
      · exact backward oldToo
      · exact different (Prod.mk.inj (List.mem_singleton.mp newToo)).2

theorem discover_one_way (known walked : List (Nat × Nat)) (start : OneWay known) : OneWay (discover known walked) := by
  fun_induction discover known walked with
  | case1 known => exact start
  | case2 known a b rest _ ih => exact ih start
  | case3 known a b rest new ih =>
      simp only [List.contains_eq_mem, decide_eq_true_eq, not_or] at new
      exact ih (one_way_append known a b start new.1 new.2.1 new.2.2)

theorem discover_keeps (known walked : List (Nat × Nat)) : known ⊆ discover known walked := by
  fun_induction discover known walked with
  | case1 known => exact List.Subset.refl known
  | case2 known a b rest _ ih => exact ih
  | case3 known a b rest _ ih => exact List.Subset.trans (List.subset_append_left known [(a, b)]) ih

theorem discover_source (known walked : List (Nat × Nat)) : discover known walked ⊆ known ++ walked := by
  fun_induction discover known walked with
  | case1 known => simp
  | case2 known a b rest _ ih =>
      intro edge member
      exact List.mem_append.mpr ((List.mem_append.mp (ih member)).imp_right (List.mem_cons_of_mem (a, b)))
  | case3 known a b rest _ ih => rwa [List.append_assoc, List.singleton_append] at ih

theorem discover_complete (known walked : List (Nat × Nat)) (a b : Nat) (side : (a, b) ∈ walked) (different : a ≠ b) :
    (a, b) ∈ discover known walked ∨ (b, a) ∈ discover known walked := by
  fun_induction discover known walked with
  | case1 known => cases side
  | case2 known c d rest old ih =>
      rcases List.mem_cons.mp side with here | later
      · obtain ⟨rfl, rfl⟩ := Prod.mk.inj here
        simp only [List.contains_eq_mem, decide_eq_true_eq, different, false_or] at old
        exact old.imp (fun listed => discover_keeps known rest listed) fun listed => discover_keeps known rest listed
      · exact ih later
  | case3 known c d rest _ ih =>
      rcases List.mem_cons.mp side with here | later
      · exact .inl (discover_keeps _ rest (by simp [here]))
      · exact ih later

def ofFaces (faces : List (List Nat)) : List (Nat × Nat) := discover [] (faces.flatMap sides)

theorem of_faces_one_way (faces : List (List Nat)) : OneWay (ofFaces faces) := discover_one_way [] _ one_way_nil

theorem of_faces_complete (faces : List (List Nat)) (refs : List Nat) (face : refs ∈ faces) (a b : Nat)
    (side : (a, b) ∈ sides refs) (different : a ≠ b) : (a, b) ∈ ofFaces faces ∨ (b, a) ∈ ofFaces faces :=
  discover_complete [] _ a b (List.mem_flatMap.mpr ⟨refs, face, side⟩) different

theorem of_faces_inside (faces : List (List Nat)) (vertices : Nat) (inside : ∀ refs ∈ faces, ∀ v ∈ refs, v < vertices)
    (a b : Nat) (edge : (a, b) ∈ ofFaces faces) : a < vertices ∧ b < vertices := by
  obtain ⟨refs, face, side⟩ := List.mem_flatMap.mp (discover_source [] _ edge)
  obtain ⟨first, second⟩ := sides_inside refs a b side
  exact ⟨inside refs face a first, inside refs face b second⟩

theorem of_mesh_ok (m : Mesh) (valid : m.check = .ok ()) (faces : List (List Nat)) (found : m.faces = .ok faces) :
    ofMesh m = .ok (ofEnds m.vertexCount (ofFaces faces)) := by
  obtain ⟨rows, laid⟩ := (Mesh.check_ok_iff m).mp valid
  obtain rfl := Except.ok.inj (found.symm.trans (Mesh.faces_laid m rows laid.count laid.index laid.refs))
  exact of_mesh_laid m faces laid

theorem of_valid_mesh (m : Mesh) (valid : m.check = .ok ()) :
    ∃ faces, m.faces = .ok faces ∧ ofMesh m = .ok (ofEnds m.vertexCount (ofFaces faces)) ∧
      ∀ a b, (a, b) ∈ ofFaces faces → a < m.vertexCount ∧ b < m.vertexCount := by
  obtain ⟨faces, laid⟩ := (Mesh.check_ok_iff m).mp valid
  have found := Mesh.faces_laid m faces laid.count laid.index laid.refs
  exact ⟨faces, found, of_mesh_ok m valid faces found, of_faces_inside faces m.vertexCount laid.inside⟩

section Numbers

variable (vertices : Nat) (ends : List (Nat × Nat)) (oneWay : OneWay ends)

theorem signed_number_eq (e : Nat) (narrow : 2 * (e + 1) < UInt64.size) : signedNumber e = e + 1 :=
  Int.bmod_eq_of_le_mul_two (by omega) (by omega)

theorem negated_number_eq (e : Nat) (narrow : 2 * (e + 1) < UInt64.size) : Int.bmod (-signedNumber e) UInt64.size = -(e + 1) := by
  rw [signed_number_eq e narrow]
  exact Int.bmod_eq_of_le_mul_two (by omega) (by omega)

theorem edge_of_along (e : Nat) : edgeOf ((e : Int) + 1) = .ok e := by
  rw [edgeOf, if_neg (by omega)]
  exact congrArg Except.ok (by omega)

theorem edge_of_against (e : Nat) : edgeOf (-((e : Int) + 1)) = .ok e := by
  rw [edgeOf, if_neg (by omega)]
  exact congrArg Except.ok (by omega)

theorem couple_missing (a b : Nat) (missing : (a, b) ∉ ends) : (couples ends a).find? (fun couple => couple.1 == b) = none := by
  rw [List.find?_eq_none]
  rintro ⟨far, e⟩ stored same
  obtain rfl : far = b := by simpa using same
  exact missing (List.mem_of_getElem? ((mem_couples ends a far e).mp stored))

include oneWay

theorem couple_found (e a b : Nat) (edge : ends[e]? = some (a, b)) :
    (couples ends a).find? (fun couple => couple.1 == b) = some (b, e) := by
  have stored : (b, e) ∈ couples ends a := (mem_couples ends a b e).mpr edge
  cases found : (couples ends a).find? fun couple => couple.1 == b with
  | none => exact absurd (List.find?_eq_none.mp found (b, e) stored) (by simp)
  | some couple =>
      obtain ⟨far, other⟩ := couple
      obtain rfl : far = b := by simpa using List.find?_some found
      have again := (mem_couples ends a far other).mp (List.mem_of_find?_eq_some found)
      have bound := (List.getElem?_eq_some_iff.mp edge).1
      rw [(List.getElem?_inj bound oneWay.nodup).mp (edge.trans again.symm)]

variable (inside : ∀ a b, (a, b) ∈ ends → a < vertices ∧ b < vertices) (narrow : 2 * ends.length < UInt64.size)

include inside narrow

theorem number_along (e a b : Nat) (edge : ends[e]? = some (a, b)) : (ofEnds vertices ends).number a b = .ok ((e : Int) + 1) := by
  obtain ⟨first, _⟩ := inside a b (List.mem_of_getElem? edge)
  have bound := (List.getElem?_eq_some_iff.mp edge).1
  simp only [number, around_of_ends, if_pos first, bind, Except.bind, couple_found ends oneWay e a b edge, pure, Except.pure]
  exact congrArg Except.ok (signed_number_eq e (by omega))

theorem number_against (e a b : Nat) (edge : ends[e]? = some (a, b)) :
    (ofEnds vertices ends).number b a = .ok (-((e : Int) + 1)) := by
  have listed := List.mem_of_getElem? edge
  obtain ⟨first, second⟩ := inside a b listed
  have bound := (List.getElem?_eq_some_iff.mp edge).1
  simp only [number, around_of_ends, if_pos first, if_pos second, bind, Except.bind,
    couple_missing ends b a (oneWay.single a b listed), couple_found ends oneWay e a b edge, pure, Except.pure]
  exact congrArg Except.ok (negated_number_eq e (by omega))

end Numbers

end EdgeSet

end Seam
