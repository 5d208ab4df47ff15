import Seam.Proofs.Discovery

set_option autoImplicit false

namespace Seam.EdgeSet

def Joined (faces : List (List Nat)) (a b : Nat) : Prop :=
  a ≠ b ∧ ∃ refs ∈ faces, (a, b) ∈ sides refs ∨ (b, a) ∈ sides refs

theorem joined_iff (faces : List (List Nat)) (a b : Nat) :
    Joined faces a b ↔ (a, b) ∈ ofFaces faces ∨ (b, a) ∈ ofFaces faces := by
  have oneWay := of_faces_one_way faces
  have walked (c d : Nat) (edge : (c, d) ∈ ofFaces faces) : ∃ refs ∈ faces, (c, d) ∈ sides refs :=
    List.mem_flatMap.mp (discover_source [] _ edge)
  constructor
  · intro joined
    obtain ⟨different, refs, face, side⟩ := joined
    cases side with
    | inl along => exact of_faces_complete faces refs face a b along different
    | inr against => exact (of_faces_complete faces refs face b a against (Ne.symm different)).symm
  · intro edge
    cases edge with
    | inl along =>
        obtain ⟨refs, face, side⟩ := walked a b along
        exact ⟨oneWay.distinct a b along, refs, face, .inl side⟩
    | inr against =>
        obtain ⟨refs, face, side⟩ := walked b a against
        exact ⟨(oneWay.distinct b a against).symm, refs, face, .inr side⟩

def Leads (ends : List (Nat × Nat)) (number : Int) (a b : Nat) : Prop :=
  ∃ e : Nat, (ends[e]? = some (a, b) ∧ number = (e : Int) + 1) ∨ (ends[e]? = some (b, a) ∧ number = -((e : Int) + 1))

section Travel

variable (ends : List (Nat × Nat)) (number : Int)

theorem leads_back (a b : Nat) (leads : Leads ends number a b) : Leads ends (-number) b a := by
  obtain ⟨e, ⟨edge, rfl⟩ | ⟨edge, rfl⟩⟩ := leads
  · exact ⟨e, .inr ⟨edge, rfl⟩⟩
  · exact ⟨e, .inl ⟨edge, Int.neg_neg _⟩⟩

theorem leads_edge (a b : Nat) (leads : Leads ends number a b) : number ≠ 0 ∧ ∃ e < ends.length, edgeOf number = .ok e := by
  obtain ⟨e, ⟨edge, rfl⟩ | ⟨edge, rfl⟩⟩ := leads
  · exact ⟨by omega, e, (List.getElem?_eq_some_iff.mp edge).1, edge_of_along e⟩
  · exact ⟨by omega, e, (List.getElem?_eq_some_iff.mp edge).1, edge_of_against e⟩

theorem leads_some_iff (a b : Nat) : (∃ number, Leads ends number a b) ↔ (a, b) ∈ ends ∨ (b, a) ∈ ends := by
  simp only [Leads, List.mem_iff_getElem?]
  constructor
  · intro known
    obtain ⟨_, e, leads⟩ := known
    cases leads with
    | inl along => exact .inl ⟨e, along.1⟩
    | inr against => exact .inr ⟨e, against.1⟩
  · intro edge
    cases edge with
    | inl along =>
        obtain ⟨e, edge⟩ := along
        exact ⟨_, e, .inl ⟨edge, rfl⟩⟩
    | inr against =>
        obtain ⟨e, edge⟩ := against
        exact ⟨_, e, .inr ⟨edge, rfl⟩⟩

theorem leads_range_iff : (∃ a b, Leads ends number a b) ↔ 1 ≤ number.natAbs ∧ number.natAbs ≤ ends.length := by
  constructor
  · intro known
    obtain ⟨a, b, leads⟩ := known
    obtain ⟨different, e, bound, edge⟩ := leads_edge ends number a b leads
    rw [edgeOf, if_neg different] at edge
    have place := Except.ok.inj edge
    omega
  · intro range
    obtain ⟨positive, bound⟩ := range
    have edge : ends[number.natAbs - 1]? = some ends[number.natAbs - 1] := List.getElem?_eq_getElem (by omega)
    by_cases along : 0 < number
    · exact ⟨_, _, _, .inl ⟨edge, by omega⟩⟩
    · exact ⟨_, _, _, .inr ⟨edge, by omega⟩⟩

end Travel

theorem oriented_ok_iff (s : EdgeSet) (number : Int) (a b : Nat) :
    s.oriented number = .ok (a, b) ↔ Leads s.ends number a b := by
  constructor
  · intro ok
    unfold oriented at ok
    split at ok
    · cases ok
    rename_i first second found
    split at found
    · cases found
    rename_i different
    split at ok
    · rename_i along
      obtain ⟨rfl, rfl⟩ := Prod.mk.inj (Except.ok.inj ok)
      exact ⟨_, .inl ⟨found, by omega⟩⟩
    · rename_i against
      obtain ⟨rfl, rfl⟩ := Prod.mk.inj (Except.ok.inj ok)
      exact ⟨_, .inr ⟨found, by omega⟩⟩
  · rintro ⟨e, ⟨edge, rfl⟩ | ⟨edge, rfl⟩⟩
    · have place : ((e : Int) + 1).natAbs - 1 = e := by omega
      rw [oriented, if_neg (by omega), place, edge]
      exact congrArg Except.ok (if_pos (by omega))
    · have place : (-((e : Int) + 1)).natAbs - 1 = e := by omega
      rw [oriented, if_neg (by omega), place, edge]
      exact congrArg Except.ok (if_neg (by omega))

section Lookup

variable (vertices : Nat) (ends : List (Nat × Nat))

theorem number_missing (a b : Nat) (forward : (a, b) ∉ ends) (backward : (b, a) ∉ ends) :
    (ofEnds vertices ends).number a b = refuse (.missingEdge a b) := by
  have nothing (v far : Nat) (missing : (v, far) ∉ ends) :
      (if v < vertices then couples ends v else []).find? (fun couple => couple.1 == far) = none := by
    split
    · exact couple_missing ends v far missing
    · rfl
  simp only [number, around_of_ends, bind, Except.bind, nothing a b forward, nothing b a backward]

variable (oneWay : OneWay ends) (inside : ∀ a b, (a, b) ∈ ends → a < vertices ∧ b < vertices)
  (narrow : 2 * ends.length < UInt64.size)

include oneWay inside narrow

theorem number_ok_iff (a b : Nat) (number : Int) :
    (ofEnds vertices ends).number a b = .ok number ↔ Leads ends number a b := by
  constructor
  · intro ok
    by_cases forward : (a, b) ∈ ends
    · obtain ⟨e, edge⟩ := List.getElem?_of_mem forward
      have along := number_along vertices ends oneWay inside narrow e a b edge
      exact ⟨e, .inl ⟨edge, Except.ok.inj (ok.symm.trans along)⟩⟩
    by_cases backward : (b, a) ∈ ends
    · obtain ⟨e, edge⟩ := List.getElem?_of_mem backward
      have against := number_against vertices ends oneWay inside narrow e b a edge
      exact ⟨e, .inr ⟨edge, Except.ok.inj (ok.symm.trans against)⟩⟩
    · rw [number_missing vertices ends a b forward backward] at ok
      cases ok
  · rintro ⟨e, ⟨edge, rfl⟩ | ⟨edge, rfl⟩⟩
    · exact number_along vertices ends oneWay inside narrow e a b edge
    · exact number_against vertices ends oneWay inside narrow e b a edge

end Lookup

-- On a valid mesh the pairs that have a number are those that some face joins, and every number up to the count of edges,
-- of either sign, is the number of the ends it has. The numbers have to fit into signed words; for those of a list that
-- is held in memory they do.
theorem numbers_round_trip (m : Mesh) (valid : m.check = .ok ()) :
    ∃ s faces, ofMesh m = .ok s ∧ m.faces = .ok faces ∧ (2 * s.edgeCount < UInt64.size →
      (∀ a b, ((∃ number, s.number a b = .ok number) ↔ Joined faces a b) ∧
        (¬ Joined faces a b → s.number a b = refuse (.missingEdge a b)) ∧
        ∀ number, s.number a b = .ok number → number ≠ 0 ∧ (∃ e < s.edgeCount, edgeOf number = .ok e) ∧
          s.oriented number = .ok (a, b) ∧ s.number b a = .ok (-number)) ∧
      ∀ number : Int, ((∃ a b, s.oriented number = .ok (a, b)) ↔ 1 ≤ number.natAbs ∧ number.natAbs ≤ s.edgeCount) ∧
        ∀ a b, s.oriented number = .ok (a, b) → s.number a b = .ok number) := by
  obtain ⟨faces, found, edges, inside⟩ := of_valid_mesh m valid
  refine ⟨_, faces, edges, found, fun narrow => ?_⟩
  have numbered := number_ok_iff m.vertexCount (ofFaces faces) (of_faces_one_way faces) inside narrow
  have travelled := oriented_ok_iff (ofEnds m.vertexCount (ofFaces faces))
  constructor
  · intro a b
    refine ⟨?_, fun apart => ?_, fun number ok => ?_⟩
    · simp only [numbered, leads_some_iff, joined_iff]
    · rw [joined_iff, not_or] at apart
      exact number_missing m.vertexCount (ofFaces faces) a b apart.1 apart.2
    · have leads := (numbered a b number).mp ok
      obtain ⟨different, edge⟩ := leads_edge (ofFaces faces) number a b leads
      have back := leads_back (ofFaces faces) number a b leads
      exact ⟨different, edge, (travelled number a b).mpr leads, (numbered b a (-number)).mpr back⟩
  · intro number
    constructor
    · simp only [travelled]
      exact leads_range_iff (ofFaces faces) number
    · intro a b ok
      exact (numbered a b number).mpr ((travelled number a b).mp ok)

def pennant : Mesh :=
  { Mesh.empty "pennant" with
    faceGnums := [1], faceIndex := [0, 5], faceRefs := [0, 1, 0, 1, 2]
    vertices := (List.range 4).map fun i => ⟨.ofNat (i + 1), ⟨0⟩, ⟨⟨0⟩, ⟨0⟩, ⟨0⟩⟩⟩ }

theorem pennant_numbered :
    pennant.check = .ok () ∧ ∃ s, ofMesh pennant = .ok s ∧ 2 * s.edgeCount < UInt64.size ∧ s.oriented (-3) = .ok (0, 2) ∧
      s.number 0 2 = .ok (-3) ∧ s.number 2 0 = .ok 3 ∧ s.number 0 3 = refuse (.missingEdge 0 3) ∧
      ¬ ∃ a b, s.oriented (-9223372036854775808) = .ok (a, b) := by
  have valid : pennant.check = .ok () := by decide
  obtain ⟨s, faces, edges, found, round⟩ := numbers_round_trip pennant valid
  obtain rfl : s = .ofEnds 4 [(0, 1), (1, 2), (2, 0)] := Except.ok.inj (edges.symm.trans (by decide))
  obtain rfl : faces = [[0, 1, 0, 1, 2]] := Except.ok.inj (found.symm.trans (by decide))
  have narrow : 2 * (ofEnds 4 [(0, 1), (1, 2), (2, 0)]).edgeCount < UInt64.size := by decide
  obtain ⟨pairs, numbers⟩ := round narrow
  have ends : (ofEnds 4 [(0, 1), (1, 2), (2, 0)]).oriented (-3) = .ok (0, 2) := by decide
  have number := (numbers (-3)).2 0 2 ends
  have apart : ¬ Joined [[0, 1, 0, 1, 2]] 0 3 := by
    rw [joined_iff]
    decide
  obtain ⟨_, _, _, turned⟩ := (pairs 0 2).2.2 (-3) number
  have beyond := (numbers (-9223372036854775808)).1
  exact ⟨valid, _, edges, narrow, ends, number, turned, (pairs 0 3).2.1 apart, fun ok => absurd (beyond.mp ok).2 (by decide)⟩

end Seam.EdgeSet
