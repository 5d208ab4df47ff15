import Mathlib.Data.List.Nodup
import Mathlib.Data.List.Perm.Basic
import Seam.Proofs.Discovery

set_option autoImplicit false

namespace Seam.EdgeSet

-- A side of non-zero length that no earlier one has walked, in either direction.
def Fresh (earlier : List (Nat × Nat)) (side : Nat × Nat) : Prop :=
  side.1 ≠ side.2 ∧ side ∉ earlier ∧ (side.2, side.1) ∉ earlier

instance (earlier : List (Nat × Nat)) (side : Nat × Nat) : Decidable (Fresh earlier side) :=
  inferInstanceAs (Decidable (_ ∧ _ ∧ _))

def firstMet (walked : List (Nat × Nat)) : List (Nat × Nat) :=
  (walked.zipIdx.filter fun item => Fresh (walked.take item.2) item.1).map Prod.fst

section Meetings

def SamePairs (known walked : List (Nat × Nat)) : Prop :=
  ∀ a b, a ≠ b → ((a, b) ∈ known ∨ (b, a) ∈ known ↔ (a, b) ∈ walked ∨ (b, a) ∈ walked)

theorem same_pairs_fresh (known walked : List (Nat × Nat)) (side : Nat × Nat) (same : SamePairs known walked) :
    SamePairs (known ++ [side]) (walked ++ [side]) := by
  intro a b different
  have before := same a b different
  simp only [List.mem_append, List.mem_singleton]
  grind

theorem same_pairs_old (known walked : List (Nat × Nat)) (side : Nat × Nat) (same : SamePairs known walked)
    (old : ¬ Fresh walked side) : SamePairs known (walked ++ [side]) := by
  intro a b different
  have before := same a b different
  simp only [Fresh] at old
  simp only [List.mem_append, List.mem_singleton]
  grind

theorem discover_step (known walked rest : List (Nat × Nat)) (side : Nat × Nat) (same : SamePairs known walked) :
    discover known (side :: rest) = if Fresh walked side then discover (known ++ [side]) rest else discover known rest := by
  obtain ⟨a, b⟩ := side
  rw [discover]
  by_cases different : a = b
  · rw [if_pos (.inl different), if_neg (fun fresh => fresh.1 different)]
  · have before := same a b different
    have listed : (a = b ∨ known.contains (a, b) ∨ known.contains (b, a)) ↔ ¬ Fresh walked (a, b) := by
      simp only [List.contains_eq_mem, decide_eq_true_eq, Fresh]
      grind
    by_cases fresh : Fresh walked (a, b)
    · rw [if_neg (fun old => listed.mp old fresh), if_pos fresh]
    · rw [if_pos (listed.mpr fresh), if_neg fresh]

theorem discover_fresh (known walked rest : List (Nat × Nat)) (same : SamePairs known walked) :
    discover known rest =
      known ++ ((rest.zipIdx walked.length).filter fun item => Fresh ((walked ++ rest).take item.2) item.1).map Prod.fst := by
  induction rest generalizing known walked with
  | nil => simp [discover]
  | cons side rest ih =>
      have shifted : walked ++ side :: rest = walked ++ [side] ++ rest := by simp
      have length : (walked ++ [side]).length = walked.length + 1 := by simp
      rw [discover_step known walked rest side same, List.zipIdx_cons]
      by_cases fresh : Fresh walked side
      · have onward := ih (known ++ [side]) (walked ++ [side]) (same_pairs_fresh known walked side same)
        rw [length, ← shifted] at onward
        rw [if_pos fresh, onward, List.filter_cons_of_pos (by simpa using fresh), List.map_cons, List.append_assoc,
          List.singleton_append]
      · have onward := ih known (walked ++ [side]) (same_pairs_old known walked side same fresh)
        rw [length, ← shifted] at onward
        rw [if_neg fresh, onward, List.filter_cons_of_neg (by simpa using fresh)]

theorem discover_first_met (walked : List (Nat × Nat)) : discover [] walked = firstMet walked :=
  discover_fresh [] [] walked fun _ _ _ => Iff.rfl

end Meetings

section Couples

variable (vertices : Nat) (ends : List (Nat × Nat))

theorem couples_ascend (v : Nat) : ((couples ends v).map Prod.snd).Pairwise (· < ·) := by
  have positions : ends.zipIdx.Pairwise fun first second => first.2 < second.2 := by
    rw [← List.pairwise_map, List.zipIdx_map_snd]
    exact List.pairwise_lt_range'
  rw [List.pairwise_map, couples]
  refine positions.filterMap _ fun first second before one found other foundToo => ?_
  have position (edge : (Nat × Nat) × Nat) (couple : Nat × Nat)
      (stored : (if edge.1.1 = v then some (edge.1.2, edge.2) else none) = some couple) : couple.2 = edge.2 := by
    split at stored
    · rw [← Option.some.inj stored]
    · cases stored
  rw [position first one found, position second other foundToo]
  exact before

variable (within : ∀ a b, (a, b) ∈ ends → a < vertices ∧ b < vertices)

theorem mem_edge_ids (e : Nat) : e ∈ (ofEnds vertices ends).edgeIds ↔ ∃ v < vertices, ∃ far, ends[e]? = some (v, far) := by
  simp only [ofEnds, ofRows, List.mem_map, List.mem_flatten, List.mem_range]
  constructor
  · rintro ⟨⟨far, e⟩, ⟨_, ⟨v, bound, rfl⟩, stored⟩, rfl⟩
    exact ⟨v, bound, far, (mem_couples ends v far e).mp stored⟩
  · rintro ⟨v, bound, far, edge⟩
    exact ⟨(far, e), ⟨_, ⟨v, bound, rfl⟩, (mem_couples ends v far e).mpr edge⟩, rfl⟩

theorem edge_ids_nodup : (ofEnds vertices ends).edgeIds.Nodup := by
  have apart : ((List.range vertices).map fun v => (couples ends v).map Prod.snd).Pairwise List.Disjoint := by
    refine List.pairwise_map.mpr (List.nodup_range.imp fun {v w} different e first second => different ?_)
    obtain ⟨⟨far, e⟩, here, rfl⟩ := List.mem_map.mp first
    obtain ⟨⟨other, e⟩, there, rfl⟩ := List.mem_map.mp second
    have same := ((mem_couples ends v far e).mp here).symm.trans ((mem_couples ends w other e).mp there)
    exact (Prod.mk.inj (Option.some.inj same)).1
  have rows : (ofEnds vertices ends).edgeIds = ((List.range vertices).map fun v => (couples ends v).map Prod.snd).flatten := by
    simp only [ofEnds, ofRows, List.map_flatten, List.map_map]
    rfl
  rw [rows, List.nodup_flatten]
  refine ⟨fun row listed => ?_, apart⟩
  obtain ⟨v, _, rfl⟩ := List.mem_map.mp listed
  exact (couples_ascend ends v).imp Nat.ne_of_lt

include within

theorem edge_ids_length : (ofEnds vertices ends).edgeIds.length = ends.length := by
  have same : (ofEnds vertices ends).edgeIds.Perm (List.range ends.length) := by
    rw [List.perm_ext_iff_of_nodup (edge_ids_nodup vertices ends) List.nodup_range]
    intro e
    rw [mem_edge_ids, List.mem_range]
    constructor
    · intro stored
      obtain ⟨v, _, far, edge⟩ := stored
      exact (List.getElem?_eq_some_iff.mp edge).1
    · intro bound
      have edge : ends[e]? = some ends[e] := List.getElem?_eq_getElem bound
      exact ⟨ends[e].1, (within _ _ (List.getElem_mem bound)).1, ends[e].2, edge⟩
  rw [same.length_eq, List.length_range]

theorem of_ends_check (distinct : ∀ a b, (a, b) ∈ ends → a ≠ b) : (ofEnds vertices ends).check = .ok () := by
  have ids := edge_ids_length vertices ends within
  have far : (ofEnds vertices ends).neighbours.length = ends.length := by
    rw [← ids]
    simp only [ofEnds, ofRows, List.length_map]
  have covered : (ofEnds vertices ends).vertexIndex.getLastD 0 = (ofEnds vertices ends).neighbours.length := by
    rw [List.getLastD_eq_getLast?]
    simp only [ofEnds, ofRows, Ragged.index, Ragged.boundaries_last, List.length_map, Nat.zero_add, Option.getD_some]
  have each : ∀ item ∈ (ofEnds vertices ends).ends.zipIdx, (ofEnds vertices ends).checkEdge item.2 item.1.1 item.1.2 = .ok () := by
    intro item member
    obtain ⟨⟨a, b⟩, e⟩ := item
    have edge : ends[e]? = some (a, b) := List.mem_zipIdx_iff_getElem?.mp member
    have listed := List.mem_of_getElem? edge
    obtain ⟨first, second⟩ := within a b listed
    have stored : (b, e) ∈ couples ends a := (mem_couples ends a b e).mpr edge
    have sound : ¬ (vertices ≤ a ∨ vertices ≤ b ∨ a = b) := by
      have different := distinct a b listed
      omega
    simp [checkEdge, of_ends_vertex_count, if_neg sound, around_of_ends, first, stored, bind, Except.bind, pure, Except.pure]
  rw [check, if_neg (fun wrong => wrong.elim (fun miscounted => miscounted far) fun miscounted => miscounted ids),
    if_neg (not_not.mpr covered)]
  exact for_m_ok _ _ each

end Couples

theorem edges_in_order (m : Mesh) (valid : m.check = .ok ()) :
    ∃ s faces, ofMesh m = .ok s ∧ m.faces = .ok faces ∧ s.ends = firstMet (faces.flatMap sides) ∧
      s.globalEdges = .ofNat s.edgeCount ∧ s.vertexIndex.length = m.vertexCount + 1 ∧
      (∀ v, ∃ couples, s.around v = .ok couples ∧ (couples.map Prod.snd).Pairwise (· < ·) ∧
        ∀ far e, (far, e) ∈ couples ↔ s.ends[e]? = some (v, far)) ∧
      s.check = .ok () := by
  obtain ⟨faces, found, edges, inside⟩ := of_valid_mesh m valid
  have index : (ofEnds m.vertexCount (ofFaces faces)).vertexIndex.length = m.vertexCount + 1 := by
    simp [ofEnds, ofRows, Ragged.index, Ragged.boundaries_length]
  refine ⟨_, faces, edges, found, discover_first_met _, rfl, index, fun v => ?_, ?_⟩
  · refine ⟨_, around_of_ends m.vertexCount (ofFaces faces) v, ?_, fun far e => ?_⟩
    · split
      · exact couples_ascend (ofFaces faces) v
      · exact .nil
    · split
      · exact mem_couples (ofFaces faces) v far e
      · rename_i beyond
        have unused : ¬ (ofFaces faces)[e]? = some (v, far) := fun edge => beyond (inside v far (List.mem_of_getElem? edge)).1
        exact iff_of_false List.not_mem_nil unused
  · exact of_ends_check m.vertexCount (ofFaces faces) inside (of_faces_one_way faces).distinct

def tatters : Mesh :=
  { Mesh.empty "tatters" with
    faceGnums := [1, 2, 3, 4, 5], faceIndex := [0, 4, 6, 6, 7, 10], faceRefs := [0, 1, 1, 2, 2, 1, 3, 1, 0, 3]
    vertices := (List.range 4).map fun i => ⟨.ofNat (i + 1), ⟨0⟩, ⟨⟨0⟩, ⟨0⟩, ⟨0⟩⟩⟩ }

theorem tatters_in_order :
    tatters.check = .ok () ∧ ∃ s, ofMesh tatters = .ok s ∧ s.ends = [(0, 1), (1, 2), (2, 0), (0, 3), (3, 1)] ∧
      s.around 0 = .ok [(1, 0), (3, 3)] ∧ s.check = .ok () := by
  have valid : tatters.check = .ok () := by decide
  obtain ⟨s, faces, edges, found, order, _, _, _, sound⟩ := edges_in_order tatters valid
  obtain rfl : faces = [[0, 1, 1, 2], [2, 1], [], [3], [1, 0, 3]] := Except.ok.inj (found.symm.trans (by decide))
  have ends : s.ends = [(0, 1), (1, 2), (2, 0), (0, 3), (3, 1)] := order.trans (by decide)
  obtain rfl : s = .ofEnds 4 [(0, 1), (1, 2), (2, 0), (0, 3), (3, 1)] := Except.ok.inj (edges.symm.trans (by decide))
  exact ⟨valid, _, edges, ends, by decide, sound⟩

end Seam.EdgeSet
