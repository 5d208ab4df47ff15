import Mathlib.Data.List.Perm.Basic
import Seam.Proofs.Mesh.Plans

set_option autoImplicit false

namespace Seam.Insertions

def planned (pairs : List (Nat × List Nat)) (e : Nat) : List Nat := (pairs.filter fun pair => pair.1 == e).flatMap Prod.snd

theorem planned_cons (pair : Nat × List Nat) (rest : List (Nat × List Nat)) (e : Nat) :
    planned (pair :: rest) e = (if pair.1 = e then pair.2 else []) ++ planned rest e := by
  by_cases here : pair.1 = e <;> simp [planned, here]

def grouped (rows : List (List Nat)) (pairs : List (Nat × List Nat)) : List (List Nat) :=
  rows.mapIdx fun e row => row ++ planned pairs e

theorem grouped_nil (rows : List (List Nat)) : grouped rows [] = rows :=
  List.ext_getElem (by simp [grouped]) fun e _ _ => by simp [grouped, planned]

theorem grouped_cons (rows : List (List Nat)) (pair : Nat × List Nat) (rest : List (Nat × List Nat)) (row : List Nat)
    (found : rows[pair.1]? = some row) : grouped rows (pair :: rest) = grouped (rows.set pair.1 (row ++ pair.2)) rest := by
  obtain ⟨bound, rfl⟩ := List.getElem?_eq_some_iff.mp found
  refine List.ext_getElem (by simp [grouped]) fun e _ _ => ?_
  simp only [grouped, List.getElem_mapIdx, List.getElem_set, planned_cons]
  split
  · rename_i here
    subst here
    rw [List.append_assoc]
  · rw [List.nil_append]

theorem gather_eq (rows : List (List Nat)) (pairs : List (Nat × List Nat)) :
    gather rows pairs = match pairs.find? fun pair => rows.length ≤ pair.1 with
      | some pair => refuse (.insertions (.edge pair.1 rows.length))
      | none => .ok (grouped rows pairs) := by
  induction pairs generalizing rows with
  | nil => simp [gather, grouped_nil]
  | cons pair rest ih =>
      rw [gather]
      cases found : rows[pair.1]? with
      | none =>
          have beyond := List.getElem?_eq_none_iff.mp found
          simp [beyond]
      | some row =>
          have bound := (List.getElem?_eq_some_iff.mp found).1
          have onward := ih (rows.set pair.1 (row ++ pair.2))
          rw [List.length_set] at onward
          simp only [onward, List.find?_cons, decide_eq_false (Nat.not_le.mpr bound), grouped_cons rows pair rest row found]

theorem only_once (edges : List Nat) (once : edges.Nodup) (k : Nat) (items : List Nat) :
    edges.flatMap (fun e => if k = e then items else []) = if k ∈ edges then items else [] := by
  induction edges with
  | nil => rfl
  | cons e edges ih =>
      obtain ⟨fresh, once⟩ := List.nodup_cons.mp once
      rw [List.flatMap_cons, ih once]
      by_cases here : k = e
      · subst here
        simp [fresh]
      · simp [here]

theorem planned_perm (edges : Nat) (pairs : List (Nat × List Nat)) (inside : ∀ pair ∈ pairs, pair.1 < edges) :
    ((List.range edges).flatMap (planned pairs)).Perm (pairs.flatMap Prod.snd) := by
  induction pairs with
  | nil => simp [planned]
  | cons pair rest ih =>
      have apart := List.flatMap_append_perm (List.range edges) (fun e => if pair.1 = e then pair.2 else []) (planned rest)
      rw [only_once _ List.nodup_range, if_pos (List.mem_range.mpr (inside pair (by simp)))] at apart
      rw [funext (planned_cons pair rest), List.flatMap_cons]
      exact apart.symm.trans ((ih fun other member => inside other (by simp [member])).append_left pair.2)

theorem of_pairs_eq (edges : Nat) (pairs : List (Nat × List Nat)) :
    ofPairs edges pairs = match pairs.find? fun pair => edges ≤ pair.1 with
      | some pair => refuse (.insertions (.edge pair.1 edges))
      | none => .ok (ofRows ((List.range edges).map (planned pairs))) := by
  have rows : grouped (List.replicate edges []) pairs = (List.range edges).map (planned pairs) := by
    refine List.ext_getElem (by simp [grouped]) fun e _ _ => ?_
    simp [grouped]
  rw [ofPairs, gather_eq, rows, List.length_replicate]
  split
  · rfl
  · simp only [bind, Except.bind, Ragged.Rows.append_all]
    rfl

theorem stray_none_iff (edges : Nat) (pairs : List (Nat × List Nat)) :
    (pairs.find? fun pair => edges ≤ pair.1) = none ↔ ∀ pair ∈ pairs, pair.1 < edges := by
  simp only [List.find?_eq_none, decide_eq_true_eq, Nat.not_le]

theorem check_rows_iff (rows : List (List Nat)) (edges newVertices : Nat) (count : rows.length = edges) :
    (ofRows rows).check edges newVertices = .ok () ↔ ∀ v ∈ rows.flatten, v < newVertices := by
  rw [check_ok_iff]
  constructor
  · rintro ⟨others, same, _, below⟩
    have vertices : rows.flatten = others.flatten := congrArg Insertions.vertices same
    rw [vertices]
    exact List.forall_mem_flatten.mpr below
  · exact fun below => ⟨rows, rfl, count, List.forall_mem_flatten.mp below⟩

theorem pairs_grouped (edges : Nat) (pairs : List (Nat × List Nat)) :
    ((∃ ins, ofPairs edges pairs = .ok ins) ↔ ∀ pair ∈ pairs, pair.1 < edges) ∧
    (∀ pair, pairs.find? (fun pair => edges ≤ pair.1) = some pair → ofPairs edges pairs = refuse (.insertions (.edge pair.1 edges))) ∧
    ∀ ins, ofPairs edges pairs = .ok ins →
      ins.index.length = edges + 1 ∧ ins.index.head? = some 0 ∧ ins.index.IsChain (· ≤ ·) ∧
      ins.index.getLast? = some ins.vertices.length ∧
      (∀ e < edges, ins.onEdge e = .ok (planned pairs e)) ∧
      ins.vertices.Perm (pairs.flatMap Prod.snd) ∧
      ∀ newVertices, ins.check edges newVertices = .ok () ↔ ∀ pair ∈ pairs, ∀ v ∈ pair.2, v < newVertices := by
  have made := of_pairs_eq edges pairs
  cases stray : pairs.find? fun pair => edges ≤ pair.1 with
  | some pair =>
      rw [stray] at made
      have outside : ¬ ∀ pair ∈ pairs, pair.1 < edges := by
        rw [← stray_none_iff, stray]
        nofun
      refine ⟨iff_of_false ?_ outside, ?_, fun ins ok => by cases made.symm.trans ok⟩
      · rintro ⟨ins, ok⟩
        cases made.symm.trans ok
      · rintro _ ⟨⟩
        exact made
  | none =>
      rw [stray] at made
      have inside := (stray_none_iff edges pairs).mp stray
      refine ⟨iff_of_true ⟨_, made⟩ inside, nofun, fun ins ok => ?_⟩
      obtain rfl := Except.ok.inj (made.symm.trans ok)
      let rows := (List.range edges).map (planned pairs)
      have count : rows.length = edges := by simp [rows]
      have moved : rows.flatten.Perm (pairs.flatMap Prod.snd) := by
        rw [← List.flatMap_def]
        exact planned_perm edges pairs inside
      refine ⟨?_, Ragged.boundaries_head 0 rows, Ragged.boundaries_chain 0 rows, ?_, fun e bound => ?_, moved, fun newVertices => ?_⟩
      · exact (Ragged.boundaries_length 0 rows).trans (congrArg (· + 1) count)
      · exact (Ragged.boundaries_last 0 rows).trans (congrArg some (Nat.zero_add _))
      · exact on_edge_rows rows e (planned pairs e) (by simp [rows, bound])
      · refine (check_rows_iff rows edges newVertices count).trans ?_
        simp only [moved.mem_iff, List.forall_mem_flatMap]

theorem three_edges_grouped : ∃ ins, ofPairs 4 [(2, [7, 8]), (0, []), (2, [7]), (1, [3])] = .ok ins ∧
    ins.index.length = 5 ∧ ins.onEdge 2 = .ok [7, 8, 7] ∧ ins.onEdge 3 = .ok [] ∧ ins.vertices.Perm [7, 8, 7, 3] ∧
    ins.check 4 9 = .ok () ∧ ¬ ins.check 4 8 = .ok () ∧
    ofPairs 2 [(1, [3]), (2, [7]), (5, [])] = refuse (.insertions (.edge 2 2)) := by
  obtain ⟨accepts, _, gives⟩ := pairs_grouped 4 [(2, [7, 8]), (0, []), (2, [7]), (1, [3])]
  obtain ⟨ins, ok⟩ := accepts.mpr (by decide)
  obtain ⟨length, _, _, _, rows, vertices, checked⟩ := gives ins ok
  obtain ⟨_, refuses, _⟩ := pairs_grouped 2 [(1, [3]), (2, [7]), (5, [])]
  exact ⟨ins, ok, length, rows 2 (by decide), rows 3 (by decide), vertices, (checked 9).mpr (by decide),
    fun below => absurd ((checked 8).mp below) (by decide), refuses (2, [7]) (by decide)⟩

end Seam.Insertions
