import Mathlib.Data.List.GetD
import Mathlib.Data.List.Sort
import Seam.Proofs.Mesh.Cutting

set_option autoImplicit false

namespace Seam.Mesh

theorem index_rises (kept : List Nat) (rising : kept.Pairwise (· < ·)) (v w : Nat) (first : v ∈ kept) (second : w ∈ kept)
    (less : v < w) : kept.idxOf v < kept.idxOf w := by
  have boundV := List.idxOf_lt_length_of_mem first
  have boundW := List.idxOf_lt_length_of_mem second
  have apart : kept.idxOf v ≠ kept.idxOf w := fun same => Nat.ne_of_lt less ((List.idxOf_inj first).mp same)
  by_contra behind
  have order := List.pairwise_iff_getElem.mp rising _ _ boundW boundV (by omega)
  rw [List.getElem_idxOf boundW, List.getElem_idxOf boundV] at order
  omega

theorem index_renamed (f : Nat → Nat) (items : List Nat) (v : Nat) (apart : ∀ w ∈ items, f w = f v → w = v) :
    (items.map f).idxOf (f v) = items.idxOf v := by
  induction items with
  | nil => rfl
  | cons w items ih =>
      rw [List.map_cons, List.idxOf_cons, List.idxOf_cons, ih fun other member => apart other (by simp [member])]
      by_cases same : w = v
      · rw [same, beq_self_eq_true, beq_self_eq_true]
      · have renamed : f w ≠ f v := fun equal => same (apart w (by simp) equal)
        rw [beq_false_of_ne same, beq_false_of_ne renamed]

section Again

variable (parent : Mesh) (faces picked : List (List Nat)) (inside : ∀ row ∈ faces, ∀ v ∈ row, v < parent.vertexCount)
  (among : ∀ row ∈ picked, row ∈ faces)

include inside among

theorem picked_inside : ∀ row ∈ picked, ∀ v ∈ row, v < parent.vertexCount := fun row member => inside row (among row member)

theorem kept_picked (v : Nat) (member : v ∈ parent.keptFor picked) : v ∈ parent.keptFor faces := by
  obtain ⟨row, listed, inRow⟩ := (mem_kept_for parent picked (picked_inside parent faces picked inside among) v).mp member
  exact row_kept parent faces inside row (among row listed) v inRow

-- The vertices that the picked faces use are kept in the same order by the piece and by the parent.
theorem kept_again (name : String) (numbers : List UInt64) (count : numbers.length = faces.length) :
    (cut name parent numbers faces).keptFor (picked.map (List.map (parent.keptFor faces).idxOf)) =
      (parent.keptFor picked).map (parent.keptFor faces).idxOf := by
  have laid := cut_laid parent faces inside name numbers count
  have within : ∀ row ∈ picked.map (List.map (parent.keptFor faces).idxOf), ∀ i ∈ row,
      i < (cut name parent numbers faces).vertexCount :=
    fun row member => laid.inside row (List.map_subset _ among member)
  have moved : ((parent.keptFor picked).map (parent.keptFor faces).idxOf).Pairwise (· < ·) := by
    refine List.pairwise_map.mpr ((kept_rising parent picked).imp_of_mem fun first second less => ?_)
    exact index_rises _ (kept_rising parent faces) _ _ (kept_picked parent faces picked inside among _ first)
      (kept_picked parent faces picked inside among _ second) less
  refine List.Pairwise.eq_of_mem_iff (kept_rising _ _) moved fun i => ?_
  rw [mem_kept_for _ _ within]
  simp only [List.mem_map, mem_kept_for parent picked (picked_inside parent faces picked inside among)]
  constructor
  · intro moved
    obtain ⟨_, ⟨row, member, rfl⟩, inRow⟩ := moved
    obtain ⟨v, listed, rfl⟩ := List.mem_map.mp inRow
    exact ⟨v, ⟨row, member, listed⟩, rfl⟩
  · intro used
    obtain ⟨v, ⟨row, member, listed⟩, rfl⟩ := used
    exact ⟨_, ⟨row, member, rfl⟩, List.mem_map_of_mem listed⟩

theorem cut_again (name again : String) (numbers fewer : List UInt64) (count : numbers.length = faces.length) :
    cut again (cut name parent numbers faces) fewer (picked.map (List.map (parent.keptFor faces).idxOf)) =
      cut again parent fewer picked := by
  have kept := kept_again parent faces picked inside among name numbers count
  have records : look (cut name parent numbers faces).vertices ((parent.keptFor picked).map (parent.keptFor faces).idxOf) =
      look parent.vertices (parent.keptFor picked) :=
    look_located parent.vertices _ _ (kept_inside parent faces) (kept_picked parent faces picked inside among)
  have rows : (picked.map (List.map (parent.keptFor faces).idxOf)).map
      (List.map ((parent.keptFor picked).map (parent.keptFor faces).idxOf).idxOf) = picked.map (List.map (parent.keptFor picked).idxOf) := by
    rw [List.map_map]
    refine List.map_congr_left fun row member => ?_
    rw [Function.comp_apply, List.map_map]
    refine List.map_congr_left fun v listed => ?_
    refine index_renamed (parent.keptFor faces).idxOf (parent.keptFor picked) v fun w known same => ?_
    exact (List.idxOf_inj (kept_picked parent faces picked inside among w known)).mp same
  rw [cut, kept, records, rows, cut]

end Again

theorem subset_ok_iff (name : String) (selection : List Nat) (parent : Mesh) :
    (∃ piece, subset name selection parent = .ok piece) ↔
      parent.check = .ok () ∧ selection.IsChain (· < ·) ∧ ∀ f ∈ selection, f < parent.faceCount := by
  constructor
  · intro done
    obtain ⟨piece, ok⟩ := done
    have valid : parent.check = .ok () := by
      obtain ⟨_, checked, _⟩ := bind_ok _ _ _ ok
      exact checked
    have unbroken : Ragged.firstBreak (fun a b => decide (a < b)) selection = none := by
      cases breaks : Ragged.firstBreak (fun a b => decide (a < b)) selection with
      | none => rfl
      | some place => simp [subset, valid, breaks, refuse, bind, Except.bind] at ok
    have found : selection.find? (fun f => decide (parent.faceCount ≤ f)) = none := by
      cases stray : selection.find? fun f => decide (parent.faceCount ≤ f) with
      | none => rfl
      | some f => simp [subset, valid, unbroken, stray, refuse, bind, Except.bind] at ok
    rw [Ragged.first_break_none_iff] at unbroken
    exact ⟨valid, by simpa using unbroken, by simpa using found⟩
  · intro fine
    obtain ⟨piece, done, _⟩ := subset_cuts name selection parent fine.1 fine.2.1 fine.2.2
    exact ⟨piece, done⟩

def through (selection chosen : List Nat) : List Nat := chosen.map fun k => selection.getD k 0

section Through

variable (selection chosen : List Nat) (within : ∀ k ∈ chosen, k < selection.length)

include within

theorem through_among (f : Nat) (member : f ∈ through selection chosen) : f ∈ selection := by
  obtain ⟨k, listed, rfl⟩ := List.mem_map.mp member
  simp [within k listed]

theorem through_rises (first : selection.IsChain (· < ·)) (second : chosen.IsChain (· < ·)) :
    (through selection chosen).IsChain (· < ·) := by
  rw [List.isChain_iff_pairwise] at first second ⊢
  refine List.pairwise_map.mpr (second.imp_of_mem fun {k l} memberK memberL less => ?_)
  have boundK := within k memberK
  have boundL := within l memberL
  simpa [boundK, boundL] using List.pairwise_iff_getElem.mp first k l boundK boundL less

theorem looked_up_through {α : Type} (value : Nat → α) (other : α) :
    chosen.map (fun k => (selection.map value).getD k other) = (through selection chosen).map value := by
  rw [through, List.map_map]
  refine List.map_congr_left fun k member => ?_
  have bound := within k member
  simp [bound]

theorem rows_at_through (rows : List (List Nat)) (rename : Nat → Nat) :
    rowsAt ((rowsAt rows selection).map (List.map rename)) chosen = (rowsAt rows (through selection chosen)).map (List.map rename) := by
  rw [rowsAt, rowsAt, List.map_map, rowsAt, List.map_map]
  exact looked_up_through selection chosen within _ []

theorem gnums_at_through (parent piece : Mesh) (numbers : piece.faceGnums = parent.gnumsAt selection) :
    piece.gnumsAt chosen = parent.gnumsAt (through selection chosen) := by
  rw [gnumsAt, numbers]
  exact looked_up_through selection chosen within _ 0

end Through

theorem subset_is_cut (name : String) (selection : List Nat) (parent piece : Mesh) (ok : subset name selection parent = .ok piece) :
    ∃ rows, parent.Laid rows ∧ piece = cut name parent (parent.gnumsAt selection) (rowsAt rows selection) := by
  obtain ⟨valid, rising, inside⟩ := (subset_ok_iff name selection parent).mp ⟨piece, ok⟩
  obtain ⟨rows, laid⟩ := (check_ok_iff parent).mp valid
  exact ⟨rows, laid, Except.ok.inj (ok.symm.trans (subset_done parent rows selection laid inside name rising))⟩

theorem subset_again (name again : String) (selection chosen : List Nat) (parent piece : Mesh)
    (ok : subset name selection parent = .ok piece) (rising : chosen.IsChain (· < ·)) (within : ∀ k ∈ chosen, k < piece.faceCount) :
    ∃ smaller, subset again chosen piece = .ok smaller ∧ subset again (through selection chosen) parent = .ok smaller := by
  obtain ⟨_, ascends, inside⟩ := (subset_ok_iff name selection parent).mp ⟨piece, ok⟩
  obtain ⟨rows, laid, rfl⟩ := subset_is_cut name selection parent piece ok
  have size : (parent.gnumsAt selection).length = selection.length := List.length_map _
  have few : ∀ k ∈ chosen, k < selection.length := fun k member => size ▸ within k member
  have members := through_among selection chosen few
  have faces := rows_within parent rows selection laid inside
  have count := at_length parent rows selection
  have among : ∀ row ∈ rowsAt rows (through selection chosen), row ∈ rowsAt rows selection := List.map_subset _ members
  have first := subset_done _ _ chosen (cut_laid parent _ faces name _ count) within again rising
  rw [rows_at_through selection chosen few, gnums_at_through selection chosen few parent _ rfl,
    cut_again parent _ _ faces among name again _ _ count] at first
  exact ⟨_, first, subset_done parent rows _ laid (fun f member => inside f (members f member)) again
    (through_rises selection chosen few ascends rising)⟩

theorem cut_facet (parent piece : Mesh) (selection : List Nat) (valid : parent.check = .ok ())
    (inside : ∀ f ∈ selection, f < parent.faceCount) (cuts : Cut parent selection piece) (k f : Nat)
    (place : selection[k]? = some f) : ∃ item, parent.facet f = .ok item ∧ piece.facet k = .ok item := by
  have facet : ∀ f ∈ selection, ∃ item, parent.facets[f]? = some item := fun f member =>
    ⟨_, List.getElem?_eq_getElem (by rw [facets_length parent valid]; exact inside f member)⟩
  obtain ⟨item, found⟩ := facet f (List.mem_of_getElem? place)
  have moved : piece.facets[k]? = some item := by
    rw [cuts.facets, filter_map_get _ selection facet k f place, found]
  exact ⟨item, ((facet_of_check parent valid f item).mpr found).1, ((facet_of_check piece cuts.valid k item).mpr moved).1⟩

theorem subset_cuts_out (name : String) (selection : List Nat) (parent : Mesh) :
    ((∃ piece, subset name selection parent = .ok piece) ↔
      parent.check = .ok () ∧ selection.IsChain (· < ·) ∧ ∀ f ∈ selection, f < parent.faceCount) ∧
    ∀ piece, subset name selection parent = .ok piece →
      piece.check = .ok () ∧ piece.name = name ∧ piece.faceCount = selection.length ∧
      (∀ k f, selection[k]? = some f → ∃ item, parent.facet f = .ok item ∧ piece.facet k = .ok item) ∧
      (∃ kept, kept.IsChain (· < ·) ∧ parent.records kept = .ok piece.vertices ∧
        ∀ v, v ∈ kept ↔ ∃ f ∈ selection, ∃ refs, parent.face f = .ok refs ∧ v ∈ refs) ∧
      piece.globalFaces = .ofNat piece.faceCount ∧ piece.globalVertices = .ofNat piece.vertexCount ∧
      ∀ (again : String) (chosen : List Nat), chosen.IsChain (· < ·) → (∀ k ∈ chosen, k < piece.faceCount) →
        ∃ smaller, subset again chosen piece = .ok smaller ∧ subset again (through selection chosen) parent = .ok smaller := by
  refine ⟨subset_ok_iff name selection parent, fun piece ok => ?_⟩
  obtain ⟨valid, rising, inside⟩ := (subset_ok_iff name selection parent).mp ⟨piece, ok⟩
  obtain ⟨same, done, cuts⟩ := subset_cuts name selection parent valid rising inside
  obtain rfl := Except.ok.inj (done.symm.trans ok)
  obtain ⟨rows, laid, cutOut⟩ := subset_is_cut name selection parent same ok
  refine ⟨cuts.valid, ?name, cuts.count, cut_facet parent same selection valid inside cuts, ?vertices, ?faces, ?table,
    fun again chosen => subset_again name again selection chosen parent same ok⟩
  case vertices =>
    refine ⟨parent.keptFor (rowsAt rows selection), List.isChain_iff_pairwise.mpr (kept_rising parent _), ?_,
      mem_kept_iff parent rows selection laid inside⟩
    rw [cutOut, records_inside parent _ (kept_inside parent _)]
    rfl
  all_goals
    rw [cutOut]
    rfl

def quilt : Mesh :=
  { Mesh.empty "quilt" with
    faceGnums := [4, 5, 6], faceIndex := [0, 3, 6, 9], faceRefs := [5, 1, 0, 1, 2, 4, 2, 4, 3]
    vertices := (List.range 6).map fun i => ⟨.ofNat (i + 1), ⟨0⟩, ⟨⟨0⟩, ⟨0⟩, ⟨0⟩⟩⟩ }

theorem quilt_cut_twice : ∃ piece smaller, subset "strip" [1, 2] quilt = .ok piece ∧ piece.faceRefs = [0, 1, 3, 1, 3, 2] ∧
    (∃ item, quilt.facet 2 = .ok item ∧ piece.facet 1 = .ok item) ∧
    subset "scrap" [1] piece = .ok smaller ∧ subset "scrap" [2] quilt = .ok smaller ∧ smaller.faceRefs = [0, 2, 1] := by
  obtain ⟨accepts, cuts⟩ := subset_cuts_out "strip" [1, 2] quilt
  obtain ⟨piece, ok⟩ := accepts.mpr ⟨by decide, by decide, by decide⟩
  obtain ⟨_, _, count, faces, _, _, _, again⟩ := cuts piece ok
  obtain ⟨smaller, first, second⟩ := again "scrap" [1] (by decide) (by simp [count])
  exact ⟨piece, smaller, ok, Except.ok.inj ((congrArg (Except.map Mesh.faceRefs) ok).symm.trans (by decide)),
    faces 1 2 rfl, first, second, Except.ok.inj ((congrArg (Except.map Mesh.faceRefs) second).symm.trans (by decide))⟩

end Seam.Mesh
