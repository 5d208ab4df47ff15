import Seam.Assembly
import Seam.Proofs.Discovery
import Seam.Proofs.Mesh.Compaction
import Seam.Proofs.Mesh.Cutting
import Seam.Proofs.Mesh.Soundness

set_option autoImplicit false

namespace Seam.Mesh

theorem check_index_guarded (m : Mesh) : Guarded m.checkIndex := by
  unfold checkIndex
  by_cases length : m.faceIndex.length = m.faceCount + 1
  · obtain ⟨start, stop, first, _, last, _⟩ := Ragged.ends_found m.faceIndex m.faceCount length
    rw [if_neg (not_not.mpr length)]
    refine guarded_bind _ _ (first ▸ guarded_ok start) fun _ _ => ?_
    dsimp only
    split
    · exact guarded_bind _ _ (guarded_refuse _) nofun
    split
    · exact guarded_refuse _
    refine guarded_bind _ _ (last ▸ guarded_ok stop) fun _ _ => ?_
    split
    · exact guarded_refuse _
    · exact guarded_ok _
  · rw [if_pos length]
    exact guarded_bind _ _ (guarded_refuse _) nofun

theorem check_guarded (m : Mesh) : Guarded m.check := by
  refine guarded_bind _ _ (check_index_guarded m) fun _ indexed => ?_
  obtain ⟨rows, count, index, refs⟩ := (check_index_ok_iff m).mp indexed
  refine guarded_bind _ _ (faces_laid m rows count index refs ▸ guarded_ok rows) fun faces _ => ?_
  split
  · exact guarded_refuse _
  · exact guarded_ok _

structure Careful {α : Type} (m : Mesh) (result : Result α) : Prop where
  refused : ∀ e, m.check = .error e → result = .error e
  guarded : Guarded result

theorem careful_of_passed {α : Type} (m : Mesh) (result : Result α) (refused : ∀ e, m.check = .error e → result = .error e)
    (passed : m.check = .ok () → Guarded result) : Careful m result where
  refused := refused
  guarded := by
    cases valid : m.check with
    | ok _ => exact passed valid
    | error e =>
        rw [refused e valid]
        rintro ⟨⟩
        exact check_guarded m valid

theorem careful_bind {α : Type} (m : Mesh) (next : Unit → Result α) (later : m.check = .ok () → Guarded (m.check >>= next)) :
    Careful m (m.check >>= next) :=
  careful_of_passed m _ (fun e invalid => by rw [invalid]; rfl) later

theorem careful_edit {α : Type} (m : Mesh) (next : Mesh → Unit → Edit Mesh α)
    (passed : m.check = .ok () → Guarded ((get >>= fun m => Edit.ofResult m.check >>= next m).outcome m)) :
    Careful m ((get >>= fun m => Edit.ofResult m.check >>= next m).outcome m) :=
  careful_of_passed m _ (fun e invalid => Edit.outcome_refused m check next e invalid) passed

theorem careful_map {α β : Type} (m : Mesh) (f : α → β) (result : Result α) (careful : Careful m result) :
    Careful m (result.map f) := by
  refine ⟨fun e invalid => ?_, guarded_map f result careful.guarded⟩
  rw [careful.refused e invalid]
  rfl

section Reading

variable (m : Mesh) (valid : m.check = .ok ())

include valid

theorem faces_guarded : Guarded m.faces := by
  obtain ⟨rows, laid⟩ := (check_ok_iff m).mp valid
  exact faces_laid m rows laid.count laid.index laid.refs ▸ guarded_ok rows

theorem faces_inside (faces : List (List Nat)) (found : m.faces = .ok faces) : ∀ refs ∈ faces, ∀ v ∈ refs, v < m.vertexCount := by
  obtain ⟨rows, laid⟩ := (check_ok_iff m).mp valid
  obtain rfl := Except.ok.inj ((faces_laid m rows laid.count laid.index laid.refs).symm.trans found)
  exact laid.inside

theorem face_parts (f : Nat) (bound : f < m.faceCount) :
    ∃ refs records gnum, m.face f = .ok refs ∧ m.records refs = .ok records ∧ fetch m.faceGnums f = .ok gnum := by
  obtain ⟨rows, laid⟩ := (check_ok_iff m).mp valid
  have boundRow : f < rows.length := laid.count ▸ bound
  have boundGnum : f < m.faceGnums.length := bound
  exact ⟨rows[f], _, m.faceGnums[f], face_laid m rows laid.index laid.refs f _ (by simp),
    records_inside m _ (laid.inside _ (List.getElem_mem boundRow)), (fetch_eq_ok_iff _ _ _).mpr (by simp)⟩

theorem encode_faces_guarded (faces : List Nat) (inside : ∀ f ∈ faces, f < m.faceCount) : Guarded (m.encodeFaces faces) := by
  have narrowed (n : Nat) : Guarded (Wire.narrow n) := by
    unfold Wire.narrow
    split
    · exact guarded_ok _
    · exact guarded_refuse _
  refine guarded_bind _ _ (narrowed _) fun _ _ => guarded_bind _ _ (guarded_map_m _ _ fun f member => ?_) fun _ _ => guarded_ok _
  obtain ⟨refs, records, gnum, face, read, number⟩ := face_parts m valid f (inside f member)
  refine guarded_bind _ _ (face ▸ guarded_ok refs) fun row same => ?_
  obtain rfl := Except.ok.inj (face.symm.trans same)
  refine guarded_bind _ _ (number ▸ guarded_ok gnum) fun _ _ => guarded_bind _ _ (narrowed _) fun _ _ => ?_
  exact guarded_bind _ _ (read ▸ guarded_ok records) fun _ _ => guarded_ok _

end Reading

section Operations

variable (m : Mesh)

theorem edges_careful : Careful m (EdgeSet.ofMesh m) := by
  refine careful_bind m _ fun valid => ?_
  obtain ⟨faces, laid⟩ := (check_ok_iff m).mp valid
  exact (EdgeSet.of_mesh_laid m faces laid ▸ guarded_ok _ : Guarded (EdgeSet.ofMesh m))

theorem compact_careful : Careful m m.compact := by
  refine careful_edit m _ fun valid => ?_
  obtain ⟨removed, done, _⟩ := compact_spec m valid
  exact (done ▸ guarded_ok _ : Guarded m.compact)

theorem collapse_careful : Careful m m.collapse := by
  refine careful_edit m _ fun valid => ?_
  obtain ⟨faces, laid⟩ := (check_ok_iff m).mp valid
  show Guarded m.collapse
  by_cases full : ∀ refs ∈ faces, 3 ≤ (collapsed refs).length
  · exact collapse_full m faces laid full ▸ guarded_ok _
  · obtain ⟨f, gnum, refs, _, refused⟩ := collapse_thin m faces laid full
    exact refused ▸ guarded_refuse _

theorem canonical_careful : Careful m m.canonical := by
  refine careful_edit m _ fun valid => ?_
  have spec := canonical_spec m valid
  show Guarded m.canonical
  cases ends : m.canonical with
  | ok result => exact guarded_ok result
  | error e =>
      rw [ends] at spec
      obtain ⟨gnum, rfl, _⟩ := spec
      exact guarded_refuse _

theorem subset_careful (name : String) (selection : List Nat) : Careful m (subset name selection m) := by
  refine careful_bind m _ fun valid => ?_
  show Guarded (subset name selection m)
  have rising := Ragged.first_break_none_iff (fun a b : Nat => decide (a < b)) selection
  cases breaks : Ragged.firstBreak (fun a b => decide (a < b)) selection with
  | some place =>
      simp only [subset, valid, breaks, bind, Except.bind, refuse]
      exact guarded_refuse _
  | none =>
      cases stray : selection.find? fun f => decide (m.faceCount ≤ f) with
      | some f =>
          simp only [subset, valid, breaks, stray, bind, Except.bind, refuse]
          exact guarded_refuse _
      | none =>
          obtain ⟨piece, done, _⟩ := subset_cuts name selection m valid (by simpa using rising.mp breaks) (by simpa using stray)
          exact done ▸ guarded_ok piece

end Operations

section Merging

variable (m : Mesh) (p : Plan)

theorem check_image_guarded : Guarded (p.checkImage m) := by
  unfold Plan.checkImage
  split
  · exact guarded_refuse _
  split
  · exact guarded_refuse _
  · exact guarded_ok _

theorem insertions_check_guarded (ins : Insertions) (edges newVertices : Nat) : Guarded (ins.check edges newVertices) := by
  unfold Insertions.check
  by_cases entries : ins.index.length = edges + 1
  · rw [if_neg (not_not.mpr entries), Ragged.shaped_eq _ _ _ entries]
    refine guarded_bind _ _ (guarded_ok _) fun fit _ => ?_
    cases fit with
    | false => exact guarded_bind _ _ (guarded_refuse _) nofun
    | true =>
        cases ins.vertices.find? fun v => decide (newVertices ≤ v) with
        | some v => exact guarded_refuse _
        | none => exact guarded_ok _
  · rw [if_pos entries]
    exact guarded_bind _ _ (guarded_refuse _) nofun

theorem check_insertions_guarded (s : EdgeSet) : Guarded (p.checkInsertions m s) := by
  unfold Plan.checkInsertions
  split
  · exact guarded_ok _
  split
  · exact guarded_refuse _
  · exact insertions_check_guarded _ _ _

theorem insertions_rows (s : EdgeSet) (ok : p.checkInsertions m s = .ok ()) (ins : Insertions) (given : p.insertions = some ins)
    (e : Nat) (bound : e < s.edgeCount) : Guarded (ins.onEdge e) := by
  simp only [Plan.checkInsertions, given] at ok
  split at ok
  · cases ok
  obtain ⟨rows, rfl, length, _⟩ := (ins.check_ok_iff _ _).mp ok
  exact Insertions.on_edge_rows rows e rows[e] (by simp) ▸ guarded_ok _

variable (s : EdgeSet) (other : Mesh) (found : EdgeSet.ofMesh other = .ok s) (small : s.edgeCount < UInt64.size)

include found small

theorem between_guarded (insertions : p.checkInsertions m s = .ok ()) (a b : Nat) : Guarded (p.between s a b) := by
  obtain ⟨ends, rfl⟩ := EdgeSet.of_mesh_ends other s found
  cases given : p.insertions with
  | none =>
      rw [Plan.between, given]
      exact guarded_ok _
  | some ins =>
      simp only [Plan.between, given]
      split
      · exact guarded_ok _
      refine guarded_bind _ _ (EdgeSet.number_guarded _ ends a b) fun number known => ?_
      obtain ⟨e, bound, edge⟩ := EdgeSet.edge_of_number _ ends a b number small known
      refine guarded_bind _ _ (edge ▸ guarded_ok e) fun position same => ?_
      obtain rfl := Except.ok.inj (edge.symm.trans same)
      exact guarded_bind _ _ (insertions_rows m p _ insertions ins given e bound) fun _ _ => guarded_ok _

theorem lay_face_guarded (insertions : p.checkInsertions m s = .ok ()) (refs : List Nat)
    (inside : ∀ v ∈ refs, v < p.image.length) (rows : Ragged.Rows Nat) : Guarded (p.layFaceOnto s rows refs) := by
  refine guarded_bind _ _ (guarded_fold_m _ _ (fun chain side member => ?_) _) fun _ _ => guarded_ok _
  obtain ⟨first, second⟩ := sides_inside refs side.1 side.2 member
  refine guarded_bind _ _ (guarded_fetch _ _ (inside _ first)) fun _ _ => ?_
  refine guarded_bind _ _ (guarded_fetch _ _ (inside _ second)) fun _ _ => ?_
  exact guarded_bind _ _ (between_guarded m p s other found small insertions side.1 side.2) fun _ _ => guarded_ok _

theorem merge_careful : Careful m (m.merge s p) := by
  refine careful_map m Prod.fst _ (careful_edit m _ fun valid => ?_)
  simp only [Edit.outcome_get_bind, Edit.outcome_look_bind]
  refine guarded_bind _ _ (check_guarded m) fun _ _ => guarded_bind _ _ (check_image_guarded m p) fun _ image => ?_
  obtain ⟨length, below⟩ := (p.check_image_ok_iff m).mp image
  refine guarded_bind _ _ (check_insertions_guarded m p s) fun _ insertions => ?_
  refine guarded_bind _ _ (p.vertices_guarded m length below) fun _ _ => guarded_bind _ _ (faces_guarded m valid) fun faces laid => ?_
  refine guarded_bind _ _ (guarded_fold_m _ _ (fun rows refs member => ?_) _) fun _ _ => guarded_ok _
  have inside := faces_inside m valid faces laid refs member
  exact lay_face_guarded m p s other found small insertions refs (fun v listed => length ▸ inside v listed) rows

end Merging

end Seam.Mesh
