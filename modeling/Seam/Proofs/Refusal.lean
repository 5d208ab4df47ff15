import Seam.Proofs.Group.Delivery
import Seam.Proofs.Group.Shipping
import Seam.Proofs.Mesh.Refusal

set_option autoImplicit false

namespace Seam

namespace Assembly

theorem read_guarded {α : Type} (layout : Wire.Layout α) (n : Nat) (bytes : Bytes) : Guarded (Wire.read layout n bytes) := by
  unfold Wire.read
  dsimp only
  split
  · exact guarded_refuse _
  split
  · exact guarded_refuse _
  · exact guarded_ok _

theorem read_one_guarded {α : Type} (layout : Wire.Layout α) (bytes : Bytes) : Guarded (Wire.readOne layout bytes) := by
  refine guarded_bind _ _ (read_guarded layout 1 bytes) fun pair read => ?_
  have one : 0 < pair.1.length := by
    unfold Wire.read at read
    dsimp only at read
    split at read
    · cases read
    split at read
    · cases read
    obtain rfl := Except.ok.inj read
    simp [Wire.chunks]
  exact guarded_bind _ _ (guarded_fetch pair.1 0 one) fun _ _ => guarded_ok _

theorem read_header_guarded (kind : UInt16) (bytes : Bytes) : Guarded (Wire.readHeader kind bytes) := by
  refine guarded_bind _ _ (read_one_guarded Wire.header bytes) fun pair _ => ?_
  dsimp only
  split
  · exact guarded_refuse _
  split
  · exact guarded_refuse _
  · exact guarded_ok _

theorem read_faces_guarded (a : Assembly) (n : Nat) (bytes : Bytes) : Guarded (a.readFaces n bytes).2 := by
  induction n generalizing a bytes with
  | zero => exact guarded_ok _
  | succ n ih =>
      rw [readFaces]
      split
      · rename_i e failed
        rintro ⟨⟩
        refine guarded_bind _ _ (read_one_guarded Wire.face bytes) (fun _ _ => ?_) failed
        exact guarded_bind _ _ (read_guarded Wire.vertex _ _) fun _ _ => guarded_ok _
      · exact ih _ _

theorem decode_guarded (a : Assembly) (bytes : Bytes) : Guarded (a.decode bytes).2 := by
  rw [decode]
  split
  · exact guarded_ok _
  split
  · rename_i e failed
    rintro ⟨⟩
    exact guarded_bind _ _ (read_header_guarded Wire.facesKind bytes) (fun _ _ => read_one_guarded Wire.count _) failed
  · refine guarded_bind _ _ (read_faces_guarded a _ _) fun rest _ => ?_
    unfold Wire.checkLength
    split
    · exact guarded_ok _
    · exact guarded_refuse _

theorem decode_all_guarded (a : Assembly) (messages : List Bytes) : Guarded (a.decodeAll messages) := by
  induction messages generalizing a with
  | nil => exact guarded_ok a
  | cons bytes messages ih => exact guarded_bind _ _ (decode_guarded a bytes) fun _ _ => ih _

end Assembly

namespace Shipment

theorem messages_guarded (p : Shipment) (ranks : Nat) (m : Mesh) : Guarded (p.messages ranks m) := by
  have checks : Guarded (p.check ranks m) := by
    unfold Shipment.check
    dsimp only
    split
    · exact guarded_bind _ _ (guarded_refuse _) nofun
    rename_i length
    have shape := Ragged.shaped_eq p.index ranks p.faces.length (not_not.mp length)
    simp only [shape, bind, Except.bind]
    split
    · exact guarded_refuse _
    split
    · exact guarded_refuse _
    · exact Mesh.check_guarded m
  refine guarded_bind _ _ checks fun _ ok => guarded_map_m _ _ fun r member => ?_
  obtain ⟨rows, rfl, rfl⟩ := rows_of_check p ranks m ok
  obtain ⟨inside, valid⟩ := (check_rows_ok_iff rows m).mp ok
  have bound : r < rows.length := List.mem_range.mp member
  have row : Ragged.row (ofRows rows).index (ofRows rows).faces r = .ok rows[r] := Ragged.row_index rows r rows[r] (by simp)
  refine guarded_bind _ _ (row ▸ guarded_ok _) fun faces same => ?_
  obtain rfl := Except.ok.inj (row.symm.trans same)
  exact Mesh.encode_faces_guarded m valid _ (inside _ (List.getElem_mem bound))

theorem messages_invalid (p : Shipment) (ranks : Nat) (m : Mesh) (e : Failure) (invalid : m.check = .error e) :
    ∃ reason, p.messages ranks m = .error reason := by
  cases known : p.messages ranks m with
  | error reason => exact ⟨reason, rfl⟩
  | ok messages =>
      obtain ⟨_, checked, _⟩ := bind_ok _ _ _ known
      obtain ⟨rows, rfl, rfl⟩ := rows_of_check p ranks m checked
      cases invalid.symm.trans ((check_rows_ok_iff rows m).mp checked).2

end Shipment

section Alone

variable (m : Mesh)

theorem exchange_bytes_solo (bytes : Bytes) (tag : UInt16) : (Seat.solo.exchangeBytes [bytes] tag).run =
    .done (if bytes.length < UInt32.size then .ok [bytes] else refuse (.wire (.wideCount bytes.length))) := by
  have ranks : Seat.solo.ranks = 1 := rfl
  have rank : Seat.solo.rank = 0 := rfl
  have silent : Seat.solo.silent = true := rfl
  have peers : Seat.solo.peers = [] := rfl
  by_cases light : bytes.length < UInt32.size
  · have none : Seat.firstWide [bytes.length] = none := by simp [Seat.firstWide, light]
    simp only [Seat.exchangeBytes, Seat.exchangeCounts, List.map_cons, List.map_nil, if_pos light, none, ranks, rank, silent, peers]
    rfl
  · have wide : Seat.firstWide [bytes.length] = some bytes.length := by simp [Seat.firstWide, not_lt.mp light]
    simp only [Seat.exchangeBytes, Seat.exchangeCounts, List.map_cons, List.map_nil, if_neg light, wide, ranks, rank, silent, peers]
    rfl

theorem shipping_alone (p : Shipment) (target : Mesh) : ∃ received, Guarded received ∧
    ((shipping Seat.solo p m).outcome target).alone = Work.atOnce target (received >>= p.unload 1 m target.name) := by
  obtain ⟨bytes, single⟩ := List.length_eq_one_iff.mp (p.outgoing_length 1 m)
  have ranks : Seat.solo.ranks = 1 := rfl
  refine ⟨if bytes.length < UInt32.size then .ok [bytes] else refuse (.wire (.wideCount bytes.length)), ?_, ?_⟩
  · split
    · exact guarded_ok _
    · exact guarded_refuse _
  · rw [shipping_outcome, ranks, single, exchange_bytes_solo]
    rfl

theorem unload_guarded (p : Shipment) (name : String) (received : Result (List Bytes)) (start : Guarded received) :
    Guarded (received >>= p.unload 1 m name) := by
  refine guarded_bind _ _ start fun messages _ => guarded_bind _ _ (p.messages_guarded 1 m) fun _ _ => ?_
  exact guarded_bind _ _ (Assembly.decode_all_guarded _ messages) fun _ _ => guarded_ok _

theorem unload_invalid (p : Shipment) (name : String) (received : Result (List Bytes)) (e : Failure) (invalid : m.check = .error e) :
    ∃ reason, (received >>= p.unload 1 m name) = .error reason := by
  obtain ⟨reason, refused⟩ := p.messages_invalid 1 m e invalid
  cases received with
  | error e => exact ⟨e, rfl⟩
  | ok messages => exact ⟨reason, by simp only [bind, Except.bind, Shipment.unload, refused]⟩

open Selection

theorem select_alone (name : String) (selection index : List UInt64) :
    (select Seat.solo name selection index m).alone.mesh =
      Selection.check selection index 1 >>= fun _ => pick name selection index m := by
  rw [select_silent Seat.solo _ _ _ _ rfl]
  rfl

theorem selection_check_guarded (selection index : List UInt64) (ranks : Nat) : Guarded (Selection.check selection index ranks) := by
  unfold Selection.check
  dsimp only
  split
  · exact guarded_bind _ _ (guarded_refuse _) nofun
  split
  · exact guarded_bind _ _ (guarded_refuse _) nofun
  split
  · exact guarded_refuse _
  · exact guarded_ok _

theorem pick_careful (name : String) (selection index : List UInt64) (length : index.length = 2) :
    m.Careful (pick name selection index m) := by
  have low := List.getElem?_eq_getElem (l := index) (i := 0) (by omega)
  have high := List.getElem?_eq_getElem (l := index) (i := 1) (by omega)
  refine Mesh.careful_bind m _ fun valid => guarded_bind _ _ m.check_guarded fun _ _ => ?_
  refine guarded_bind _ _ ?served fun faces served => guarded_bind _ _ ?read fun _ _ => guarded_ok _
  case served =>
    refine guarded_bind _ _ (guarded_fetch index 0 (by omega)) fun _ _ => ?_
    refine guarded_bind _ _ (guarded_fetch index 1 (by omega)) fun _ _ => guarded_map_m _ _ fun gnum _ => ?_
    dsimp only
    split
    · exact guarded_ok _
    · exact guarded_refuse _
  case read =>
    have serves := (serve_ok_iff 0 0 selection index m _ _ low high faces).mp served
    refine guarded_fold_m _ _ (fun a f member => ?_) Assembly.empty
    obtain ⟨k, bound, rfl⟩ := List.getElem_of_mem member
    obtain ⟨_, _, _, _, _, _, _, inside⟩ := serves.get (serves.length_eq ▸ bound) bound
    obtain ⟨refs, records, gnum, face, known, number⟩ := m.face_parts valid _ inside
    refine guarded_bind _ _ (number ▸ guarded_ok gnum) fun _ _ => guarded_bind _ _ (face ▸ guarded_ok refs) fun row same => ?_
    obtain rfl := Except.ok.inj (face.symm.trans same)
    exact guarded_bind _ _ (known ▸ guarded_ok records) fun _ _ => guarded_ok _

theorem select_guarded (name : String) (selection index : List UInt64) :
    Guarded (select Seat.solo name selection index m).alone.mesh := by
  rw [select_alone]
  refine guarded_bind _ _ (selection_check_guarded _ _ _) fun _ ok => ?_
  exact (pick_careful m name selection index ((check_ok_iff _ _ _).mp ok).1).guarded

theorem select_invalid (name : String) (selection index : List UInt64) (e : Failure) (invalid : m.check = .error e) :
    ∃ reason, (select Seat.solo name selection index m).alone.mesh = .error reason := by
  rw [select_alone]
  cases checked : Selection.check selection index 1 with
  | error reason => exact ⟨reason, rfl⟩
  | ok _ => exact ⟨e, (pick_careful m name selection index ((check_ok_iff _ _ _).mp checked).1).refused e invalid⟩

end Alone

-- What can be done to a mesh, with all else that is given. A shipment reads the mesh and works on `target`.
inductive Operation where
  | edges
  | compact
  | collapse
  | canonical
  | merge (s : EdgeSet) (p : Mesh.Plan)
  | subset (name : String) (selection : List Nat)
  | ship (p : Shipment) (target : Mesh)
  | select (name : String) (selection index : List UInt64)

namespace Operation

def edited {α : Type} (edit : Edit Mesh α) (m : Mesh) : Result Unit × Mesh := ((edit.result m).map fun _ => (), edit.left m)

def perform : Operation → Mesh → Result Unit × Mesh
  | .edges, m => ((EdgeSet.ofMesh m).map fun _ => (), m)
  | .compact, m => edited Mesh.compacting m
  | .collapse, m => edited Mesh.collapsing m
  | .canonical, m => edited Mesh.arranging m
  | .merge s p, m => edited (Mesh.merging s p) m
  | .subset name selection, m => ((Mesh.subset name selection m).map fun _ => (), m)
  | .ship p target, m => ((shipping Seat.solo p m).outcome target).alone
  | .select name selection index, m => ((Seam.select Seat.solo name selection index m).alone.mesh.map fun _ => (), m)

def subject : Operation → Mesh → Mesh
  | .ship _ target, _ => target
  | _, m => m

def ChecksFirst : Operation → Prop
  | .ship .. | .select .. => False
  | _ => True

-- The edges are those of a mesh, though perhaps of another one, and a word can count them.
def Prepared : Operation → Prop
  | .merge s _ => s.edgeCount < UInt64.size ∧ ∃ other, EdgeSet.ofMesh other = .ok s
  | _ => True

theorem edited_careful {α β : Type} (edit : Edit Mesh α) (m : Mesh) (f : Mesh × α → β) (careful : m.Careful ((edit.outcome m).map f)) :
    m.Careful (edited edit m).1 := by
  have same : (edited edit m).1 = ((edit.outcome m).map f).map fun _ => () := by
    rw [edited, Edit.outcome]
    cases edit.result m <;> rfl
  exact same ▸ m.careful_map _ _ careful

theorem perform_careful (op : Operation) (prepared : op.Prepared) (first : op.ChecksFirst) (m : Mesh) :
    m.Careful (op.perform m).1 := by
  cases op with
  | edges => exact m.careful_map _ _ m.edges_careful
  | compact => exact edited_careful _ m id (m.careful_map id _ m.compact_careful)
  | collapse => exact edited_careful _ m id (m.careful_map id _ m.collapse_careful)
  | canonical => exact edited_careful _ m id (m.careful_map id _ m.canonical_careful)
  | merge s p =>
      obtain ⟨small, other, found⟩ := prepared
      exact edited_careful _ m Prod.fst (m.merge_careful p s other found small)
  | subset name selection => exact m.careful_map _ _ (m.subset_careful name selection)
  | ship => exact first.elim
  | select => exact first.elim

theorem perform_guarded (op : Operation) (prepared : op.Prepared) (m : Mesh) : Guarded (op.perform m).1 := by
  cases op with
  | ship p target =>
      obtain ⟨received, start, same⟩ := shipping_alone m p target
      rw [perform, same]
      exact Work.at_once_guarded target _ (unload_guarded m p target.name received start)
  | select name selection index => exact guarded_map _ _ (select_guarded m name selection index)
  | _ => exact (perform_careful _ prepared trivial m).guarded

theorem perform_invalid (op : Operation) (prepared : op.Prepared) (m : Mesh) (e : Failure) (invalid : m.check = .error e) :
    ∃ reason, (op.perform m).1 = .error reason := by
  cases op with
  | ship p target =>
      obtain ⟨received, _, same⟩ := shipping_alone m p target
      obtain ⟨reason, fails⟩ := unload_invalid m p target.name received e invalid
      exact ⟨reason, by rw [perform, same, fails, Work.atOnce]⟩
  | select name selection index =>
      obtain ⟨reason, fails⟩ := select_invalid m name selection index e invalid
      exact ⟨reason, by rw [perform, fails, Except.map]⟩
  | _ => exact ⟨e, (perform_careful _ prepared trivial m).refused e invalid⟩

theorem edited_failed {α : Type} (edit : Edit Mesh α) (m : Mesh) (atomic : edit.Atomic m) (e : Failure)
    (fails : (edited edit m).1 = .error e) : (edited edit m).2 = m := by
  cases result : edit.result m with
  | error cause => exact atomic cause result
  | ok value =>
      rw [edited, result] at fails
      cases fails

theorem perform_failed (op : Operation) (m : Mesh) (e : Failure) (fails : (op.perform m).1 = .error e) :
    (op.perform m).2 = op.subject m := by
  cases op with
  | compact => exact edited_failed _ m m.compacting_atomic e fails
  | collapse => exact edited_failed _ m m.collapsing_atomic e fails
  | canonical => exact edited_failed _ m m.arranging_atomic e fails
  | merge s p => exact edited_failed _ m (Mesh.merging_atomic m s p) e fails
  | ship p target =>
      obtain ⟨received, _, same⟩ := shipping_alone m p target
      rw [perform, same] at fails ⊢
      exact Work.at_once_failed target _ e fails
  | edges | subset | select => rfl

theorem malformed_meshes_refused (op : Operation) (prepared : op.Prepared) (m : Mesh) :
    (op.perform m).1 ≠ .error .outOfBounds ∧
      (∀ e, m.check = .error e →
        (op.ChecksFirst → (op.perform m).1 = .error e) ∧ ∃ reason, (op.perform m).1 = .error reason) ∧
      ∀ e, (op.perform m).1 = .error e → (op.perform m).2 = op.subject m := by
  refine ⟨perform_guarded op prepared m, fun e invalid => ⟨fun first => ?_, perform_invalid op prepared m e invalid⟩,
    perform_failed op m⟩
  exact (perform_careful op prepared first m).refused e invalid

def triangle : Mesh :=
  { Mesh.empty "triangle" with
    faceGnums := [1], faceIndex := [0, 3], faceRefs := [0, 1, 2]
    vertices := [⟨7, ⟨0⟩, ⟨⟨0⟩, ⟨0⟩, ⟨0⟩⟩⟩, ⟨8, ⟨0⟩, ⟨⟨0⟩, ⟨0⟩, ⟨0⟩⟩⟩, ⟨9, ⟨0⟩, ⟨⟨0⟩, ⟨0⟩, ⟨0⟩⟩⟩] }

theorem torn_triangle_not_merged : ∃ s, EdgeSet.ofMesh triangle = .ok s ∧
    let torn := { triangle with faceIndex := [0, 5] }
    let op : Operation := .merge s ⟨4, [0, 1, 2], some (.ofRows [[3], [], []]), none⟩
    op.Prepared ∧ ∃ e, torn.check = .error e ∧ op.perform torn = (.error e, torn) := by
  refine ⟨_, rfl, ⟨by decide, triangle, rfl⟩, ?_⟩
  have refused := malformed_meshes_refused (.merge _ ⟨4, [0, 1, 2], some (.ofRows [[3], [], []]), none⟩)
    ⟨by decide, triangle, rfl⟩ { triangle with faceIndex := [0, 5] }
  have fails := (refused.2.1 _ rfl).1 trivial
  exact ⟨_, rfl, Prod.ext fails (refused.2.2 _ fails)⟩

end Operation

end Seam
