import Mathlib.Data.Fin.VecNotation
import Mathlib.Tactic.FinCases
import Seam.Proofs.Group.Delivery
import Seam.Proofs.Group.Orderly
import Seam.Proofs.Merging

set_option autoImplicit false

namespace Seam

namespace Shipment

theorem check_fits (p : Shipment) (ranks : Nat) (m : Mesh) (ok : p.check ranks m = .ok ()) :
    Ragged.fits p.index ranks p.faces.length = true := by
  cases fit : Ragged.fits p.index ranks p.faces.length with
  | true => rfl
  | false =>
      by_cases length : p.index.length = ranks + 1
      · have shape := Ragged.shaped_eq p.index ranks p.faces.length length
        simp [check, length, shape, fit, refuse, bind, Except.bind] at ok
      · simp [check, length, refuse, bind, Except.bind] at ok

theorem rows_of_check (p : Shipment) (ranks : Nat) (m : Mesh) (ok : p.check ranks m = .ok ()) :
    ∃ rows, rows.length = ranks ∧ p = ofRows rows := by
  obtain ⟨rows, length, index, faces⟩ := Ragged.fits_rows p.index ranks p.faces (check_fits p ranks m ok)
  refine ⟨rows, length, ?_⟩
  cases p
  simp only at index faces
  rw [ofRows, index, faces]

def Carries (p : Shipment) (m : Mesh) (target : Nat) (items : List Facet) : Prop :=
  ∃ faces, Ragged.row p.index p.faces target = .ok faces ∧ List.Forall₂ (fun f item => m.facet f = .ok item) faces items

def load (p : Shipment) (m : Mesh) (target : Nat) : List Facet :=
  ((Ragged.row p.index p.faces target).toOption.getD []).filterMap fun f => (m.facet f).toOption

theorem load_carried (rows : List (List Nat)) (m : Mesh) (ok : (ofRows rows).check rows.length m = .ok ()) (target : Nat)
    (row : List Nat) (found : rows[target]? = some row) :
    Ragged.row (ofRows rows).index (ofRows rows).faces target = .ok row ∧
      List.Forall₂ (fun f item => m.facet f = .ok item) row ((ofRows rows).load m target) := by
  obtain ⟨inside, valid⟩ := (check_rows_ok_iff rows m).mp ok
  have slice : Ragged.row (ofRows rows).index (ofRows rows).faces target = .ok row := Ragged.row_index rows target row found
  refine ⟨slice, ?_⟩
  rw [load, slice]
  exact m.facets_found valid row (inside row (List.mem_of_getElem? found))

theorem carries_load (p : Shipment) (ranks : Nat) (m : Mesh) (ok : p.check ranks m = .ok ()) (target : Nat)
    (bound : target < ranks) : p.Carries m target (p.load m target) := by
  obtain ⟨rows, rfl, rfl⟩ := rows_of_check p ranks m ok
  exact ⟨_, load_carried rows m ok target rows[target] (by simp)⟩

theorem messages_load (p : Shipment) (ranks : Nat) (m : Mesh) (ok : p.check ranks m = .ok ())
    (light : ∀ target < ranks, facetMessageSize (p.load m target) < UInt32.size) :
    p.messages ranks m = .ok ((List.range ranks).map fun target => facetMessage (p.load m target)) := by
  obtain ⟨rows, rfl, rfl⟩ := rows_of_check p ranks m ok
  obtain ⟨inside, valid⟩ := (check_rows_ok_iff rows m).mp ok
  refine (messages_rows_ok_iff rows m _).mpr ⟨inside, valid, ?_⟩
  refine List.forall₂_iff_get.mpr ⟨by simp, fun target bound _ => ?_⟩
  obtain ⟨_, facets⟩ := load_carried rows m ok target rows[target] (by simp)
  simp only [List.get_eq_getElem, List.getElem_map, List.getElem_range]
  exact (encode_faces_ok_iff m _ _).mpr ⟨_, facets, tellable_of_size _ (light target bound), rfl⟩

theorem messages_refused (p : Shipment) (ranks : Nat) (m : Mesh) (e : Failure) (refused : p.check ranks m = .error e) :
    p.messages ranks m = .error e := by
  simp [messages, refused, bind, Except.bind]

end Shipment

namespace Shipping

section Group

variable {n : Nat} (plans : Fin n → Shipment) (meshes : Fin n → Mesh)

-- What `source` brings to `target`: nothing when its shipment is refused.
def cargo (source target : Fin n) : List Facet :=
  match (plans source).check n (meshes source) with
  | .ok _ => (plans source).load (meshes source) target
  | .error _ => []

def arrivals (target : Fin n) : List Facet := (List.ofFn fun source => cargo plans meshes source target).flatten

def Light : Prop := ∀ source target, facetMessageSize (cargo plans meshes source target) < UInt32.size

instance : Decidable (Light plans meshes) := inferInstanceAs (Decidable (∀ _ _, _ < _))

def outgoing (source target : Fin n) : Bytes := ((plans source).outgoing n (meshes source)).getD target []

def running (targets : Fin n → Mesh) (me : Fin n) : Program (Result Unit × Mesh) :=
  (shipping (Seat.member me) (plans me) (meshes me)).outcome (targets me)

theorem cargo_checked (source : Fin n) (ok : (plans source).check n (meshes source) = .ok ()) (target : Fin n) :
    cargo plans meshes source target = (plans source).load (meshes source) target := by
  simp [cargo, ok]

theorem cargo_refused (source : Fin n) (e : Failure) (refused : (plans source).check n (meshes source) = .error e)
    (target : Fin n) : cargo plans meshes source target = [] := by
  simp [cargo, refused]

variable (light : Light plans meshes)

include light

theorem messages_light (source : Fin n) (ok : (plans source).check n (meshes source) = .ok ()) :
    (plans source).messages n (meshes source) =
      .ok ((List.range n).map fun target => facetMessage ((plans source).load (meshes source) target)) := by
  refine Shipment.messages_load (plans source) n (meshes source) ok fun target bound => ?_
  have size := light source ⟨target, bound⟩
  rwa [cargo_checked plans meshes source ok] at size

theorem outgoing_brings (source target : Fin n) :
    Assembly.Brings (outgoing plans meshes source target) (cargo plans meshes source target) := by
  cases checked : (plans source).check n (meshes source) with
  | error e =>
      have refused := Shipment.messages_refused _ n _ e checked
      exact .inl ⟨by simp [outgoing, Shipment.outgoing, refused, Except.toOption], cargo_refused plans meshes source e checked target⟩
  | ok _ =>
      have size := light source target
      have loaded := cargo_checked plans meshes source checked target
      refine .inr ⟨?_, tellable_of_size _ size⟩
      simp [outgoing, Shipment.outgoing, messages_light plans meshes light source checked, Except.toOption, loaded]

theorem outgoing_light (source target : Fin n) : (outgoing plans meshes source target).length < UInt32.size := by
  rcases outgoing_brings plans meshes light source target with ⟨nothing, _⟩ | ⟨message, _⟩
  · rw [nothing]
    decide
  · rw [message, facet_message_length]
    exact light source target

theorem received_light (target : Fin n) : Group.exchanged (outgoing plans meshes) target =
    .ok (List.ofFn fun source => outgoing plans meshes source target) :=
  Group.exchanged_light _ target (outgoing_light plans meshes light)

variable (names : Fin n → String)

theorem shipped_refused (me : Fin n) (e : Failure) (refused : (plans me).check n (meshes me) = .error e) :
    shipped plans meshes names me = .error e := by
  have received := received_light plans meshes light me
  have messages := Shipment.messages_refused _ n _ e refused
  unfold outgoing at received
  simp only [shipped, received, Shipment.unload, messages, bind, Except.bind]

theorem shipped_checked (me : Fin n) (ok : (plans me).check n (meshes me) = .ok ()) :
    shipped plans meshes names me = .ok { (Assembly.empty.addFacets (arrivals plans meshes me)).mesh (names me) with
      globalFaces := (meshes me).globalFaces, globalVertices := (meshes me).globalVertices } := by
  have received := received_light plans meshes light me
  have messages := messages_light plans meshes light me ok
  have brought := Assembly.decode_all_brought Assembly.empty _ _
    (for_all_of_fn _ _ _ fun source => outgoing_brings plans meshes light source me)
  unfold outgoing at received brought
  simp only [shipped, received, Shipment.unload, messages, brought, bind, Except.bind]
  rfl

theorem ship_delivers_once (targets : Fin n → Mesh) :
    ∃ results : Fin n → Result Unit × Mesh, Network.Settles (running plans meshes targets) results ∧
      (∀ me e, (plans me).check n (meshes me) = .error e → results me = (.error e, targets me)) ∧
      (∀ me, (plans me).check n (meshes me) = .ok () → ∃ got,
        results me = (.ok (), got) ∧ got.name = (targets me).name ∧
        got.globalFaces = (meshes me).globalFaces ∧ got.globalVertices = (meshes me).globalVertices ∧
        got.check = .ok () ∧ got.Holds (arrivals plans meshes me)) ∧
      (∀ source, (plans source).check n (meshes source) = .ok () →
        ∀ target : Fin n, (plans source).Carries (meshes source) target (cargo plans meshes source target)) ∧
      ∀ source e, (plans source).check n (meshes source) = .error e → ∀ target, cargo plans meshes source target = [] := by
  let names (me : Fin n) := (targets me).name
  have orderly : ∀ me, (running plans meshes targets me).Orderly := fun me => shipping_orderly _ _ _ _
  have settles : Network.Settles (running plans meshes targets) fun me => Work.atOnce (targets me) (shipped plans meshes names me) :=
    Group.settles_of_lockstep _ _ orderly (shipping_lockstep plans meshes targets)
  refine ⟨_, settles, ?refused, ?delivered, ?carried, cargo_refused plans meshes⟩
  case refused =>
    intro me e refused
    rw [shipped_refused plans meshes light names me e refused]
    rfl
  case delivered =>
    intro me ok
    have got := shipped_checked plans meshes light names me ok
    obtain ⟨rows, laid, _⟩ := Assembly.assembled_laid (arrivals plans meshes me) (names me)
    have holds := Assembly.assembled_holds (arrivals plans meshes me) (names me)
    refine ⟨_, congrArg (Work.atOnce (targets me)) got, rfl, rfl, rfl, ?_, ?_⟩
    · exact (Mesh.check_ok_iff _).mpr ⟨rows, laid.count, laid.index, laid.refs, laid.inside⟩
    · exact ⟨holds.numbers, holds.faces, holds.distinct, holds.order, holds.least⟩
  case carried =>
    intro source ok target
    rw [cargo_checked plans meshes source ok target]
    exact Shipment.carries_load (plans source) n (meshes source) ok target target.isLt

end Group

def sliver (tolerance : UInt64) : Mesh :=
  { Mesh.empty "sliver" with
    globalFaces := 9, faceGnums := [4], faceIndex := [0, 3], faceRefs := [0, 1, 2]
    vertices := [⟨8, ⟨tolerance⟩, ⟨⟨0⟩, ⟨0⟩, ⟨0⟩⟩⟩, ⟨7, ⟨0⟩, ⟨⟨0⟩, ⟨0⟩, ⟨0⟩⟩⟩, ⟨8, ⟨1⟩, ⟨⟨0⟩, ⟨0⟩, ⟨0⟩⟩⟩] }

theorem slivers_ship_past_a_refusal :
    let plans : Fin 3 → Shipment := ![⟨[0, 1, 1, 2], [0, 0]⟩, ⟨[0], []⟩, ⟨[0, 2, 2, 2], [0, 0]⟩]
    let meshes : Fin 3 → Mesh := ![sliver 5, sliver 4, sliver 3]
    Light plans meshes ∧ ∃ results, Network.Settles (running plans meshes fun _ => Mesh.empty "got") results ∧
      (∃ e, results 1 = (.error e, Mesh.empty "got")) ∧
      ∃ got, results 0 = (.ok (), got) ∧ got.globalFaces = 9 ∧ got.faceGnums = [4, 4, 4] ∧ got.vertices.map Vertex.gnum = [8, 7] := by
  intro plans meshes
  have light : Light plans meshes := by decide
  obtain ⟨results, settles, refused, delivered, _⟩ := ship_delivers_once plans meshes light fun _ => Mesh.empty "got"
  refine ⟨light, results, settles, ⟨_, refused 1 _ (by rfl)⟩, ?_⟩
  obtain ⟨got, ok, _, globalFaces, _, _, holds⟩ := delivered 0 (by decide)
  refine ⟨got, ok, globalFaces, holds.numbers.trans (by decide), holds.order.trans (by decide)⟩

end Shipping

end Seam
