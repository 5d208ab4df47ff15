import Seam.Assembly
import Seam.Proofs.Wire.FaceMessages

set_option autoImplicit false

namespace Seam

def facetBody (item : Facet) : Bytes := Wire.face.encode (item.1, item.2.length) ++ Wire.write Wire.vertex item.2

def facetMessage (items : List Facet) : Bytes :=
  Wire.header.encode (Wire.version, Wire.facesKind) ++ Wire.count.encode items.length ++ items.flatMap facetBody

def facetMessageSize (items : List Facet) : Nat := 12 + (items.map fun item => 16 + 40 * item.2.length).sum

theorem facet_message_length (items : List Facet) : (facetMessage items).length = facetMessageSize items := by
  have body : ∀ item, (facetBody item).length = 16 + 40 * item.2.length := fun item => by
    rw [facetBody, List.length_append, Wire.face_faithful.length, Wire.write_length _ _ Wire.vertex_faithful, Nat.mul_comm]
    rfl
  rw [facetMessage, List.length_append, List.length_append, Wire.header_faithful.length, Wire.count_faithful.length,
    List.length_flatMap, funext body]
  rfl

structure Tellable (items : List Facet) : Prop where
  count : items.length < UInt32.size
  sizes : ∀ item ∈ items, item.2.length < UInt32.size

theorem sizes_below_total (items : List Facet) :
    16 * items.length ≤ (items.map fun item => 16 + 40 * item.2.length).sum ∧
      ∀ item ∈ items, item.2.length ≤ (items.map fun item => 16 + 40 * item.2.length).sum := by
  induction items with
  | nil => simp
  | cons item items ih =>
      obtain ⟨count, sizes⟩ := ih
      simp only [List.length_cons, List.map_cons, List.sum_cons, List.forall_mem_cons]
      exact ⟨by omega, by omega, fun other member => Nat.le_add_left_of_le (sizes other member)⟩

theorem tellable_of_size (items : List Facet) (light : facetMessageSize items < UInt32.size) : Tellable items := by
  obtain ⟨count, sizes⟩ := sizes_below_total items
  rw [facetMessageSize] at light
  exact ⟨by omega, fun item member => by have size := sizes item member; omega⟩

def Segment.told (item : Facet) (narrow : item.2.length < UInt32.size) : Segment where
  gnum := item.1
  size := item.2.length
  spare := Wire.littleEndian 4 0
  body := Wire.write Wire.vertex item.2
  narrow := narrow
  spareLength := Wire.little_endian_length 4 0
  bodyLength := (Wire.write_length _ _ Wire.vertex_faithful item.2).trans (Nat.mul_comm _ 40)

theorem told_facet (item : Facet) (narrow : item.2.length < UInt32.size) : (Segment.told item narrow).facet = item := by
  have records := Wire.decode_chunks Wire.vertex _ Wire.vertex_faithful item.2 (fun _ _ => trivial) []
  rw [List.append_nil] at records
  exact Prod.ext rfl records

theorem told_row (items : List Facet) (sizes : ∀ item ∈ items, item.2.length < UInt32.size) :
    ∃ segments, Segment.row segments = items.flatMap facetBody ∧ segments.map Segment.facet = items := by
  induction items with
  | nil => exact ⟨[], rfl, rfl⟩
  | cons item items ih =>
      have narrow := sizes item (by simp)
      obtain ⟨segments, bytes, facets⟩ := ih fun other member => sizes other (by simp [member])
      refine ⟨Segment.told item narrow :: segments, ?_, ?_⟩
      · rw [List.flatMap_cons, ← bytes]
        rfl
      · rw [List.map_cons, told_facet, facets]

theorem told_message (items : List Facet) (tellable : Tellable items) :
    ∃ message : FaceMessage, message.bytes = facetMessage items ∧ message.segments.map Segment.facet = items := by
  obtain ⟨segments, bytes, facets⟩ := told_row items tellable.sizes
  have count : segments.length = items.length := by rw [← facets, List.length_map]
  let message : FaceMessage := ⟨Wire.littleEndian 4 0, segments, Wire.little_endian_length 4 0, count ▸ tellable.count⟩
  have written : message.bytes =
      Wire.header.encode (Wire.version, Wire.facesKind) ++ (Wire.count.encode segments.length ++ Segment.row segments) := rfl
  refine ⟨message, ?_, facets⟩
  rw [written, facetMessage, bytes, count, List.append_assoc]

section Encoding

variable (m : Mesh)

theorem facet_body_ok_iff (f : Nat) (bytes : Bytes) :
    (do
      let refs ← m.face f
      let gnum ← fetch m.faceGnums f
      let size ← Wire.narrow refs.length
      return Wire.face.encode (gnum, size) ++ Wire.write Wire.vertex (← m.records refs) : Result Bytes) = .ok bytes ↔
    ∃ item, m.facet f = .ok item ∧ item.2.length < UInt32.size ∧ bytes = facetBody item := by
  cases face : m.face f with
  | error e => simp [Mesh.facet, face, bind, Except.bind]
  | ok refs =>
      cases number : fetch m.faceGnums f with
      | error e => simp [Mesh.facet, face, number, bind, Except.bind]
      | ok gnum =>
          cases found : m.records refs with
          | error e =>
              simp only [Mesh.facet, face, number, found, bind, Except.bind]
              cases Wire.narrow refs.length <;> simp
          | ok records =>
              have length : records.length = refs.length := map_m_length _ _ _ found
              by_cases narrow : refs.length < UInt32.size
              · simp [Mesh.facet, face, number, found, Wire.narrow, narrow, length, facetBody, bind, Except.bind, pure,
                  Except.pure, eq_comm]
              · simp [Mesh.facet, face, number, found, Wire.narrow, narrow, length, refuse, bind, Except.bind, pure, Except.pure]

theorem facet_bodies_ok_iff (faces : List Nat) (bodies : List Bytes) :
    (faces.mapM fun f => do
      let refs ← m.face f
      let gnum ← fetch m.faceGnums f
      let size ← Wire.narrow refs.length
      return Wire.face.encode (gnum, size) ++ Wire.write Wire.vertex (← m.records refs) : Result (List Bytes)) = .ok bodies ↔
    ∃ items, List.Forall₂ (fun f item => m.facet f = .ok item) faces items ∧
      (∀ item ∈ items, item.2.length < UInt32.size) ∧ bodies = items.map facetBody := by
  simp only [map_m_ok_iff, facet_body_ok_iff]
  constructor
  · intro each
    induction each with
    | nil => exact ⟨[], .nil, by simp, rfl⟩
    | cons head _ ih =>
        obtain ⟨item, found, narrow, rfl⟩ := head
        obtain ⟨items, others, sizes, rfl⟩ := ih
        exact ⟨item :: items, .cons found others, by simpa using ⟨narrow, fun a b => sizes (a, b)⟩, rfl⟩
  · rintro ⟨items, each, sizes, rfl⟩
    induction each with
    | nil => exact .nil
    | @cons f item _ _ found _ ih =>
        have others := ih fun other member => sizes other (by simp [member])
        exact .cons ⟨item, found, sizes item (by simp), rfl⟩ others

theorem encode_faces_ok_iff (faces : List Nat) (bytes : Bytes) : m.encodeFaces faces = .ok bytes ↔
    ∃ items, List.Forall₂ (fun f item => m.facet f = .ok item) faces items ∧ Tellable items ∧ bytes = facetMessage items := by
  have bodies := facet_bodies_ok_iff m faces
  constructor
  · intro ok
    by_cases count : faces.length < UInt32.size
    · simp only [Mesh.encodeFaces, Wire.narrow, if_pos count, bind, Except.bind] at ok bodies
      split at ok
      · cases ok
      rename_i encoded
      obtain ⟨items, each, sizes, rfl⟩ := (bodies _).mp encoded
      have length := each.length_eq
      refine ⟨items, each, ⟨length ▸ count, sizes⟩, ?_⟩
      simpa [pure, Except.pure, facetMessage, List.flatMap_def, length, eq_comm] using ok
    · simp [Mesh.encodeFaces, Wire.narrow, count, refuse, bind, Except.bind] at ok
  · rintro ⟨items, each, tellable, rfl⟩
    have length := each.length_eq
    have encoded := (bodies _).mpr ⟨items, each, tellable.sizes, rfl⟩
    have count : faces.length < UInt32.size := length ▸ tellable.count
    simp only [Mesh.encodeFaces, Wire.narrow, if_pos count, bind, Except.bind] at encoded ⊢
    rw [encoded]
    simp [pure, Except.pure, facetMessage, List.flatMap_def, length]

end Encoding

namespace Assembly

def addFacets (a : Assembly) (items : List Facet) : Assembly := items.foldl (fun a item => a.addFace item.1 item.2) a

theorem add_facets_append (a : Assembly) (items more : List Facet) :
    a.addFacets (items ++ more) = (a.addFacets items).addFacets more := List.foldl_append

theorem add_segments_facets (a : Assembly) (segments : List Segment) :
    a.addSegments segments = a.addFacets (segments.map Segment.facet) := by
  rw [addFacets, List.foldl_map]
  rfl

theorem decode_facet_message (a : Assembly) (items : List Facet) (tellable : Tellable items) :
    a.decode (facetMessage items) = (a.addFacets items, .ok ()) := by
  obtain ⟨message, written, facets⟩ := told_message items tellable
  rw [← written, decode_message, add_segments_facets, facets]

theorem add_facet_ok_iff (m : Mesh) (a b : Assembly) (f : Nat) :
    (do return a.addFace (← fetch m.faceGnums f) (← m.records (← m.face f)) : Result Assembly) = .ok b ↔
      ∃ item, m.facet f = .ok item ∧ b = a.addFace item.1 item.2 := by
  cases number : fetch m.faceGnums f with
  | error e => cases refs : m.face f <;> simp [Mesh.facet, number, refs, bind, Except.bind]
  | ok gnum =>
      cases refs : m.face f with
      | error e => simp [Mesh.facet, refs, bind, Except.bind]
      | ok row =>
          cases records : m.records row <;>
            simp [Mesh.facet, number, refs, records, bind, Except.bind, pure, Except.pure, eq_comm]

theorem fold_facets_ok_iff (m : Mesh) (faces : List Nat) (a b : Assembly) :
    (faces.foldlM (fun a f => do return a.addFace (← fetch m.faceGnums f) (← m.records (← m.face f))) a : Result Assembly) =
        .ok b ↔
      ∃ items, List.Forall₂ (fun f item => m.facet f = .ok item) faces items ∧ b = a.addFacets items := by
  induction faces generalizing a with
  | nil =>
      constructor
      · intro ok
        exact ⟨[], .nil, (Except.ok.inj ok).symm⟩
      · rintro ⟨items, each, rfl⟩
        cases each
        rfl
  | cons f faces ih =>
      have step := add_facet_ok_iff m a
      rw [List.foldlM_cons]
      cases first : (do return a.addFace (← fetch m.faceGnums f) (← m.records (← m.face f)) : Result Assembly) with
      | error e =>
          constructor
          · intro ok
            cases ok
          · rintro ⟨items, each, rfl⟩
            cases each with
            | cons head rest => cases first.symm.trans ((step _ f).mpr ⟨_, head, rfl⟩)
      | ok next =>
          obtain ⟨item, facet, rfl⟩ := (step next f).mp first
          refine (ih _).trans ⟨?_, ?_⟩
          · rintro ⟨items, each, rfl⟩
            exact ⟨item :: items, .cons facet each, rfl⟩
          · rintro ⟨items, each, rfl⟩
            cases each with
            | @cons _ other _ items head rest =>
                obtain rfl := Except.ok.inj (facet.symm.trans head)
                exact ⟨items, rest, rfl⟩

theorem tellable_of_rows (m : Mesh) (faces : List Nat) (items : List Facet)
    (each : List.Forall₂ (fun f item => m.facet f = .ok item) faces items) (count : faces.length < UInt32.size)
    (sizes : ∀ f ∈ faces, ∀ row, m.face f = .ok row → row.length < UInt32.size) : Tellable items where
  count := each.length_eq ▸ count
  sizes item member := by
    obtain ⟨i, bound, rfl⟩ := List.getElem_of_mem member
    have inside : i < faces.length := each.length_eq ▸ bound
    obtain ⟨row, face, length⟩ := m.facet_row faces[i] items[i] (each.get inside bound)
    exact length ▸ sizes faces[i] (List.getElem_mem inside) row face

theorem encoded_faces_added (m : Mesh) (faces : List Nat) (valid : m.check = .ok ()) (inside : ∀ f ∈ faces, f < m.faceCount)
    (count : faces.length < UInt32.size) (sizes : ∀ f ∈ faces, ∀ row, m.face f = .ok row → row.length < UInt32.size) :
    ∃ bytes, m.encodeFaces faces = .ok bytes ∧ ∀ a : Assembly, ∃ direct,
      faces.foldlM (fun a f => do return a.addFace (← fetch m.faceGnums f) (← m.records (← m.face f))) a = .ok direct ∧
      a.decode bytes = (direct, .ok ()) := by
  have each := m.facets_found valid faces inside
  have tellable := tellable_of_rows m faces _ each count sizes
  refine ⟨_, (encode_faces_ok_iff m faces _).mpr ⟨_, each, tellable, rfl⟩, fun a => ⟨_, ?_, decode_facet_message a _ tellable⟩⟩
  exact (fold_facets_ok_iff m faces a _).mpr ⟨_, each, rfl⟩

-- What can be read has the form of a message, and it has it in one way only; no message goes on where another one ends. What is taken
-- in are the faces of the message in order.
theorem face_messages_exact :
    (∀ (a : Assembly) (bytes : Bytes),
      (a.decode bytes).2 = .ok () ↔ bytes = [] ∨ ∃ message : FaceMessage, bytes = message.bytes) ∧
    (∀ a : Assembly, a.decode [] = (a, .ok ())) ∧
    (∀ (a : Assembly) (message : FaceMessage),
      a.decode message.bytes = (message.segments.foldl (fun a s => a.addFace s.gnum s.records) a, .ok ())) ∧
    (∀ (first second : FaceMessage) (rest : Bytes), first.bytes ++ rest = second.bytes → first = second ∧ rest = []) ∧
    ∀ (m : Mesh) (faces : List Nat), m.check = .ok () → (∀ f ∈ faces, f < m.faceCount) → faces.length < UInt32.size →
      (∀ f ∈ faces, ∀ row, m.face f = .ok row → row.length < UInt32.size) →
      ∃ bytes, m.encodeFaces faces = .ok bytes ∧ ∀ a : Assembly, ∃ direct,
        faces.foldlM (fun a f => do return a.addFace (← fetch m.faceGnums f) (← m.records (← m.face f))) a = .ok direct ∧
        a.decode bytes = (direct, .ok ()) :=
  ⟨decode_ok_iff, fun _ => rfl, decode_message, FaceMessage.bytes_inj, encoded_faces_added⟩

def streamer : Mesh :=
  { Mesh.empty "streamer" with
    faceGnums := [6, 2], faceIndex := [0, 3, 6], faceRefs := [0, 1, 2, 2, 1, 3]
    vertices := [⟨8, ⟨1⟩, ⟨⟨0⟩, ⟨0⟩, ⟨0⟩⟩⟩, ⟨9, ⟨1⟩, ⟨⟨1⟩, ⟨0⟩, ⟨0⟩⟩⟩, ⟨10, ⟨2⟩, ⟨⟨0⟩, ⟨1⟩, ⟨0⟩⟩⟩, ⟨8, ⟨0⟩, ⟨⟨0⟩, ⟨0⟩, ⟨0⟩⟩⟩] }

def scrawl : FaceMessage where
  spare := [1, 2, 3, 4]
  segments := [⟨6, 0, [5, 6, 7, 8], [], by decide, rfl, rfl⟩, ⟨2, 1, [9, 9, 9, 9], List.replicate 40 7, by decide, rfl, rfl⟩]
  spareLength := rfl
  narrow := by decide

theorem streamer_travels :
    (∃ bytes, streamer.encodeFaces [1, 0] = .ok bytes ∧ ∀ a : Assembly, ∃ direct,
      [1, 0].foldlM (fun a f => do return a.addFace (← fetch streamer.faceGnums f) (← streamer.records (← streamer.face f))) a =
        .ok direct ∧
      a.decode bytes = (direct, .ok ())) ∧
    (empty.decode scrawl.bytes).2 = .ok () ∧
    ∀ rest message, scrawl.bytes ++ rest = FaceMessage.bytes message → scrawl = message ∧ rest = [] := by
  obtain ⟨grammar, _, _, unique, added⟩ := face_messages_exact
  have triangles : ∀ f ∈ [1, 0], ∀ row, streamer.face f = .ok row → row.length < UInt32.size := by
    intro f member row face
    obtain rfl | rfl : f = 1 ∨ f = 0 := by simpa using member
    · obtain rfl : [2, 1, 3] = row := Except.ok.inj face
      decide
    · obtain rfl : [0, 1, 2] = row := Except.ok.inj face
      decide
  exact ⟨added streamer [1, 0] (by decide) (by decide) (by decide) triangles, (grammar empty scrawl.bytes).mpr (.inr ⟨scrawl, rfl⟩),
    fun rest message => unique scrawl message rest⟩

def Brings (bytes : Bytes) (items : List Facet) : Prop :=
  (bytes = [] ∧ items = []) ∨ (bytes = facetMessage items ∧ Tellable items)

theorem decode_brought (a : Assembly) (bytes : Bytes) (items : List Facet) (brings : Brings bytes items) :
    a.decode bytes = (a.addFacets items, .ok ()) := by
  rcases brings with ⟨rfl, rfl⟩ | ⟨rfl, tellable⟩
  · rfl
  · exact decode_facet_message a items tellable

theorem decode_all_brought (a : Assembly) (messages : List Bytes) (lists : List (List Facet))
    (each : List.Forall₂ Brings messages lists) : a.decodeAll messages = .ok (a.addFacets lists.flatten) := by
  induction each generalizing a with
  | nil => rfl
  | cons first _ ih =>
      simp only [decodeAll, decode_brought a _ _ first, List.flatten_cons, add_facets_append, bind, Except.bind]
      exact ih _

-- The numbers of the vertices, by position.
def gnums (a : Assembly) : List UInt64 := a.vertices.map Vertex.gnum

def Sound (a : Assembly) : Prop := ∀ gnum i, a.slots.lookup gnum = some i → a.gnums[i]? = some gnum

theorem combine_gnum (r : Reducer) (a b : Vertex) (same : a.gnum = b.gnum) : (r.combine a b).gnum = b.gnum := by
  cases r <;> simp only [Reducer.combine] <;> split <;> simp [same]

theorem gnums_modify (vertices : List Vertex) (i : Nat) (v : Vertex) (same : (vertices.map Vertex.gnum)[i]? = some v.gnum) :
    (vertices.modify i fun known => Reducer.least.combine known v).map Vertex.gnum = vertices.map Vertex.gnum := by
  refine List.ext_getElem? fun j => ?_
  rw [List.getElem?_map] at same
  simp only [List.getElem?_map, List.getElem?_modify]
  by_cases here : i = j
  · subst here
    cases found : vertices[i]? with
    | none => rfl
    | some known =>
        rw [found] at same
        have gnum : known.gnum = v.gnum := by simpa using same
        simp [combine_gnum .least known v gnum, gnum]
  · simp [here]

theorem add_vertex_spec (a : Assembly) (v : Vertex) (sound : a.Sound) :
    (a.addVertex v).1.Sound ∧ a.gnums <+: (a.addVertex v).1.gnums ∧
      (a.addVertex v).1.gnums[(a.addVertex v).2]? = some v.gnum := by
  cases slot : a.slots.lookup v.gnum with
  | some i =>
      have same := sound v.gnum i slot
      have kept : (a.addVertex v).1.gnums = a.gnums := by
        simp only [addVertex, slot]
        exact gnums_modify a.vertices i v same
      have place : (a.addVertex v).2 = i := by simp only [addVertex, slot]
      have slots : (a.addVertex v).1.slots = a.slots := by simp only [addVertex, slot, lessen]
      refine ⟨fun gnum j found => ?_, ?_, ?_⟩
      · rw [slots] at found
        rw [kept]
        exact sound gnum j found
      · simp [kept]
      · rw [kept, place]
        exact same
  | none =>
      have grown : (a.addVertex v).1.gnums = a.gnums ++ [v.gnum] := by simp [addVertex, slot, newVertex, gnums]
      have place : (a.addVertex v).2 = a.gnums.length := by simp [addVertex, slot, gnums]
      have slots : (a.addVertex v).1.slots = (v.gnum, a.gnums.length) :: a.slots := by
        simp [addVertex, slot, newVertex, gnums]
      refine ⟨fun gnum j found => ?_, ?_, ?_⟩
      · rw [slots, List.lookup_cons] at found
        rw [grown]
        by_cases new : gnum = v.gnum
        · obtain rfl : a.gnums.length = j := by simpa [new] using found
          simp [new]
        · have other : (gnum == v.gnum) = false := by simpa using new
          rw [other] at found
          have known := sound gnum j found
          rwa [List.getElem?_append_left (List.getElem?_eq_some_iff.mp known).1]
      · rw [grown]
        exact List.prefix_append _ _
      · simp [grown, place]

theorem add_reference_faces (a : Assembly) (v : Vertex) :
    (a.addReference v).faceRefs = a.faceRefs ++ [(a.addVertex v).2] ∧ (a.addReference v).faceIndex = a.faceIndex ∧
      (a.addReference v).faceGnums = a.faceGnums := by
  cases slot : a.slots.lookup v.gnum <;> simp [addReference, addVertex, slot, lessen, newVertex]

def Names (gnums : List UInt64) (row : List Nat) (numbers : List UInt64) : Prop :=
  List.Forall₂ (fun i number => gnums[i]? = some number) row numbers

theorem prefix_get (before after : List UInt64) (grown : before <+: after) (i : Nat) (number : UInt64)
    (found : before[i]? = some number) : after[i]? = some number := by
  obtain ⟨more, rfl⟩ := grown
  rwa [List.getElem?_append_left (List.getElem?_eq_some_iff.mp found).1]

theorem names_grow (before after : List UInt64) (row : List Nat) (numbers : List UInt64) (grown : before <+: after)
    (names : Names before row numbers) : Names after row numbers :=
  List.Forall₂.imp (fun i number found => prefix_get before after grown i number found) names

theorem add_references_spec (a : Assembly) (records : List Vertex) (sound : a.Sound) :
    ∃ row, (records.foldl addReference a).faceRefs = a.faceRefs ++ row ∧
      Names (records.foldl addReference a).gnums row (records.map Vertex.gnum) ∧
      (records.foldl addReference a).Sound ∧ a.gnums <+: (records.foldl addReference a).gnums ∧
      (records.foldl addReference a).faceIndex = a.faceIndex ∧ (records.foldl addReference a).faceGnums = a.faceGnums := by
  induction records generalizing a with
  | nil => exact ⟨[], by simp, .nil, sound, List.prefix_refl _, rfl, rfl⟩
  | cons v records ih =>
      obtain ⟨soundFirst, grownFirst, named⟩ := add_vertex_spec a v sound
      obtain ⟨refsFirst, indexFirst, numbersFirst⟩ := add_reference_faces a v
      obtain ⟨row, refs, names, soundRest, grownRest, indexRest, numbersRest⟩ := ih (a.addReference v) soundFirst
      have head := prefix_get _ _ grownRest _ _ named
      refine ⟨(a.addVertex v).2 :: row, ?_, .cons head names, soundRest, grownFirst.trans grownRest,
        indexRest.trans indexFirst, numbersRest.trans numbersFirst⟩
      rw [List.foldl_cons, refs, refsFirst, List.append_assoc, List.singleton_append]

def Lays (a : Assembly) (rows : List (List Nat)) : Prop := a.faceIndex = Ragged.index rows ∧ a.faceRefs = rows.flatten

theorem add_face_spec (a : Assembly) (item : Facet) (done : List (List Nat)) (sound : a.Sound) (lays : a.Lays done) :
    ∃ row, (a.addFace item.1 item.2).Lays (done ++ [row]) ∧
      Names (a.addFace item.1 item.2).gnums row (item.2.map Vertex.gnum) ∧
      (a.addFace item.1 item.2).Sound ∧ a.gnums <+: (a.addFace item.1 item.2).gnums ∧
      (a.addFace item.1 item.2).faceGnums = a.faceGnums ++ [item.1] := by
  obtain ⟨row, refs, names, soundAfter, grown, index, numbers⟩ := add_references_spec a item.2 sound
  obtain ⟨indexBefore, refsBefore⟩ := lays
  refine ⟨row, ⟨?_, ?_⟩, names, soundAfter, grown, ?_⟩
  · have closed := Ragged.boundaries_snoc 0 done row
    rw [Nat.zero_add, List.flatten_append, List.flatten_singleton, ← refsBefore, ← refs] at closed
    rw [Ragged.index, closed, addFace, endFace, index, indexBefore, Ragged.index]
  · rw [List.flatten_append, List.flatten_singleton, ← refsBefore, ← refs]
    rfl
  · rw [addFace, endFace, numbers]

theorem add_facets_spec (a : Assembly) (items : List Facet) (done : List (List Nat)) (sound : a.Sound) (lays : a.Lays done) :
    ∃ rows, (a.addFacets items).Lays (done ++ rows) ∧
      List.Forall₂ (fun row item => Names (a.addFacets items).gnums row (item.2.map Vertex.gnum)) rows items ∧
      a.gnums <+: (a.addFacets items).gnums ∧ (a.addFacets items).faceGnums = a.faceGnums ++ items.map Prod.fst := by
  induction items generalizing a done with
  | nil => exact ⟨[], by simpa [addFacets] using lays, .nil, List.prefix_refl _, by simp [addFacets]⟩
  | cons item items ih =>
      obtain ⟨row, laysFirst, names, soundFirst, grownFirst, numbersFirst⟩ := add_face_spec a item done sound lays
      obtain ⟨rows, laysRest, named, grownRest, numbersRest⟩ := ih (a.addFace item.1 item.2) (done ++ [row]) soundFirst laysFirst
      refine ⟨row :: rows, ?_, .cons (names_grow _ _ _ _ grownRest names) named, grownFirst.trans grownRest, ?_⟩
      · rw [List.append_cons]
        exact laysRest
      · rw [List.map_cons, List.append_cons, ← numbersFirst]
        exact numbersRest

theorem empty_sound : empty.Sound := fun _ _ found => by cases found

theorem empty_lays : empty.Lays [] := ⟨rfl, rfl⟩

theorem assembled_rows (items : List Facet) :
    ∃ rows, (empty.addFacets items).Lays rows ∧
      List.Forall₂ (fun row item => Names (empty.addFacets items).gnums row (item.2.map Vertex.gnum)) rows items := by
  obtain ⟨rows, lays, named, _, _⟩ := add_facets_spec empty items [] empty_sound empty_lays
  exact ⟨rows, lays, named⟩

theorem assembled_names (items : List Facet) (name : String) : ((empty.addFacets items).mesh name).faceGnums = items.map Prod.fst := by
  obtain ⟨_, _, _, _, numbers⟩ := add_facets_spec empty items [] empty_sound empty_lays
  exact numbers

theorem records_named (m : Mesh) (row : List Nat) (numbers : List UInt64)
    (names : Names (m.vertices.map Vertex.gnum) row numbers) :
    ∃ records, m.records row = .ok records ∧ records.map Vertex.gnum = numbers := by
  induction names with
  | nil => exact ⟨[], rfl, rfl⟩
  | @cons v number row numbers head _ ih =>
      obtain ⟨records, read, same⟩ := ih
      obtain ⟨record, found, rfl⟩ : ∃ record, m.vertices[v]? = some record ∧ record.gnum = number := by simpa using head
      have fetched := (fetch_eq_ok_iff m.vertices v record).mpr found
      refine ⟨record :: records, ?_, by simp [same]⟩
      rw [Mesh.records] at read ⊢
      rw [map_m_cons, fetched, read]
      rfl

theorem assembled_face (items : List Facet) (name : String) (k : Nat) (item : Facet) (found : items[k]? = some item) :
    ((empty.addFacets items).mesh name).faceVertexGnums k = .ok (item.2.map Vertex.gnum) := by
  obtain ⟨rows, ⟨index, refs⟩, named⟩ := assembled_rows items
  have bound : k < rows.length := named.length_eq ▸ (List.getElem?_eq_some_iff.mp found).1
  have names : Names (empty.addFacets items).gnums rows[k] (item.2.map Vertex.gnum) := by
    obtain ⟨boundItem, rfl⟩ := List.getElem?_eq_some_iff.mp found
    exact List.Forall₂.get named bound boundItem
  let m := (empty.addFacets items).mesh name
  have face : m.face k = .ok rows[k] := Mesh.face_laid m rows index refs k rows[k] (by simp)
  obtain ⟨records, read, numbers⟩ := records_named m rows[k] _ names
  simp only [Mesh.faceVertexGnums, m] at face read ⊢
  simp only [face, read, bind, Except.bind, pure, Except.pure, numbers]

end Assembly

end Seam
