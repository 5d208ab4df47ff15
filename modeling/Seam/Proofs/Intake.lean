import Seam.Proofs.Merging

set_option autoImplicit false

namespace Seam

-- The bytes begin with these segments; what follows them is not wanted or begins with none.
structure Segment.Front (wanted : Nat) (bytes : Bytes) (segments : List Segment) (rest : Bytes) : Prop where
  split : bytes = Segment.row segments ++ rest
  within : segments.length ≤ wanted
  stuck : segments.length < wanted → ¬ ∃ (s : Segment) (more : Bytes), rest = s.bytes ++ more

theorem Segment.front_exists (wanted : Nat) (bytes : Bytes) : ∃ segments rest, Segment.Front wanted bytes segments rest := by
  induction wanted generalizing bytes with
  | zero => exact ⟨[], bytes, rfl, Nat.le_refl 0, fun less => absurd less (Nat.lt_irrefl 0)⟩
  | succ wanted ih =>
      by_cases readable : ∃ (s : Segment) (more : Bytes), bytes = s.bytes ++ more
      · obtain ⟨s, more, rfl⟩ := readable
        obtain ⟨segments, rest, front⟩ := ih more
        refine ⟨s :: segments, rest, ?_, Nat.succ_le_succ front.within, fun less => front.stuck (Nat.lt_of_succ_lt_succ less)⟩
        rw [front.split]
        exact (List.append_assoc _ _ _).symm
      · exact ⟨[], bytes, rfl, Nat.zero_le _, fun _ => readable⟩

def FaceMessage.Opens (bytes : Bytes) (count : Nat) (rest : Bytes) : Prop :=
  ∃ spare : Bytes, spare.length = 4 ∧ count < UInt32.size ∧
    bytes = Wire.littleEndian 2 1 ++ Wire.littleEndian 2 2 ++ spare ++ (Wire.littleEndian 4 count ++ rest)

inductive FaceMessage.Yields (bytes : Bytes) : List Facet → Prop where
  | nothing (unopened : ¬ ∃ count rest, Opens bytes count rest) : Yields bytes []
  | faces (count : Nat) (rest : Bytes) (opens : Opens bytes count rest) (segments : List Segment) (left : Bytes)
      (front : Segment.Front count rest segments left) : Yields bytes (segments.map Segment.facet)

theorem FaceMessage.yields_exists (bytes : Bytes) : ∃ items, Yields bytes items := by
  by_cases opened : ∃ count rest, Opens bytes count rest
  · obtain ⟨count, rest, opens⟩ := opened
    obtain ⟨segments, left, front⟩ := Segment.front_exists count rest
    exact ⟨_, .faces count rest opens segments left front⟩
  · exact ⟨[], .nothing opened⟩

theorem FaceMessage.opens_iff (bytes : Bytes) (count : Nat) (rest : Bytes) :
    (do
      let rest ← Wire.readHeader Wire.facesKind bytes
      Wire.readOne Wire.count rest : Result (Nat × Bytes)) = .ok (count, rest) ↔ Opens bytes count rest := by
  constructor
  · intro ok
    obtain ⟨afterHeader, headed, counted⟩ := bind_ok _ _ _ ok
    obtain ⟨spare, length, rfl⟩ := (Wire.read_header_iff Wire.facesKind _ _).mp headed
    obtain ⟨narrow, rfl⟩ := (Wire.read_count_iff count _ _).mp counted
    exact ⟨spare, length, narrow, rfl⟩
  · rintro ⟨spare, length, narrow, rfl⟩
    have headed := (Wire.read_header_iff Wire.facesKind _ (Wire.littleEndian 4 count ++ rest)).mpr ⟨spare, length, rfl⟩
    have counted := (Wire.read_count_iff count _ rest).mpr ⟨narrow, rfl⟩
    exact (congrArg (· >>= fun rest => Wire.readOne Wire.count rest) headed).trans counted

theorem FaceMessage.opens_ne_nil (bytes : Bytes) (count : Nat) (rest : Bytes) (opens : Opens bytes count rest) : bytes ≠ [] := by
  obtain ⟨spare, length, _, rfl⟩ := opens
  refine List.ne_nil_of_length_pos ?_
  simp only [List.length_append, length]
  omega

namespace Assembly

theorem read_faces_stuck (a : Assembly) (n : Nat) (bytes : Bytes)
    (stuck : ¬ ∃ (s : Segment) (more : Bytes), bytes = s.bytes ++ more) : (a.readFaces (n + 1) bytes).1 = a := by
  rw [readFaces]
  split
  · rfl
  · rename_i gnum records rest step
    obtain ⟨⟨⟨number, size⟩, afterFace⟩, head, step⟩ := bind_ok _ _ _ step
    obtain ⟨⟨found, afterRecords⟩, body, step⟩ := bind_ok _ _ _ step
    obtain ⟨s, split⟩ := Segment.of_read number size found bytes afterFace afterRecords head body
    exact absurd ⟨s, _, split⟩ stuck

theorem read_faces_front (a : Assembly) (n : Nat) (bytes rest : Bytes) (segments : List Segment)
    (front : Segment.Front n bytes segments rest) : (a.readFaces n bytes).1 = a.addSegments segments := by
  induction segments generalizing a n bytes with
  | nil =>
      obtain rfl : bytes = rest := front.split
      cases n with
      | zero => rfl
      | succ n => exact read_faces_stuck a n bytes (front.stuck (Nat.succ_pos n))
  | cons s segments ih =>
      cases n with
      | zero => cases front.within
      | succ n =>
          have split := front.split
          rw [Segment.row, List.flatMap_cons, List.append_assoc] at split
          rw [split, read_faces_segment]
          exact ih _ n _ ⟨rfl, Nat.le_of_succ_le_succ front.within, fun less => front.stuck (Nat.succ_lt_succ less)⟩

theorem decode_yields (a : Assembly) (bytes : Bytes) (items : List Facet) (yields : FaceMessage.Yields bytes items) :
    (a.decode bytes).1 = a.addFacets items := by
  rw [decode]
  cases yields with
  | nothing unopened =>
      split
      · rfl
      split
      · rfl
      · rename_i count rest opened
        exact absurd ⟨count, rest, (FaceMessage.opens_iff bytes count rest).mp opened⟩ unopened
  | faces count rest opens segments left front =>
      rw [if_neg (FaceMessage.opens_ne_nil bytes count rest opens), (FaceMessage.opens_iff bytes count rest).mpr opens]
      exact (read_faces_front a count rest left segments front).trans (add_segments_facets a segments)

theorem decode_facets (a : Assembly) (bytes : Bytes) : ∃ items, (a.decode bytes).1 = a.addFacets items := by
  obtain ⟨items, yields⟩ := FaceMessage.yields_exists bytes
  exact ⟨items, decode_yields a bytes items yields⟩

inductive Input where
  | face (gnum : UInt64) (records : List Vertex)
  | message (bytes : Bytes)

-- What it has then. After a failure this is what the message has left behind.
def take (a : Assembly) : Input → Assembly
  | .face gnum records => a.addFace gnum records
  | .message bytes => (a.decode bytes).1

def Input.Feeds : Input → List Facet → Prop
  | .face gnum records, items => items = [(gnum, records)]
  | .message bytes, items => FaceMessage.Yields bytes items

theorem Input.feeds_exists (inputs : List Input) : ∃ lists, List.Forall₂ Feeds inputs lists := by
  induction inputs with
  | nil => exact ⟨[], .nil⟩
  | cons input inputs ih =>
      obtain ⟨lists, rest⟩ := ih
      cases input with
      | face gnum records => exact ⟨[(gnum, records)] :: lists, .cons rfl rest⟩
      | message bytes =>
          obtain ⟨items, yields⟩ := FaceMessage.yields_exists bytes
          exact ⟨items :: lists, .cons yields rest⟩

theorem take_feeds (a : Assembly) (input : Input) (items : List Facet) (feeds : input.Feeds items) : a.take input = a.addFacets items := by
  cases input with
  | face gnum records =>
      obtain rfl : items = [(gnum, records)] := feeds
      rfl
  | message bytes => exact decode_yields a bytes items feeds

theorem taken_facets (a : Assembly) (inputs : List Input) (lists : List (List Facet)) (each : List.Forall₂ Input.Feeds inputs lists) :
    inputs.foldl take a = a.addFacets lists.flatten := by
  induction each generalizing a with
  | nil => rfl
  | @cons input items inputs lists feeds _ ih =>
      rw [List.foldl_cons, take_feeds a input items feeds, ih, List.flatten_cons, add_facets_append]

structure Merges (a : Assembly) (items : List Facet) : Prop where
  valid : ∀ name, (a.mesh name).check = .ok ()
  distinct : (a.vertices.map Vertex.gnum).Nodup
  slots : ∀ gnum i, a.slots.lookup gnum = some i ↔ (a.vertices.map Vertex.gnum)[i]? = some gnum
  least : ∀ v ∈ a.vertices, LeastCopy (items.flatMap Prod.snd) v
  order : a.vertices.map Vertex.gnum = ((items.flatMap Prod.snd).map Vertex.gnum).eraseDups
  numbers : a.faceGnums = items.map Prod.fst
  faces : ∃ rows, a.faceIndex = Ragged.index rows ∧ a.faceRefs = rows.flatten ∧
    List.Forall₂ (fun row item => Names (a.vertices.map Vertex.gnum) row (item.2.map Vertex.gnum)) rows items

theorem merges_facets (items : List Facet) : (empty.addFacets items).Merges items := by
  have tracks := add_facets_tracks empty [] items empty_tracks
  rw [List.nil_append] at tracks
  obtain ⟨rows, ⟨index, refs⟩, named⟩ := assembled_rows items
  exact ⟨assembled_check items, tracks_distinct _ _ tracks, tracks.slots, tracks.least, tracks.numbers, assembled_names items "",
    rows, index, refs, named⟩

-- Faces and messages can come in any order, and some of the messages can fail. The assembly holds the faces that they have fed to it.
theorem inputs_merged (inputs : List Input) :
    (∃ lists, List.Forall₂ Input.Feeds inputs lists) ∧
    ∀ lists, List.Forall₂ Input.Feeds inputs lists → (inputs.foldl take empty).Merges lists.flatten := by
  refine ⟨Input.feeds_exists inputs, fun lists each => ?_⟩
  rw [taken_facets empty inputs lists each]
  exact merges_facets lists.flatten

def torn : Bytes :=
  Wire.littleEndian 2 1 ++ Wire.littleEndian 2 2 ++ [0, 0, 0, 0] ++
    (Wire.littleEndian 4 2 ++ ((Segment.told (9, [Reducer.seventh 0]) (by decide)).bytes ++ [9, 0]))

theorem torn_yields : FaceMessage.Yields torn [(9, [Reducer.seventh 0])] := by
  have stuck : ¬ ∃ (s : Segment) (more : Bytes), [9, 0] = s.bytes ++ more := by
    rintro ⟨s, more, split⟩
    have length := congrArg List.length split
    simp only [Segment.bytes, List.length_append, Wire.word_length, List.length_cons, List.length_nil] at length
    omega
  have front : Segment.Front 2 _ [Segment.told (9, [Reducer.seventh 0]) (by decide)] [9, 0] := ⟨rfl, by decide, fun _ => stuck⟩
  have yields : FaceMessage.Yields torn _ := .faces 2 _ ⟨[0, 0, 0, 0], rfl, by decide, rfl⟩ _ _ front
  rwa [List.map_singleton, told_facet] at yields

def damaged : List Input := [.face 5 [Reducer.seventh 1], .message torn, .message [1, 2, 3]]

theorem damaged_feeds : List.Forall₂ Input.Feeds damaged [[(5, [Reducer.seventh 1])], [(9, [Reducer.seventh 0])], []] := by
  have unopened : ¬ ∃ count rest, FaceMessage.Opens [1, 2, 3] count rest := by
    rintro ⟨count, rest, spare, length, _, split⟩
    have longer := congrArg List.length split
    simp only [List.length_append, Wire.little_endian_length, List.length_cons, List.length_nil] at longer
    omega
  exact .cons rfl (.cons torn_yields (.cons (.nothing unopened) .nil))

theorem damaged_merged :
    (empty.decode torn).2 ≠ .ok () ∧
    List.Forall₂ Input.Feeds damaged [[(5, [Reducer.seventh 1])], [(9, [Reducer.seventh 0])], []] ∧
    (damaged.foldl take empty).Merges [(5, [Reducer.seventh 1]), (9, [Reducer.seventh 0])] ∧
    (damaged.foldl take empty).faceGnums = [5, 9] ∧
    ∀ v ∈ (damaged.foldl take empty).vertices, v.compare (Reducer.seventh 0) ≠ .gt := by
  obtain ⟨_, merged⟩ := inputs_merged damaged
  have merges := merged _ damaged_feeds
  refine ⟨by decide, damaged_feeds, merges, merges.numbers, fun v member => ?_⟩
  have number : v.gnum ∈ [(7 : UInt64), 7].eraseDups := by
    have among := List.mem_map_of_mem (f := Vertex.gnum) member
    rwa [merges.order] at among
  have seven : v.gnum = 7 := by simpa using number
  exact (merges.least v member).least (Reducer.seventh 0) (by simp) seven.symm

end Assembly

end Seam
