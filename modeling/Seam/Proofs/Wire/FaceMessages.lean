import Seam.Assembly
import Seam.Proofs.Mesh.Facets
import Seam.Proofs.Wire.Grammar

set_option autoImplicit false

namespace Seam

-- A face as it stands in a message: its number, how many records it has, four bytes that are not read, and forty bytes for each
-- record.
structure Segment where
  gnum : UInt64
  size : Nat
  spare : Bytes
  body : Bytes
  narrow : size < UInt32.size
  spareLength : spare.length = 4
  bodyLength : body.length = 40 * size

namespace Segment

def bytes (s : Segment) : Bytes := Wire.word s.gnum ++ Wire.littleEndian 4 s.size ++ s.spare ++ s.body

def records (s : Segment) : List Vertex := (Wire.chunks 40 s.size s.body).map Wire.vertex.decode

def facet (s : Segment) : Facet := (s.gnum, s.records)

theorem bytes_inj (s t : Segment) (rest more : Bytes) (same : s.bytes ++ rest = t.bytes ++ more) : s = t ∧ rest = more := by
  simp only [bytes, List.append_assoc] at same
  obtain ⟨number, same⟩ := List.append_inj same (by rw [Wire.word_length, Wire.word_length])
  obtain ⟨count, same⟩ := List.append_inj same (by rw [Wire.little_endian_length, Wire.little_endian_length])
  obtain ⟨free, same⟩ := List.append_inj same (s.spareLength.trans t.spareLength.symm)
  have gnum : s.gnum = t.gnum := by rw [← Wire.of_word_word s.gnum, number, Wire.of_word_word]
  have size : s.size = t.size := by
    rw [← Wire.of_little_endian_little_endian 4 s.size s.narrow, count, Wire.of_little_endian_little_endian 4 t.size t.narrow]
  obtain ⟨body, ends⟩ := List.append_inj same (by rw [s.bodyLength, t.bodyLength, size])
  cases s
  cases t
  simp only at gnum size free body
  subst gnum size free body
  exact ⟨rfl, ends⟩

def row (segments : List Segment) : Bytes := segments.flatMap bytes

theorem row_inj (segments others : List Segment) (rest more : Bytes) (count : segments.length = others.length)
    (same : row segments ++ rest = row others ++ more) : segments = others ∧ rest = more := by
  induction segments generalizing others with
  | nil =>
      obtain rfl := List.length_eq_zero_iff.mp count.symm
      exact ⟨rfl, same⟩
  | cons s segments ih =>
      cases others with
      | nil => cases count
      | cons t others =>
          simp only [row, List.flatMap_cons, List.append_assoc] at same
          obtain ⟨rfl, later⟩ := bytes_inj s t _ _ same
          obtain ⟨rfl, ends⟩ := ih others (Nat.succ.inj count) later
          exact ⟨rfl, ends⟩

theorem read_face (s : Segment) (rest : Bytes) :
    Wire.readOne Wire.face (s.bytes ++ rest) = .ok ((s.gnum, s.size), s.body ++ rest) := by
  rw [bytes, List.append_assoc]
  exact (Wire.read_face_iff s.gnum s.size _ _).mpr ⟨s.narrow, s.spare, s.spareLength, rfl⟩

theorem vertices_light (size : Nat) (narrow : size < UInt32.size) : size * Wire.vertex.size < UInt64.size := by
  change size * 40 < UInt64.size
  simp only [UInt32.size, UInt64.size] at narrow ⊢
  omega

theorem read_body (s : Segment) (rest : Bytes) : Wire.read Wire.vertex s.size (s.body ++ rest) = .ok (s.records, rest) :=
  (Wire.read_ok_iff Wire.vertex s.size _ _ _).mpr
    ⟨vertices_light s.size s.narrow, s.body, s.bodyLength.trans (Nat.mul_comm 40 s.size), rfl, rfl⟩

theorem of_read (gnum : UInt64) (size : Nat) (records : List Vertex) (bytes afterFace rest : Bytes)
    (head : Wire.readOne Wire.face bytes = .ok ((gnum, size), afterFace))
    (found : Wire.read Wire.vertex size afterFace = .ok (records, rest)) : ∃ s : Segment, bytes = s.bytes ++ rest := by
  obtain ⟨narrow, spare, spareLength, rfl⟩ := (Wire.read_face_iff gnum size _ _).mp head
  obtain ⟨_, body, bodyLength, rfl, _⟩ := (Wire.read_ok_iff Wire.vertex size _ _ _).mp found
  exact ⟨⟨gnum, size, spare, body, narrow, spareLength, bodyLength.trans (Nat.mul_comm size 40)⟩, (List.append_assoc _ _ _).symm⟩

end Segment

structure FaceMessage where
  spare : Bytes
  segments : List Segment
  spareLength : spare.length = 4
  narrow : segments.length < UInt32.size

namespace FaceMessage

def bytes (message : FaceMessage) : Bytes :=
  Wire.littleEndian 2 1 ++ Wire.littleEndian 2 2 ++ message.spare ++
    (Wire.littleEndian 4 message.segments.length ++ Segment.row message.segments)

theorem bytes_ne_nil (message : FaceMessage) : message.bytes ≠ [] := nofun

theorem bytes_inj (first second : FaceMessage) (rest : Bytes) (same : first.bytes ++ rest = second.bytes) :
    first = second ∧ rest = [] := by
  rw [← List.append_nil second.bytes] at same
  simp only [bytes, List.append_assoc] at same
  have same := List.append_cancel_left (List.append_cancel_left same)
  obtain ⟨free, same⟩ := List.append_inj same (first.spareLength.trans second.spareLength.symm)
  obtain ⟨number, same⟩ := List.append_inj same (by rw [Wire.little_endian_length, Wire.little_endian_length])
  have count : first.segments.length = second.segments.length := by
    rw [← Wire.of_little_endian_little_endian 4 _ first.narrow, number, Wire.of_little_endian_little_endian 4 _ second.narrow]
  obtain ⟨segments, ends⟩ := Segment.row_inj _ _ _ _ count same
  cases first
  cases second
  simp only at free segments
  subst free segments
  exact ⟨rfl, ends⟩

end FaceMessage

namespace Assembly

def addSegments (a : Assembly) (segments : List Segment) : Assembly := segments.foldl (fun a s => a.addFace s.gnum s.records) a

theorem read_faces_segment (a : Assembly) (n : Nat) (s : Segment) (rest : Bytes) :
    a.readFaces (n + 1) (s.bytes ++ rest) = (a.addFace s.gnum s.records).readFaces n rest := by
  simp only [readFaces, s.read_face, s.read_body, bind, Except.bind, pure, Except.pure]

theorem segment_of_read_faces (a : Assembly) (n : Nat) (bytes rest : Bytes) (ok : (a.readFaces (n + 1) bytes).2 = .ok rest) :
    ∃ (s : Segment) (more : Bytes), bytes = s.bytes ++ more := by
  rw [readFaces] at ok
  split at ok
  · cases ok
  rename_i gnum records more step
  obtain ⟨⟨⟨number, size⟩, afterFace⟩, head, step⟩ := bind_ok _ _ _ step
  obtain ⟨⟨found, afterRecords⟩, body, step⟩ := bind_ok _ _ _ step
  obtain ⟨s, split⟩ := Segment.of_read number size found bytes afterFace afterRecords head body
  exact ⟨s, _, split⟩

theorem read_faces_row (a : Assembly) (segments : List Segment) (rest : Bytes) :
    a.readFaces segments.length (Segment.row segments ++ rest) = (a.addSegments segments, .ok rest) := by
  induction segments generalizing a with
  | nil => rfl
  | cons s segments ih =>
      rw [Segment.row, List.flatMap_cons, List.append_assoc, List.length_cons, read_faces_segment]
      exact ih _

theorem row_of_read_faces (a : Assembly) (n : Nat) (bytes rest : Bytes) (ok : (a.readFaces n bytes).2 = .ok rest) :
    ∃ segments : List Segment, segments.length = n ∧ bytes = Segment.row segments ++ rest := by
  induction n generalizing a bytes with
  | zero => exact ⟨[], rfl, Except.ok.inj ok⟩
  | succ n ih =>
      obtain ⟨s, more, rfl⟩ := segment_of_read_faces a n bytes rest ok
      rw [read_faces_segment] at ok
      obtain ⟨segments, rfl, rfl⟩ := ih _ _ ok
      exact ⟨s :: segments, rfl, (List.append_assoc _ _ _).symm⟩

theorem decode_message (a : Assembly) (message : FaceMessage) :
    a.decode message.bytes = (a.addSegments message.segments, .ok ()) := by
  have headed := (Wire.read_header_iff Wire.facesKind message.bytes _).mpr ⟨message.spare, message.spareLength, rfl⟩
  have counted := (Wire.read_count_iff message.segments.length _ (Segment.row message.segments)).mpr ⟨message.narrow, rfl⟩
  have faces := read_faces_row a message.segments []
  rw [List.append_nil] at faces
  rw [decode, if_neg message.bytes_ne_nil]
  simp only [headed, counted, faces, bind, Except.bind]
  rfl

theorem decode_ok_iff (a : Assembly) (bytes : Bytes) :
    (a.decode bytes).2 = .ok () ↔ bytes = [] ∨ ∃ message : FaceMessage, bytes = message.bytes := by
  constructor
  · intro ok
    by_cases none : bytes = []
    · exact .inl none
    rw [decode, if_neg none] at ok
    split at ok
    · cases ok
    rename_i n afterCount start
    obtain ⟨afterHeader, headed, counted⟩ := bind_ok _ _ _ start
    obtain ⟨spare, spareLength, rfl⟩ := (Wire.read_header_iff Wire.facesKind _ _).mp headed
    obtain ⟨narrow, rfl⟩ := (Wire.read_count_iff n _ _).mp counted
    obtain ⟨rest, faces, ends⟩ := bind_ok _ _ _ ok
    obtain ⟨segments, rfl, rfl⟩ := row_of_read_faces a n afterCount rest faces
    obtain rfl := List.length_eq_zero_iff.mp ((Wire.check_length_ok_iff _ _).mp ends)
    rw [List.append_nil]
    exact .inr ⟨⟨spare, segments, spareLength, narrow⟩, rfl⟩
  · rintro (rfl | ⟨message, rfl⟩)
    · rfl
    · rw [decode_message]

end Assembly

end Seam
