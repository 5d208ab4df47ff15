import Mathlib.Algebra.Order.Ring.Nat
import Mathlib.Tactic.Common
import Seam.Wire

set_option autoImplicit false

namespace Seam.Wire

theorem little_endian_length (width n : Nat) : (littleEndian width n).length = width := by
  induction width generalizing n with
  | zero => rfl
  | succ width ih => simp [littleEndian, ih]

theorem of_little_endian_little_endian (width n : Nat) (fits : n < 256 ^ width) :
    ofLittleEndian (littleEndian width n) = n := by
  induction width generalizing n with
  | zero =>
      have zero : n = 0 := by simpa using fits
      rw [zero]
      rfl
  | succ width ih =>
      have high : n / 256 < 256 ^ width := Nat.div_lt_of_lt_mul (by rwa [Nat.pow_succ, Nat.mul_comm] at fits)
      have low : (UInt8.ofNat (n % 256)).toNat = n % 256 := UInt8.toNat_ofNat_of_lt' (Nat.mod_lt n (by decide))
      rw [littleEndian, ofLittleEndian, ih _ high, low]
      omega

theorem word_length (n : UInt64) : (word n).length = 8 := little_endian_length 8 _

theorem of_word_append (n : UInt64) (rest : Bytes) : ofWord (word n ++ rest) = n := by
  have front : (word n ++ rest).take 8 = word n := List.take_left' (word_length n)
  have value : ofLittleEndian (word n) = n.toNat := of_little_endian_little_endian 8 _ n.toNat_lt
  rw [ofWord, front, value, UInt64.ofNat_toNat]

theorem of_word_word (n : UInt64) : ofWord (word n) = n := by
  simpa using of_word_append n []

-- A layout that keeps the values which satisfy `keeps`.
structure Layout.Faithful {α : Type} (layout : Layout α) (keeps : α → Prop) : Prop where
  length : ∀ value, (layout.encode value).length = layout.size
  decode_encode : ∀ value, keeps value → layout.decode (layout.encode value) = value

theorem decode_header (version kind : UInt16) (spare : Bytes) :
    header.decode (littleEndian 2 version.toNat ++ littleEndian 2 kind.toNat ++ spare) = (version, kind) := by
  have first := of_little_endian_little_endian 2 version.toNat version.toNat_lt
  have second := of_little_endian_little_endian 2 kind.toNat kind.toNat_lt
  simp [header, List.take_left', List.drop_left', little_endian_length, first, second]

theorem header_faithful : header.Faithful fun _ => True where
  length value := by simp [header, little_endian_length]
  decode_encode value _ := decode_header value.1 value.2 (littleEndian 4 0)

theorem count_faithful : count.Faithful fun n => n < UInt32.size where
  length value := little_endian_length 4 value
  decode_encode value fits := by
    have whole : (littleEndian 4 value).take 4 = littleEndian 4 value :=
      List.take_of_length_le (Nat.le_of_eq (little_endian_length 4 value))
    simpa only [count, whole] using of_little_endian_little_endian 4 value fits

theorem gnum_faithful : gnum.Faithful fun _ => True where
  length value := word_length value
  decode_encode value _ := of_word_word value

theorem decode_face (gnum : UInt64) (size : Nat) (fits : size < UInt32.size) (spare : Bytes) :
    face.decode (word gnum ++ littleEndian 4 size ++ spare) = (gnum, size) := by
  have number := of_word_append gnum (littleEndian 4 size ++ spare)
  have value := of_little_endian_little_endian 4 size fits
  have field : ((word gnum ++ (littleEndian 4 size ++ spare)).drop 8).take 4 = littleEndian 4 size := by
    rw [List.drop_left' (word_length gnum), List.take_left' (little_endian_length 4 size)]
  simp only [face, List.append_assoc, number, field, value]

theorem face_faithful : face.Faithful fun f => f.2 < UInt32.size where
  length value := by simp [face, word_length, little_endian_length]
  decode_encode value fits := decode_face value.1 value.2 fits (littleEndian 4 0)

theorem vertex_faithful : vertex.Faithful fun _ => True where
  length value := by simp [vertex, word_length]
  decode_encode value _ := by
    have gone : ∀ n k, 8 ≤ k → (word n).drop k = [] := fun n k past =>
      List.drop_of_length_le (by rwa [word_length])
    simp [vertex, wordAt, List.drop_append, word_length, of_word_append, of_word_word, gone]

section Records

variable {α : Type}

theorem write_length (layout : Layout α) (keeps : α → Prop) (faithful : layout.Faithful keeps) (items : List α) :
    (write layout items).length = items.length * layout.size := by
  induction items with
  | nil => simp [write]
  | cons item rest ih =>
      simp only [write, List.flatMap_cons, List.length_append, List.length_cons, faithful.length] at ih ⊢
      rw [ih, Nat.succ_mul, Nat.add_comm]

theorem chunks_length (size n : Nat) (bytes : Bytes) : (chunks size n bytes).length = n := by
  induction n generalizing bytes with
  | zero => rfl
  | succ n ih => rw [chunks, List.length_cons, ih]

theorem chunks_write (layout : Layout α) (keeps : α → Prop) (faithful : layout.Faithful keeps) (items : List α)
    (rest : Bytes) : chunks layout.size items.length (write layout items ++ rest) = items.map layout.encode := by
  induction items with
  | nil => rfl
  | cons item items ih =>
      simp only [write, List.flatMap_cons, List.append_assoc, List.length_cons, chunks, List.map_cons] at ih ⊢
      rw [List.take_left' (faithful.length item), List.drop_left' (faithful.length item), ih]

theorem decode_chunks (layout : Layout α) (keeps : α → Prop) (faithful : layout.Faithful keeps) (items : List α)
    (kept : ∀ item ∈ items, keeps item) (rest : Bytes) :
    (chunks layout.size items.length (write layout items ++ rest)).map layout.decode = items := by
  rw [chunks_write layout keeps faithful, List.map_map]
  calc items.map (layout.decode ∘ layout.encode)
      = items.map id := List.map_congr_left fun item member => faithful.decode_encode item (kept item member)
    _ = items := List.map_id items

theorem read_write (layout : Layout α) (keeps : α → Prop) (faithful : layout.Faithful keeps) (items : List α)
    (kept : ∀ item ∈ items, keeps item) (rest : Bytes) (short : items.length * layout.size < UInt64.size) :
    read layout items.length (write layout items ++ rest) = .ok (items, rest) := by
  have length := write_length layout keeps faithful items
  have enough : ¬ (write layout items ++ rest).length < items.length * layout.size := by
    rw [List.length_append]
    omega
  rw [read, if_neg (by omega), if_neg enough, decode_chunks layout keeps faithful items kept, List.drop_left' length]

theorem read_one_encode (layout : Layout α) (keeps : α → Prop) (faithful : layout.Faithful keeps) (item : α)
    (kept : keeps item) (rest : Bytes) (short : layout.size < UInt64.size) :
    readOne layout (layout.encode item ++ rest) = .ok (item, rest) := by
  have found := read_write layout keeps faithful [item] (by simpa using kept) rest (by simpa using short)
  simp only [write, List.flatMap_singleton, List.length_singleton] at found
  simp [readOne, found, bind, Except.bind, fetch, pure, Except.pure]

theorem read_header_encode (kind : UInt16) (rest : Bytes) :
    readHeader kind (header.encode (version, kind) ++ rest) = .ok rest := by
  have found := read_one_encode header _ header_faithful (version, kind) trivial rest (by decide)
  simp [readHeader, found, bind, Except.bind, pure, Except.pure]

theorem read_count_encode (n : Nat) (fits : n < UInt32.size) (rest : Bytes) :
    readOne count (count.encode n ++ rest) = .ok (n, rest) :=
  read_one_encode count _ count_faithful n fits rest (by decide)

def message (layout : Layout α) (kind : UInt16) (items : List α) : Bytes :=
  header.encode (version, kind) ++ count.encode items.length ++ write layout items

def messageSize (layout : Layout α) (items : List α) : Nat := 12 + items.length * layout.size

theorem message_length (layout : Layout α) (keeps : α → Prop) (faithful : layout.Faithful keeps) (kind : UInt16)
    (items : List α) : (message layout kind items).length = messageSize layout items := by
  simp only [message, List.length_append, header_faithful.length, count_faithful.length,
    write_length layout keeps faithful, messageSize]
  rfl

theorem encode_list_ok (layout : Layout α) (kind : UInt16) (items : List α) (fits : items.length < UInt32.size) :
    encodeList layout kind items = .ok (message layout kind items) := by
  simp [encodeList, message, narrow, fits, bind, Except.bind, pure, Except.pure]

theorem decode_list_message (layout : Layout α) (keeps : α → Prop) (faithful : layout.Faithful keeps) (kind : UInt16)
    (items : List α) (kept : ∀ item ∈ items, keeps item) (fits : items.length < UInt32.size)
    (short : items.length * layout.size < UInt64.size) : decodeList layout kind (message layout kind items) = .ok items := by
  have records := read_write layout keeps faithful items kept [] short
  rw [List.append_nil] at records
  simp [decodeList, message, read_header_encode, read_count_encode _ fits, records, checkLength, bind, Except.bind, pure,
    Except.pure]

end Records

end Seam.Wire
