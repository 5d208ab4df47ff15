import Seam.Proofs.Results
import Seam.Proofs.Wire.RoundTrip

set_option autoImplicit false

namespace Seam.Wire

theorem of_little_endian_lt (bytes : Bytes) : ofLittleEndian bytes < 256 ^ bytes.length := by
  induction bytes with
  | nil => decide
  | cons b bytes ih =>
      have bound := b.toNat_lt
      rw [ofLittleEndian, List.length_cons, Nat.pow_succ]
      omega

theorem little_endian_of_little_endian (bytes : Bytes) : littleEndian bytes.length (ofLittleEndian bytes) = bytes := by
  induction bytes with
  | nil => rfl
  | cons b bytes ih =>
      have bound := b.toNat_lt
      have low : (b.toNat + 256 * ofLittleEndian bytes) % 256 = b.toNat := by omega
      have high : (b.toNat + 256 * ofLittleEndian bytes) / 256 = ofLittleEndian bytes := by omega
      rw [ofLittleEndian, List.length_cons, littleEndian, low, high, ih, UInt8.ofNat_toNat]

theorem little_endian_of_field (bytes : Bytes) (width n : Nat) (length : bytes.length = width) (value : ofLittleEndian bytes = n) :
    bytes = littleEndian width n := by
  rw [← length, ← value, little_endian_of_little_endian]

theorem slice_length (bytes : Bytes) (start width : Nat) (enough : start + width ≤ bytes.length) :
    ((bytes.drop start).take width).length = width := by
  have later : width ≤ (bytes.drop start).length := by
    rw [List.length_drop]
    omega
  exact List.length_take_of_le later

theorem word_of_word (bytes : Bytes) (enough : 8 ≤ bytes.length) : word (ofWord bytes) = bytes.take 8 := by
  have length : (bytes.take 8).length = 8 := List.length_take_of_le enough
  have bound := of_little_endian_lt (bytes.take 8)
  rw [length] at bound
  rw [word, ofWord, UInt64.toNat_ofNat_of_lt' bound]
  exact (little_endian_of_field _ 8 _ length rfl).symm

section Reading

variable {α : Type} (layout : Layout α)

theorem chunks_append (size n : Nat) (front rest : Bytes) (length : front.length = n * size) :
    chunks size n (front ++ rest) = chunks size n front := by
  induction n generalizing front with
  | zero => rfl
  | succ n ih =>
      rw [Nat.succ_mul] at length
      have enough : size ≤ front.length := by omega
      have later : (front.drop size).length = n * size := by
        rw [List.length_drop]
        omega
      rw [chunks, chunks, List.take_append_of_le_length enough, List.drop_append_of_le_length enough, ih _ later]

theorem read_ok_iff (n : Nat) (bytes rest : Bytes) (items : List α) :
    read layout n bytes = .ok (items, rest) ↔ n * layout.size < UInt64.size ∧
      ∃ front, front.length = n * layout.size ∧ bytes = front ++ rest ∧ items = (chunks layout.size n front).map layout.decode := by
  constructor
  · intro ok
    rw [read] at ok
    split at ok
    · cases ok
    rename_i small
    split at ok
    · cases ok
    rename_i enough
    obtain ⟨rfl, rfl⟩ := Prod.mk.inj (Except.ok.inj ok)
    have length : (bytes.take (n * layout.size)).length = n * layout.size :=
      List.length_take_of_le (Nat.not_lt.mp enough)
    have split := List.take_append_drop (n * layout.size) bytes
    refine ⟨Nat.not_le.mp small, bytes.take (n * layout.size), length, split.symm, ?_⟩
    conv_lhs => rw [← split]
    rw [chunks_append _ _ _ _ length]
  · rintro ⟨small, front, length, rfl, rfl⟩
    have enough : ¬ (front ++ rest).length < n * layout.size := by
      rw [List.length_append]
      omega
    rw [read, if_neg (Nat.not_le.mpr small), if_neg enough, chunks_append _ _ _ _ length, List.drop_left' length]

theorem read_one_ok_iff (value : α) (bytes rest : Bytes) (short : layout.size < UInt64.size) :
    readOne layout bytes = .ok (value, rest) ↔
      ∃ front, front.length = layout.size ∧ bytes = front ++ rest ∧ layout.decode front = value := by
  have single : ∀ front : Bytes, front.length = layout.size → (chunks layout.size 1 front).map layout.decode = [layout.decode front] := by
    intro front length
    rw [chunks, chunks, List.take_of_length_le (Nat.le_of_eq length), List.map_singleton]
  constructor
  · intro ok
    obtain ⟨⟨items, later⟩, found, ok⟩ := bind_ok _ _ _ ok
    obtain ⟨first, fetched, ok⟩ := bind_ok _ _ _ ok
    obtain ⟨rfl, rfl⟩ := Prod.mk.inj (Except.ok.inj ok)
    obtain ⟨_, front, length, split, rfl⟩ := (read_ok_iff layout 1 _ _ _).mp found
    rw [Nat.one_mul] at length
    rw [single front length, fetch_eq_ok_iff] at fetched
    exact ⟨front, length, split, Option.some.inj fetched⟩
  · rintro ⟨front, length, rfl, rfl⟩
    have found := (read_ok_iff layout 1 (front ++ rest) rest _).mpr ⟨by simpa using short, front, by simpa using length, rfl, rfl⟩
    rw [single front length] at found
    simp only [readOne, found, bind, Except.bind]
    rfl

-- Whatever stands in a record of the right size is what some value is written as.
def Layout.Full : Prop := ∀ bytes : Bytes, bytes.length = layout.size → layout.encode (layout.decode bytes) = bytes

variable (full : layout.Full)

include full

theorem write_chunks (n : Nat) (bytes : Bytes) (length : bytes.length = n * layout.size) :
    write layout ((chunks layout.size n bytes).map layout.decode) = bytes := by
  induction n generalizing bytes with
  | zero =>
      rw [Nat.zero_mul, List.length_eq_zero_iff] at length
      rw [length]
      rfl
  | succ n ih =>
      rw [Nat.succ_mul] at length
      have front : (bytes.take layout.size).length = layout.size := List.length_take_of_le (by omega)
      have later : (bytes.drop layout.size).length = n * layout.size := by
        rw [List.length_drop]
        omega
      have rest := ih _ later
      rw [write] at rest ⊢
      rw [chunks, List.map_cons, List.flatMap_cons, rest, full _ front, List.take_append_drop]

theorem read_full_iff (faithful : layout.Faithful fun _ => True) (n : Nat) (bytes rest : Bytes) (items : List α)
    (small : n * layout.size < UInt64.size) :
    read layout n bytes = .ok (items, rest) ↔ items.length = n ∧ bytes = write layout items ++ rest := by
  constructor
  · intro ok
    obtain ⟨_, front, length, rfl, rfl⟩ := (read_ok_iff layout n bytes rest items).mp ok
    rw [List.length_map, write_chunks layout full n front length]
    exact ⟨chunks_length _ _ _, rfl⟩
  · rintro ⟨rfl, rfl⟩
    exact read_write layout _ faithful items (fun _ _ => trivial) rest small

end Reading

theorem vertex_full : vertex.Full := by
  intro bytes length
  have size : bytes.length = 40 := length
  have field : ∀ i, i < 5 → word (wordAt bytes i) = (bytes.drop (8 * i)).take 8 := fun i bound =>
    word_of_word _ (by rw [List.length_drop]; omega)
  change word (wordAt bytes 0) ++ word (wordAt bytes 1) ++ word (wordAt bytes 2) ++ word (wordAt bytes 3) ++ word (wordAt bytes 4) = bytes
  rw [field 0 (by decide), field 1 (by decide), field 2 (by decide), field 3 (by decide), field 4 (by decide), List.drop_zero,
    ← List.take_add, ← List.take_add, ← List.take_add, ← List.take_add]
  exact List.take_of_length_le (Nat.le_of_eq size)

theorem read_count_iff (n : Nat) (bytes rest : Bytes) :
    readOne count bytes = .ok (n, rest) ↔ n < UInt32.size ∧ bytes = littleEndian 4 n ++ rest := by
  constructor
  · intro ok
    obtain ⟨front, length, rfl, value⟩ := (read_one_ok_iff count n bytes rest (by decide)).mp ok
    have four : front.length = 4 := length
    have whole : ofLittleEndian front = n := by
      change ofLittleEndian (front.take 4) = n at value
      rwa [List.take_of_length_le (Nat.le_of_eq four)] at value
    have bound := of_little_endian_lt front
    rw [four, whole] at bound
    exact ⟨bound, congrArg (· ++ rest) (little_endian_of_field front 4 n four whole)⟩
  · rintro ⟨fits, rfl⟩
    exact read_count_encode n fits rest

theorem half_of_field (bytes : Bytes) (n : UInt16) (length : bytes.length = 2) (value : UInt16.ofNat (ofLittleEndian bytes) = n) :
    bytes = littleEndian 2 n.toNat := by
  have bound := of_little_endian_lt bytes
  rw [length] at bound
  refine little_endian_of_field bytes 2 _ length ?_
  rw [← value, UInt16.toNat_ofNat_of_lt' bound]

theorem read_header_eq (kind : UInt16) (bytes rest : Bytes) :
    readHeader kind bytes = .ok rest ↔ readOne header bytes = .ok ((version, kind), rest) := by
  cases one : readOne header bytes with
  | error e => simp [readHeader, one, bind, Except.bind]
  | ok pair =>
      obtain ⟨⟨foundVersion, foundKind⟩, later⟩ := pair
      by_cases sameVersion : foundVersion = version
      · by_cases sameKind : foundKind = kind
        · simp [readHeader, one, sameVersion, sameKind, bind, Except.bind, pure, Except.pure]
        · simp [readHeader, one, sameVersion, sameKind, refuse, bind, Except.bind]
      · simp [readHeader, one, sameVersion, refuse, bind, Except.bind]

theorem read_header_iff (kind : UInt16) (bytes rest : Bytes) :
    readHeader kind bytes = .ok rest ↔
      ∃ spare : Bytes, spare.length = 4 ∧ bytes = littleEndian 2 1 ++ littleEndian 2 kind.toNat ++ spare ++ rest := by
  rw [read_header_eq, read_one_ok_iff header _ _ _ (by decide)]
  constructor
  · rintro ⟨front, length, rfl, value⟩
    have eight : front.length = 8 := length
    obtain ⟨first, second⟩ := Prod.mk.inj value
    have versionField := half_of_field (front.take 2) _ (List.length_take_of_le (by omega)) first
    have kindField := half_of_field ((front.drop 2).take 2) _ (slice_length _ _ _ (by omega)) second
    refine ⟨front.drop 4, by rw [List.length_drop, eight], congrArg (· ++ rest) ?_⟩
    calc front = front.take 2 ++ (front.drop 2).take 2 ++ front.drop 4 := by
          rw [← List.take_add, List.take_append_drop]
      _ = littleEndian 2 1 ++ littleEndian 2 kind.toNat ++ front.drop 4 := by
          rw [versionField, kindField]
          rfl
  · rintro ⟨spare, length, rfl⟩
    refine ⟨_, ?_, rfl, decode_header version kind spare⟩
    rw [List.length_append, List.length_append, little_endian_length, little_endian_length, length]
    rfl

theorem read_face_iff (gnum : UInt64) (size : Nat) (bytes rest : Bytes) :
    readOne face bytes = .ok ((gnum, size), rest) ↔ size < UInt32.size ∧
      ∃ spare : Bytes, spare.length = 4 ∧ bytes = word gnum ++ littleEndian 4 size ++ spare ++ rest := by
  rw [read_one_ok_iff face _ _ _ (by decide)]
  constructor
  · rintro ⟨front, length, rfl, value⟩
    have sixteen : front.length = 16 := length
    obtain ⟨rfl, second⟩ := Prod.mk.inj value
    have four : ((front.drop 8).take 4).length = 4 := slice_length _ _ _ (by omega)
    have bound := of_little_endian_lt ((front.drop 8).take 4)
    rw [four, second] at bound
    refine ⟨bound, front.drop 12, by rw [List.length_drop, sixteen], congrArg (· ++ rest) ?_⟩
    calc front = front.take 8 ++ (front.drop 8).take 4 ++ front.drop 12 := by
          rw [← List.take_add, List.take_append_drop]
      _ = word (ofWord front) ++ littleEndian 4 size ++ front.drop 12 := by
          rw [word_of_word front (by omega), little_endian_of_field _ 4 size four second]
  · rintro ⟨fits, spare, length, rfl⟩
    refine ⟨_, ?_, rfl, decode_face gnum size fits spare⟩
    rw [List.length_append, List.length_append, word_length, little_endian_length, length]
    rfl

theorem check_length_ok_iff (actual expected : Nat) : checkLength actual expected = .ok () ↔ actual = expected := by
  rw [checkLength]
  split
  · simp [*]
  · simp [*, refuse]

theorem decode_list_ok_iff {α : Type} (layout : Layout α) (full : layout.Full) (faithful : layout.Faithful fun _ => True)
    (light : UInt32.size * layout.size < UInt64.size) (kind : UInt16) (bytes : Bytes) (items : List α) :
    decodeList layout kind bytes = .ok items ↔ items.length < UInt32.size ∧ ∃ spare : Bytes, spare.length = 4 ∧
      bytes = littleEndian 2 1 ++ littleEndian 2 kind.toNat ++ spare ++ (littleEndian 4 items.length ++ write layout items) := by
  have fits : ∀ n, n < UInt32.size → n * layout.size < UInt64.size := fun n small =>
    Nat.lt_of_le_of_lt (Nat.mul_le_mul_right _ (Nat.le_of_lt small)) light
  constructor
  · intro ok
    obtain ⟨afterHeader, headed, ok⟩ := bind_ok _ _ _ ok
    obtain ⟨⟨n, afterCount⟩, counted, ok⟩ := bind_ok _ _ _ ok
    obtain ⟨⟨records, afterRecords⟩, found, ok⟩ := bind_ok _ _ _ ok
    obtain ⟨_, ends, ok⟩ := bind_ok _ _ _ ok
    obtain rfl := Except.ok.inj ok
    obtain ⟨spare, length, rfl⟩ := (read_header_iff kind _ _).mp headed
    obtain ⟨small, rfl⟩ := (read_count_iff n _ _).mp counted
    obtain ⟨rfl, rfl⟩ := (read_full_iff layout full faithful n _ _ _ (fits n small)).mp found
    have none : afterRecords = [] := List.length_eq_zero_iff.mp ((check_length_ok_iff _ _).mp ends)
    rw [none, List.append_nil]
    exact ⟨small, spare, length, rfl⟩
  · rintro ⟨small, spare, length, rfl⟩
    have headed := (read_header_iff kind _ (littleEndian 4 items.length ++ write layout items)).mpr ⟨spare, length, rfl⟩
    have counted := (read_count_iff items.length _ (write layout items)).mpr ⟨small, rfl⟩
    have found := (read_full_iff layout full faithful items.length (write layout items) [] items (fits _ small)).mpr
      ⟨rfl, (List.append_nil _).symm⟩
    have ends := (check_length_ok_iff 0 0).mpr rfl
    simp only [decodeList, headed, counted, found, List.length_nil, ends, bind, Except.bind]
    rfl

theorem decode_vertices_ok_iff (bytes : Bytes) (items : List Vertex) :
    decodeVertices bytes = .ok items ↔ items.length < UInt32.size ∧ ∃ spare : Bytes, spare.length = 4 ∧
      bytes = littleEndian 2 1 ++ littleEndian 2 3 ++ spare ++ (littleEndian 4 items.length ++ write vertex items) :=
  decode_list_ok_iff vertex vertex_full vertex_faithful (by decide) verticesKind bytes items

theorem message_fields (bytes : Bytes) (kind n size : Nat) :
    (bytes.length = 12 + size ∧ ofLittleEndian (bytes.take 2) = 1 ∧ ofLittleEndian ((bytes.drop 2).take 2) = kind ∧
      ofLittleEndian ((bytes.drop 8).take 4) = n) ↔
    kind < 256 ^ 2 ∧ n < 256 ^ 4 ∧ ∃ spare records : Bytes, spare.length = 4 ∧ records.length = size ∧
      bytes = littleEndian 2 1 ++ littleEndian 2 kind ++ spare ++ (littleEndian 4 n ++ records) := by
  constructor
  · rintro ⟨length, versionField, kindField, countField⟩
    have two : (bytes.take 2).length = 2 := List.length_take_of_le (by omega)
    have nextTwo : ((bytes.drop 2).take 2).length = 2 := slice_length _ _ _ (by omega)
    have four : ((bytes.drop 8).take 4).length = 4 := slice_length _ _ _ (by omega)
    have kindBound := of_little_endian_lt ((bytes.drop 2).take 2)
    have countBound := of_little_endian_lt ((bytes.drop 8).take 4)
    rw [nextTwo, kindField] at kindBound
    rw [four, countField] at countBound
    refine ⟨kindBound, countBound, (bytes.drop 4).take 4, bytes.drop 12, ?_, ?_, ?_⟩
    · exact slice_length _ _ _ (by omega)
    · rw [List.length_drop]
      omega
    · rw [← little_endian_of_field _ 2 1 two versionField, ← little_endian_of_field _ 2 kind nextTwo kindField,
        ← little_endian_of_field _ 4 n four countField, ← List.append_assoc]
      rw [← List.take_add, ← List.take_add, ← List.take_add, List.take_append_drop]
  · rintro ⟨kindFits, countFits, spare, records, spareLength, recordsLength, rfl⟩
    have front : (littleEndian 2 1 ++ littleEndian 2 kind ++ spare).length = 8 := by
      simp only [List.length_append, little_endian_length, spareLength]
    refine ⟨?_, rfl, ?_, ?_⟩
    · rw [List.length_append, front, List.length_append, little_endian_length, recordsLength, ← Nat.add_assoc]
    · rw [List.append_assoc, List.append_assoc, List.drop_left' (little_endian_length 2 1), List.take_left' (little_endian_length 2 kind)]
      exact of_little_endian_little_endian 2 kind kindFits
    · rw [List.drop_left' front, List.take_left' (little_endian_length 4 n)]
      exact of_little_endian_little_endian 4 n countFits

theorem encoded_vertices_read (items : List Vertex) (fits : items.length < UInt32.size) :
    ∃ bytes, encodeVertices items = .ok bytes ∧ decodeVertices bytes = .ok items := by
  have encoded := encode_list_ok vertex verticesKind items fits
  exact ⟨_, encoded, (decode_vertices_ok_iff _ _).mpr ⟨fits, littleEndian 4 0, rfl, List.append_assoc _ _ _⟩⟩

theorem vertices_readable_iff (bytes : Bytes) : (∃ items, decodeVertices bytes = .ok items) ↔
    ∃ n, bytes.length = 12 + 40 * n ∧ ofLittleEndian (bytes.take 2) = 1 ∧ ofLittleEndian ((bytes.drop 2).take 2) = 3 ∧
      ofLittleEndian ((bytes.drop 8).take 4) = n := by
  constructor
  · rintro ⟨items, ok⟩
    obtain ⟨fits, spare, length, split⟩ := (decode_vertices_ok_iff bytes items).mp ok
    have records := write_length vertex _ vertex_faithful items
    rw [Nat.mul_comm] at records
    exact ⟨items.length, (message_fields bytes 3 _ _).mpr ⟨by decide, fits, spare, _, length, records, split⟩⟩
  · rintro ⟨n, fields⟩
    obtain ⟨_, fits, spare, records, length, whole, split⟩ := (message_fields bytes 3 n (40 * n)).mp fields
    let items := (chunks vertex.size n records).map vertex.decode
    have counted : items.length = n := by rw [List.length_map, chunks_length]
    have written : write vertex items = records := write_chunks vertex vertex_full n records (whole.trans (Nat.mul_comm 40 n))
    rw [← written, ← counted] at split
    exact ⟨items, (decode_vertices_ok_iff bytes items).mpr ⟨counted ▸ fits, spare, length, split⟩⟩

theorem decoded_vertices_written (bytes : Bytes) (items : List Vertex) (ok : decodeVertices bytes = .ok items) :
    encodeVertices items = .ok (bytes.take 4 ++ [0, 0, 0, 0] ++ bytes.drop 8) := by
  obtain ⟨fits, spare, length, rfl⟩ := (decode_vertices_ok_iff bytes items).mp ok
  have encoded := encode_list_ok vertex verticesKind items fits
  have named : (littleEndian 2 1 ++ littleEndian 2 3).length = 4 := rfl
  have front : (littleEndian 2 1 ++ littleEndian 2 3 ++ spare).length = 8 := by rw [List.length_append, named, length]
  rw [List.drop_left' front, List.append_assoc _ spare, List.take_left' named]
  exact encoded.trans (congrArg Except.ok (List.append_assoc _ _ _))

-- A message tells how many records it carries: nothing but its fields and its length decides whether it can be read. What is read is
-- written as the same bytes, with zero in the spare ones.
theorem vertex_messages_exact :
    (∀ items : List Vertex, items.length < UInt32.size →
      ∃ bytes, encodeVertices items = .ok bytes ∧ decodeVertices bytes = .ok items) ∧
    (∀ bytes, (∃ items, decodeVertices bytes = .ok items) ↔
      ∃ n, bytes.length = 12 + 40 * n ∧ ofLittleEndian (bytes.take 2) = 1 ∧ ofLittleEndian ((bytes.drop 2).take 2) = 3 ∧
        ofLittleEndian ((bytes.drop 8).take 4) = n) ∧
    ∀ bytes items, decodeVertices bytes = .ok items →
      encodeVertices items = .ok (bytes.take 4 ++ [0, 0, 0, 0] ++ bytes.drop 8) :=
  ⟨encoded_vertices_read, vertices_readable_iff, decoded_vertices_written⟩

def oddVertex : Vertex := ⟨7, ⟨0x7ff0000000000001⟩, ⟨⟨0x8000000000000000⟩, ⟨0xffffffffffffffff⟩, ⟨1⟩⟩⟩

def markedMessage : Bytes := [1, 0, 3, 0, 9, 8, 7, 6, 1, 0, 0, 0] ++ write vertex [oddVertex]

theorem odd_vertex_travels :
    (∃ bytes, encodeVertices [oddVertex] = .ok bytes ∧ decodeVertices bytes = .ok [oddVertex]) ∧
    (∃ items, decodeVertices markedMessage = .ok items) ∧
    decodeVertices markedMessage = .ok [oddVertex] ∧
    encodeVertices [oddVertex] = .ok (markedMessage.take 4 ++ [0, 0, 0, 0] ++ markedMessage.drop 8) := by
  have decoded : decodeVertices markedMessage = .ok [oddVertex] :=
    (decode_vertices_ok_iff _ _).mpr ⟨by decide, [9, 8, 7, 6], rfl, rfl⟩
  obtain ⟨inverse, grammar, again⟩ := vertex_messages_exact
  exact ⟨inverse [oddVertex] (by decide), (grammar markedMessage).mpr ⟨1, by decide, by decide, by decide, by decide⟩, decoded,
    again markedMessage [oddVertex] decoded⟩

end Seam.Wire
