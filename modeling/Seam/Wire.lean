import Seam.Error
import Seam.Vertex

set_option autoImplicit false

namespace Seam

abbrev Bytes := List UInt8

namespace Wire

def littleEndian : (width n : Nat) → Bytes
  | 0, _ => []
  | width + 1, n => UInt8.ofNat (n % 256) :: littleEndian width (n / 256)

def ofLittleEndian : Bytes → Nat
  | [] => 0
  | b :: rest => b.toNat + 256 * ofLittleEndian rest

structure Layout (α : Type) where
  size : Nat
  encode : α → Bytes
  decode : Bytes → α

def word (n : UInt64) : Bytes := littleEndian 8 n.toNat
def ofWord (bytes : Bytes) : UInt64 := .ofNat (ofLittleEndian (bytes.take 8))

def wordAt (bytes : Bytes) (i : Nat) : UInt64 := ofWord (bytes.drop (8 * i))

def version : UInt16 := 1
def requestKind : UInt16 := 1
def facesKind : UInt16 := 2
def verticesKind : UInt16 := 3

-- Version and kind; the last four bytes are written as zero and not read.
def header : Layout (UInt16 × UInt16) where
  size := 8
  encode h := littleEndian 2 h.1.toNat ++ littleEndian 2 h.2.toNat ++ littleEndian 4 0
  decode b := (.ofNat (ofLittleEndian (b.take 2)), .ofNat (ofLittleEndian ((b.drop 2).take 2)))

def count : Layout Nat where
  size := 4
  encode := littleEndian 4
  decode b := ofLittleEndian (b.take 4)

def gnum : Layout UInt64 where
  size := 8
  encode := word
  decode := ofWord

def face : Layout (UInt64 × Nat) where
  size := 16
  encode f := word f.1 ++ littleEndian 4 f.2 ++ littleEndian 4 0
  decode b := (ofWord b, ofLittleEndian ((b.drop 8).take 4))

def vertex : Layout Vertex where
  size := 40
  encode v := word v.gnum ++ word v.tolerance.bits ++ word v.coord.x.bits ++ word v.coord.y.bits ++
    word v.coord.z.bits
  decode b := ⟨wordAt b 0, ⟨wordAt b 1⟩, ⟨⟨wordAt b 2⟩, ⟨wordAt b 3⟩, ⟨wordAt b 4⟩⟩⟩

def narrow (n : Nat) : Result Nat := if n < UInt32.size then .ok n else refuse (.wire (.wideCount n))

def checkLength (actual expected : Nat) : Result Unit :=
  if actual = expected then .ok () else refuse (.wire (.length expected actual))

def write {α : Type} (layout : Layout α) (items : List α) : Bytes := items.flatMap layout.encode

def chunks (size : Nat) : (n : Nat) → Bytes → List Bytes
  | 0, _ => []
  | n + 1, bytes => bytes.take size :: chunks size n (bytes.drop size)

def exactChunks (size : Nat) (bytes : Bytes) : Result (List Bytes) :=
  if size = 0 then .error .outOfBounds else .ok (chunks size (bytes.length / size) bytes)

-- Read `n` records from the front of `bytes`; the rest is given back. The length asked for is a 64-bit number.
def read {α : Type} (layout : Layout α) (n : Nat) (bytes : Bytes) : Result (List α × Bytes) :=
  let needed := n * layout.size
  if UInt64.size ≤ needed then refuse (.wire (.recordOverflow n))
  else if bytes.length < needed then refuse (.wire (.truncated needed n bytes.length))
  else .ok ((chunks layout.size n bytes).map layout.decode, bytes.drop needed)

def readOne {α : Type} (layout : Layout α) (bytes : Bytes) : Result (α × Bytes) := do
  let (items, rest) ← read layout 1 bytes
  return (← fetch items 0, rest)

def readHeader (kind : UInt16) (bytes : Bytes) : Result Bytes := do
  let (found, rest) ← readOne header bytes
  if found.1 ≠ version then refuse (.wire (.version found.1 version))
  if found.2 ≠ kind then refuse (.wire (.kind found.2 kind))
  return rest

def encodeList {α : Type} (layout : Layout α) (kind : UInt16) (items : List α) : Result Bytes := do
  let n ← narrow items.length
  return header.encode (version, kind) ++ count.encode n ++ write layout items

def decodeList {α : Type} (layout : Layout α) (kind : UInt16) (bytes : Bytes) : Result (List α) := do
  let rest ← readHeader kind bytes
  let (n, rest) ← readOne count rest
  let (items, rest) ← read layout n rest
  checkLength rest.length 0
  return items

def encodeVertices : List Vertex → Result Bytes := encodeList vertex verticesKind
def decodeVertices : Bytes → Result (List Vertex) := decodeList vertex verticesKind

end Wire

end Seam
