import Seam.Mesh.Basic
import Seam.Wire

set_option autoImplicit false

namespace Seam

-- `slots` gives the position of each global number met so far.
structure Assembly where
  faceGnums : List UInt64
  faceIndex : List Nat
  faceRefs : List Nat
  vertices : List Vertex
  slots : List (UInt64 × Nat)
  inside : ∀ slot ∈ slots, slot.2 < vertices.length
deriving DecidableEq, Repr

namespace Assembly

def empty : Assembly := ⟨[], [0], [], [], [], by simp⟩

def lessen (a : Assembly) (i : Nat) (v : Vertex) : Assembly :=
  { a with
    vertices := a.vertices.modify i fun known => Reducer.least.combine known v
    inside := by simpa using a.inside }

def newVertex (a : Assembly) (v : Vertex) : Assembly :=
  { a with
    vertices := a.vertices ++ [v]
    slots := (v.gnum, a.vertices.length) :: a.slots
    inside := by
      simp only [List.forall_mem_cons, List.length_append, List.length_singleton]
      exact ⟨by omega, fun slot held => Nat.lt_succ_of_lt (a.inside slot held)⟩ }

def addVertex (a : Assembly) (v : Vertex) : Assembly × Nat :=
  match a.slots.lookup v.gnum with
  | some i => (a.lessen i v, i)
  | none => (a.newVertex v, a.vertices.length)

def addReference (a : Assembly) (v : Vertex) : Assembly :=
  let (a, i) := a.addVertex v
  { a with faceRefs := a.faceRefs ++ [i] }

def endFace (a : Assembly) (gnum : UInt64) : Assembly :=
  { a with faceGnums := a.faceGnums ++ [gnum], faceIndex := a.faceIndex ++ [a.faceRefs.length] }

def addFace (a : Assembly) (gnum : UInt64) (records : List Vertex) : Assembly :=
  (records.foldl addReference a).endFace gnum

def readFaces (a : Assembly) : (n : Nat) → Bytes → Assembly × Result Bytes
  | 0, bytes => (a, .ok bytes)
  | n + 1, bytes =>
      match (do
        let ((gnum, size), rest) ← Wire.readOne Wire.face bytes
        let (records, rest) ← Wire.read Wire.vertex size rest
        return (gnum, records, rest)) with
      | .error e => (a, .error e)
      | .ok (gnum, records, rest) => (a.addFace gnum records).readFaces n rest

-- Take in a message of faces; an empty one holds none. After a failure the faces before it stay.
def decode (a : Assembly) (bytes : Bytes) : Assembly × Result Unit :=
  if bytes = [] then (a, .ok ())
  else
    match (do
      let rest ← Wire.readHeader Wire.facesKind bytes
      Wire.readOne Wire.count rest) with
    | .error e => (a, .error e)
    | .ok (n, rest) =>
        let (a, rest) := a.readFaces n rest
        (a, rest.bind fun rest => Wire.checkLength rest.length 0)

def decodeAll (a : Assembly) : List Bytes → Result Assembly
  | [] => .ok a
  | bytes :: rest => do
      let (a, read) := a.decode bytes
      read
      a.decodeAll rest

def mesh (a : Assembly) (name : String) : Mesh :=
  { Mesh.empty name with
    faceGnums := a.faceGnums
    faceIndex := a.faceIndex
    faceRefs := a.faceRefs
    vertices := a.vertices }.withLocalCounts

end Assembly

def Mesh.encodeFaces (m : Mesh) (faces : List Nat) : Result Bytes := do
  let n ← Wire.narrow faces.length
  let bodies ← faces.mapM fun f => do
    let refs ← m.face f
    let gnum ← fetch m.faceGnums f
    let size ← Wire.narrow refs.length
    return Wire.face.encode (gnum, size) ++ Wire.write Wire.vertex (← m.records refs)
  return Wire.header.encode (Wire.version, Wire.facesKind) ++ Wire.count.encode n ++ bodies.flatten

end Seam
