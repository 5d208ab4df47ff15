import Seam.Edit
import Seam.Ragged
import Seam.Vertex

set_option autoImplicit false

/- A selection of faces of a distributed mesh. Face `f` is row `f` of the references, which are positions in the
   vertex table, in cyclic order. The arrays are stored as given; `check` says whether they fit together. -/
namespace Seam

structure Mesh where
  name : String
  globalFaces : UInt64
  faceGnums : List UInt64
  faceIndex : List Nat
  faceRefs : List Nat
  globalVertices : UInt64
  vertices : List Vertex
deriving DecidableEq, Repr

namespace Mesh

def empty (name : String) : Mesh := ⟨name, 0, [], [0], [], 0, []⟩

def faceCount (m : Mesh) : Nat := m.faceGnums.length
def vertexCount (m : Mesh) : Nat := m.vertices.length

def face (m : Mesh) (f : Nat) : Result (List Nat) := Ragged.row m.faceIndex m.faceRefs f

def faces (m : Mesh) : Result (List (List Nat)) := (List.range m.faceCount).mapM m.face

def records (m : Mesh) (refs : List Nat) : Result (List Vertex) := refs.mapM (fetch m.vertices)

def faceVertexGnums (m : Mesh) (f : Nat) : Result (List UInt64) := do
  let vertices ← m.records (← m.face f)
  return vertices.map Vertex.gnum

def pushVertex (m : Mesh) (v : Vertex) : Mesh × Nat :=
  ({ m with vertices := m.vertices ++ [v] }, m.vertexCount)

def endFace (m : Mesh) (gnum : UInt64) : Mesh :=
  { m with faceGnums := m.faceGnums ++ [gnum], faceIndex := m.faceIndex ++ [m.faceRefs.length] }

def appendFace (m : Mesh) (gnum : UInt64) (refs : List Nat) : Mesh :=
  { m with faceRefs := m.faceRefs ++ refs }.endFace gnum

def pushingFace (gnum : UInt64) (refs : List Nat) : Edit Mesh Nat := do
  let m ← get
  match refs.find? fun v => m.vertexCount ≤ v with
  | some v => throw (.error (.vertexOutOfRange m.faceCount v m.vertexCount))
  | none =>
      modify fun m => m.appendFace gnum refs
      return m.faceCount

def pushFace (m : Mesh) (gnum : UInt64) (refs : List Nat) : Result (Mesh × Nat) := (pushingFace gnum refs).outcome m

def reset (m : Mesh) : Mesh := empty m.name

def withLocalCounts (m : Mesh) : Mesh :=
  { m with globalFaces := .ofNat m.faceCount, globalVertices := .ofNat m.vertexCount }

def sameNumbers (a b : Mesh) : Bool :=
  a.name == b.name && a.globalFaces == b.globalFaces && a.faceGnums == b.faceGnums &&
    a.faceIndex == b.faceIndex && a.faceRefs == b.faceRefs && a.globalVertices == b.globalVertices &&
    a.vertices.length == b.vertices.length && (a.vertices.zip b.vertices).all fun (v, w) => v.sameNumbers w

def checkIndex (m : Mesh) : Result Unit := do
  if m.faceIndex.length ≠ m.faceCount + 1 then
    refuse (.connectivity (.indexLength m.faceIndex.length m.faceCount))
  if (← fetch m.faceIndex 0) ≠ 0 then refuse (.connectivity .indexStart)
  match Ragged.firstBreak (fun a b => a ≤ b) m.faceIndex with
  | some (f, _) => refuse (.connectivity (.indexDecrease f))
  | none =>
      let last ← fetch m.faceIndex m.faceCount
      if last ≠ m.faceRefs.length then refuse (.connectivity (.indexEnd last m.faceRefs.length))

def firstStray (vertices : Nat) (faces : List (List Nat)) : Option (Nat × Nat) :=
  faces.zipIdx.findSome? fun (refs, f) => (refs.find? fun v => vertices ≤ v).map fun v => (f, v)

def check (m : Mesh) : Result Unit := do
  m.checkIndex
  match firstStray m.vertexCount (← m.faces) with
  | some (f, v) => refuse (.vertexOutOfRange f v m.vertexCount)
  | none => .ok ()

def marked (size : Nat) (positions : List Nat) : Result (List Bool) :=
  positions.foldlM (fun used v => store used v true) (List.replicate size false)

def unplaced : Nat := UInt64.size - 1

end Mesh

def sides (refs : List Nat) : List (Nat × Nat) := refs.zip (refs.drop 1 ++ refs.take 1)

end Seam
