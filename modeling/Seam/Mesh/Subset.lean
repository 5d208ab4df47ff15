import Seam.Mesh.Basic

set_option autoImplicit false

namespace Seam

namespace Mesh

def takeVertex (parent : Mesh) (before : Mesh × List Nat) (next : Bool × Nat) : Result (Mesh × List Nat) := do
  if next.1 then
    let (m, place) := before.1.pushVertex (← fetch parent.vertices next.2)
    return (m, ← store before.2 next.2 place)
  else return before

def takeFace (parent : Mesh) (places : List Nat) (m : Mesh) (f : Nat) : Result Mesh := do
  let gnum ← fetch parent.faceGnums f
  let refs ← (← parent.face f).mapM (fetch places)
  return m.appendFace gnum refs

def subset (name : String) (selection : List Nat) (parent : Mesh) : Result Mesh := do
  parent.check
  match Ragged.firstBreak (fun a b => a < b) selection with
  | some (_, first, second) => refuse (.selection (.subsetOrder first second))
  | none => pure ()
  match selection.find? fun f => parent.faceCount ≤ f with
  | some f => refuse (.selection (.subsetFace f parent.faceCount))
  | none => pure ()
  let faces ← selection.mapM parent.face
  let used ← marked parent.vertexCount faces.flatten
  let (m, places) ← used.zipIdx.foldlM parent.takeVertex (empty name, List.replicate parent.vertexCount unplaced)
  let m ← selection.foldlM (parent.takeFace places) m
  return m.withLocalCounts

-- Raw arrays of a parent mesh, and the faces and vertices chosen from it. Faces and vertices are numbered as in
-- the parent; `records[i]` belongs to `chosenVertices[i]`.
structure Extract where
  globalFaces : UInt64
  chosenFaces : List Nat
  faceGnums : List UInt64
  faceIndex : List Nat
  faceRefs : List Nat
  globalVertices : UInt64
  chosenVertices : List Nat
  records : List Vertex
deriving DecidableEq, Repr

namespace Extract

def firstRepeat : List Nat → List Nat → Option Nat
  | _, [] => none
  | seen, v :: rest => if seen.contains v then some v else firstRepeat (v :: seen) rest

def face (e : Extract) (f p : Nat) : Result (UInt64 × List Nat) := do
  let parentFaces := e.faceIndex.length - 1
  if parentFaces ≤ p ∨ e.faceGnums.length ≤ p then
    refuse (.selection (.parentFace p parentFaces))
  let gnum ← fetch e.faceGnums p
  let start ← fetch e.faceIndex p
  let stop ← fetch e.faceIndex (p + 1)
  if stop < start ∨ e.faceRefs.length < stop then
    refuse (.connectivity (.parentSpan p start stop e.faceRefs.length))
  let refs ← (← slice e.faceRefs start stop).mapM fun v =>
    match e.chosenVertices.idxOf? v with
    | some i => pure i
    | none => refuse (.selection (.unselectedVertex f v))
  return (gnum, refs)

def takeFace (e : Extract) (m : Mesh) (next : Nat × Nat) : Result Mesh := do
  let (gnum, refs) ← e.face next.2 next.1
  return m.appendFace gnum refs

def mesh (name : String) (e : Extract) : Result Mesh := do
  if e.chosenVertices.length ≠ e.records.length then
    refuse (.selection (.recordCount e.chosenVertices.length e.records.length))
  match firstRepeat [] e.chosenVertices with
  | some v => refuse (.selection (.repeatedVertex v))
  | none => pure ()
  let m ← e.chosenFaces.zipIdx.foldlM e.takeFace { empty name with vertices := e.records }
  return { m with globalFaces := e.globalFaces, globalVertices := e.globalVertices }

end Extract

end Mesh

end Seam
