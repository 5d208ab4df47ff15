import Seam.Mesh.Basic

set_option autoImplicit false

namespace Seam.Mesh

def vertexLe (a b : Vertex) : Bool :=
  if a.gnum = b.gnum then a.compare b != .gt else a.gnum < b.gnum

def orderedVertices (m : Mesh) : List (Vertex × Nat) :=
  m.vertices.zipIdx.mergeSort fun a b => vertexLe a.1 b.1

-- Take in one more of the ordered records. The first one of each run of a global number is kept, and the places of all
-- of the run are its place.
def mergeRun (before : List Vertex × List Nat) (next : Vertex × Nat) : Result (List Vertex × List Nat) := do
  let (kept, places) := before
  let kept := if kept.getLast?.map Vertex.gnum = some next.1.gnum then kept else kept ++ [next.1]
  return (kept, ← store places next.2 (kept.length - 1))

def redirect (places : List Nat) (i : Nat) : Edit Mesh Unit := do
  let m ← get
  let v ← Edit.ofResult (fetch m.faceRefs i)
  let place ← Edit.ofResult (fetch places v)
  modify fun m => { m with faceRefs := m.faceRefs.set i place }

def compacting : Edit Mesh Nat := do
  let m ← get
  Edit.ofResult m.check
  let used ← Edit.ofResult (marked m.vertexCount m.faceRefs)
  let ordered ← Edit.ofResult (m.orderedVertices.filterM fun (_, v) => fetch used v)
  let (vertices, places) ← Edit.ofResult (ordered.foldlM mergeRun ([], List.replicate m.vertexCount unplaced))
  (List.range m.faceRefs.length).forM (redirect places)
  modify fun m => { m with vertices }
  return m.vertexCount - vertices.length

def compact (m : Mesh) : Result (Mesh × Nat) := compacting.outcome m

end Seam.Mesh
