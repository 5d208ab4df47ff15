import Seam.EdgeSet.Basic
import Seam.Text.Number
import Seam.Text.Quoted

set_option autoImplicit false

namespace Seam

open Text

def Vertex.describe (v : Vertex) : String :=
  let number := padLeft 10 (toString v.gnum)
  let x := scientific .always v.coord.x
  let y := scientific .always v.coord.y
  let z := scientific .always v.coord.z
  let tolerance := scientific .negativeOnly v.tolerance
  s!"{number} | [{x}, {y}, {z}] | tol {tolerance}"

abbrev Listing := List (Result String)

namespace Listing

def wide (n : Nat) : String := padLeft 6 (toString n)

def ofVertex (v : Vertex) : Listing := [.ok (v.describe ++ "\n")]

def faceRef (m : Mesh) (v : Nat) : String :=
  match m.vertices[v]? with
  | some record => s!" {record.gnum}"
  | none => s!" <{v}?>"

def faceLine (m : Mesh) (gnum : UInt64) (f : Nat) : Result String := do
  let refs ← m.face f
  let number := padLeft 10 (toString gnum)
  let size := padLeft 3 (toString refs.length)
  return s!"  face {wide f} (gnum {number}) n_vtx {size} |" ++ String.join (refs.map (faceRef m)) ++ "\n"

def ofMesh (m : Mesh) : Listing :=
  [.ok ("mesh " ++ quoted m.name ++ "\n"),
   .ok s!"  faces: {m.faceCount} local / {m.globalFaces} global\n",
   .ok s!"  vertices: {m.vertexCount} local / {m.globalVertices} global\n"] ++
  m.faceGnums.zipIdx.map (fun (gnum, f) => faceLine m gnum f) ++
  m.vertices.zipIdx.map fun (v, i) => .ok (s!"  vtx {wide i} " ++ v.describe ++ "\n")

def gnumOf (m : Mesh) (v : Nat) : UInt64 := (m.vertices[v]?.map Vertex.gnum).getD 0

def lengthOf (m : Mesh) (a b : Nat) : Binary64 :=
  match m.vertices[a]?, m.vertices[b]? with
  | some va, some vb => va.distance vb
  | _, _ => .indefinite

def edgeLine (m : Mesh) (e a b : Nat) : String :=
  let length := scientific .negativeOnly (lengthOf m a b)
  s!"  edge {wide (e + 1)}: ({wide a}, {wide b}) gnum ({gnumOf m a}, {gnumOf m b}) length {length}\n"

def aroundLine (s : EdgeSet) (v : Nat) : Result String := do
  let couples ← s.around v
  if couples.isEmpty then return ""
  let shown := couples.map fun (far, e) => s!"{far}:{UInt64.ofNat e + 1}"
  return s!"  vtx {wide v} -> " ++ " ".intercalate shown ++ "\n"

def ofEdges (s : EdgeSet) (m : Mesh) : Listing :=
  [.ok s!"edges: {s.edgeCount} local / {s.globalEdges} global\n"] ++
  s.ends.zipIdx.map (fun ((a, b), e) => .ok (edgeLine m e a b)) ++
  (List.range s.vertexCount).map (aroundLine s)

def text : Listing → Result String
  | [] => .ok ""
  | line :: rest => do return (← line) ++ (← text rest)

-- Write to a sink that takes `limit` bytes and fails as soon as there are more.
def textWithin (limit : Nat) : Listing → Result String
  | [] => .ok ""
  | line :: rest => do
      let line ← line
      if limit < line.utf8ByteSize then refuse .sinkFull
      return line ++ (← textWithin (limit - line.utf8ByteSize) rest)

end Listing

end Seam
