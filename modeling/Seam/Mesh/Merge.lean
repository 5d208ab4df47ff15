import Seam.EdgeSet.Basic
import Seam.Insertions
import Seam.Mesh.Collapse

set_option autoImplicit false

namespace Seam.Mesh

structure Plan where
  newVertices : Nat
  image : List Nat
  insertions : Option Insertions
  table : Option (List Vertex)
deriving DecidableEq, Repr

namespace Plan

def checkImage (p : Plan) (m : Mesh) : Result Unit :=
  if p.image.length ≠ m.vertexCount then refuse (.vertexMap (.length p.image.length m.vertexCount))
  else
    match p.image.zipIdx.find? fun (new, _) => p.newVertices ≤ new with
    | some (new, old) => refuse (.vertexMap (.target old new p.newVertices))
    | none => .ok ()

def checkInsertions (p : Plan) (m : Mesh) (s : EdgeSet) : Result Unit :=
  match p.insertions with
  | none => .ok ()
  | some ins =>
      if s.vertexCount ≠ m.vertexCount then
        refuse (.connectivity (.edgeVertices s.vertexCount m.vertexCount))
      else ins.check s.edgeCount p.newVertices

-- The place of a new vertex takes the record of the old one, unless it has one.
def cover (m : Mesh) (table : List (Option Vertex)) (image : Nat × Nat) : Result (List (Option Vertex)) := do
  let (new, old) := image
  let held ← fetch table new
  let record ← fetch m.vertices old
  store table new (held <|> some record)

def covered (table : List (Option Vertex)) : Result (List Vertex) :=
  table.zipIdx.mapM fun (record, new) =>
    match record with
    | some v => .ok v
    | none => refuse (.uncoveredVertex new)

def vertices (p : Plan) (m : Mesh) : Result (List Vertex) :=
  match p.table with
  | some table =>
      if table.length = p.newVertices then .ok table
      else refuse (.vertexMap (.tableLength table.length p.newVertices))
  | none => do covered (← p.image.zipIdx.foldlM (cover m) (List.replicate p.newVertices none))

def between (p : Plan) (s : EdgeSet) (a b : Nat) : Result (List Nat) :=
  match p.insertions with
  | none => .ok []
  | some ins =>
      if a = b then .ok []
      else do
        let number ← s.number a b
        let planned ← ins.onEdge (← EdgeSet.edgeOf number)
        return if 0 < number then planned else planned.reverse

-- Lay a planned vertex, unless it repeats the last one or the one to come.
def plant (stop : Nat) (refs : List Nat) (v : Nat) : List Nat :=
  if refs.getLast? ≠ some v ∧ v ≠ stop then refs ++ [v] else refs

-- Lay a side of the face that starts at `start`: the image of its first end and what is planned before the second.
def laySideFrom (p : Plan) (s : EdgeSet) (start : Nat) (refs : List Nat) (side : Nat × Nat) : Result (List Nat) := do
  let first ← fetch p.image side.1
  let stop ← fetch p.image side.2
  let refs := extendFrom start refs first
  let planned ← p.between s side.1 side.2
  return planned.foldl (plant stop) refs

def layFaceOnto (p : Plan) (s : EdgeSet) (rows : Ragged.Rows Nat) (face : List Nat) : Result (Ragged.Rows Nat) := do
  let start := rows.items.length
  let refs ← (sides face).foldlM (p.laySideFrom s start) rows.items
  return Ragged.Rows.close { rows with items := closeFrom start refs }

end Plan

def merging (s : EdgeSet) (p : Plan) : Edit Mesh Unit := do
  let m ← get
  Edit.ofResult m.check
  Edit.ofResult (p.checkImage m)
  Edit.ofResult (p.checkInsertions m s)
  let vertices ← Edit.ofResult (p.vertices m)
  let faces ← Edit.ofResult m.faces
  let rows ← Edit.ofResult (faces.foldlM (p.layFaceOnto s) .blank)
  modify fun m => { m with faceIndex := rows.index }
  modify fun m => { m with faceRefs := rows.items }
  modify fun m => { m with vertices }

def merge (m : Mesh) (s : EdgeSet) (p : Plan) : Result Mesh := ((merging s p).outcome m).map Prod.fst

end Seam.Mesh
