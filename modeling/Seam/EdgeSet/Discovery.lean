import Seam.EdgeSet.Basic

set_option autoImplicit false

namespace Seam.EdgeSet

-- The edges met so far, and under each vertex the couples (far end, edge) of those that start there.
structure Discovery where
  ends : List (Nat × Nat)
  adjacency : List (List (Nat × Nat))

-- A side of non-zero length that is not yet known in either direction becomes an edge.
def meet (d : Discovery) (side : Nat × Nat) : Result Discovery := do
  let (a, b) := side
  if a = b then return d
  let outward ← fetch d.adjacency a
  if outward.any fun couple => couple.1 == b then return d
  let inward ← fetch d.adjacency b
  if inward.any fun couple => couple.1 == a then return d
  return ⟨d.ends ++ [(a, b)], ← store d.adjacency a (outward ++ [(b, d.ends.length)])⟩

def pushCouple (s : EdgeSet) (couple : Nat × Nat) : EdgeSet :=
  { s with neighbours := s.neighbours ++ [couple.1], edgeIds := s.edgeIds ++ [couple.2] }

def appendVertex (s : EdgeSet) (couples : List (Nat × Nat)) : EdgeSet :=
  let s := couples.foldl pushCouple s
  { s with vertexIndex := s.vertexIndex ++ [s.neighbours.length] }

def ofMesh (m : Mesh) : Result EdgeSet := do
  m.check
  let faces ← m.faces
  let found ← faces.foldlM (fun d face => (sides face).foldlM meet d) ⟨[], List.replicate m.vertexCount []⟩
  return found.adjacency.foldl appendVertex ⟨.ofNat found.ends.length, found.ends, [0], [], []⟩

def touch (perEdge : List (List Nat)) (e f : Nat) : Result (List (List Nat)) := do
  let touching ← fetch perEdge e
  return if touching.getLast? = some f then perEdge else perEdge.set e (touching ++ [f])

def touchSides (s : EdgeSet) (f : Nat) (perEdge : List (List Nat)) (refs : List Nat) :
    Result (List (List Nat)) :=
  (sides refs).foldlM (fun perEdge (a, b) =>
    if a = b then pure perEdge
    else do touch perEdge (← edgeOf (← s.number a b)) f) perEdge

def touchingFaces (m : Mesh) (s : EdgeSet) : Result (List (List Nat)) :=
  (List.range m.faceCount).foldlM (fun perEdge f => do s.touchSides f perEdge (← m.face f))
    (List.replicate s.edgeCount [])

def touchingRows (m : Mesh) (s : EdgeSet) : Result (List Nat × List Nat) := do
  let rows := (← touchingFaces m s).foldl Ragged.Rows.append .blank
  return (rows.index, rows.items)

end Seam.EdgeSet
