import Seam.Mesh.Basic

set_option autoImplicit false

/- The edges of a mesh. An edge is numbered by its position in `ends`, where it has the direction in which it was
   first met. The couples (far end, edge) stored under a vertex form a row of the vertex index. Signed numbers
   count from 1 and carry the direction of travel. -/
namespace Seam

structure EdgeSet where
  globalEdges : UInt64
  ends : List (Nat × Nat)
  vertexIndex : List Nat
  neighbours : List Nat
  edgeIds : List Nat
deriving DecidableEq, Repr

namespace EdgeSet

def empty : EdgeSet := ⟨0, [], [], [], []⟩

def edgeCount (s : EdgeSet) : Nat := s.ends.length

def vertexCount (s : EdgeSet) : Nat := s.vertexIndex.length - 1

def around (s : EdgeSet) (v : Nat) : Result (List (Nat × Nat)) :=
  if v < s.vertexCount then do
    let far ← Ragged.row s.vertexIndex s.neighbours v
    let ids ← Ragged.row s.vertexIndex s.edgeIds v
    return far.zip ids
  else .ok []

def edgeOf (number : Int) : Result Nat :=
  if number = 0 then .error .outOfBounds else .ok (number.natAbs - 1)

def oriented (s : EdgeSet) (number : Int) : Result (Nat × Nat) :=
  match (if number = 0 then none else s.ends[number.natAbs - 1]?) with
  | none => refuse (.connectivity (.edgeNumber number s.edgeCount))
  | some (a, b) => .ok (if 0 < number then (a, b) else (b, a))

def signedNumber (e : Nat) : Int := Int.bmod (e + 1) UInt64.size

-- The signed number that leads from `a` to `b`: positive along the edge as defined, negative against it.
def number (s : EdgeSet) (a b : Nat) : Result Int := do
  match (← s.around a).find? fun (far, _) => far == b with
  | some (_, e) => return signedNumber e
  | none =>
      match (← s.around b).find? fun (far, _) => far == a with
      | some (_, e) => return Int.bmod (-signedNumber e) UInt64.size
      | none => refuse (.missingEdge a b)

def checkEdge (s : EdgeSet) (e a b : Nat) : Result Unit := do
  if s.vertexCount ≤ a ∨ s.vertexCount ≤ b ∨ a = b then
    refuse (.connectivity (.edgeEnds e a b))
  if (← s.around a).contains (b, e) then return () else refuse (.missingEdge a b)

def check (s : EdgeSet) : Result Unit :=
  if s.neighbours.length ≠ s.edgeCount ∨ s.edgeIds.length ≠ s.edgeCount then
    refuse (.connectivity (.coupleCount s.neighbours.length s.edgeCount))
  else if s.vertexIndex.getLastD 0 ≠ s.neighbours.length then
    refuse (.connectivity .uncoveredCouples)
  else
    s.ends.zipIdx.forM fun ((a, b), e) => s.checkEdge e a b

end EdgeSet

end Seam
