import Seam.Binary64

set_option autoImplicit false

namespace Seam

structure Point where
  x : Binary64
  y : Binary64
  z : Binary64
deriving DecidableEq, Repr

structure Vertex where
  gnum : UInt64
  tolerance : Binary64
  coord : Point
deriving DecidableEq, Repr

namespace Vertex

-- Tolerance first, then global number, then coordinates. Only identical patterns compare equal.
def compare : Vertex → Vertex → Ordering :=
  compareLex (compareOn fun v => v.tolerance.rank) <|
  compareLex (compareOn fun v => v.gnum.toNat) <|
  compareLex (compareOn fun v => v.coord.x.rank) <|
  compareLex (compareOn fun v => v.coord.y.rank) (compareOn fun v => v.coord.z.rank)

def sameNumbers (a b : Vertex) : Bool :=
  a.gnum == b.gnum && a.tolerance.sameNumber b.tolerance && a.coord.x.sameNumber b.coord.x &&
    a.coord.y.sameNumber b.coord.y && a.coord.z.sameNumber b.coord.z

def distance (a b : Vertex) : Binary64 :=
  let dx := a.coord.x.toFloat - b.coord.x.toFloat
  let dy := a.coord.y.toFloat - b.coord.y.toFloat
  let dz := a.coord.z.toFloat - b.coord.z.toFloat
  .ofFloat (dx * dx + dy * dy + dz * dz).sqrt

end Vertex

-- Keep the least or the greatest record of a collection.
inductive Reducer where
  | least
  | greatest
deriving DecidableEq, Repr

namespace Reducer

def identity : Reducer → Vertex
  | .least => ⟨0xFFFFFFFFFFFFFFFF, .infinity, ⟨.infinity, .infinity, .infinity⟩⟩
  | .greatest => ⟨0, .negInfinity, ⟨.negInfinity, .negInfinity, .negInfinity⟩⟩

def combine (r : Reducer) (a b : Vertex) : Vertex :=
  match r with
  | .least => if a.compare b = .gt then b else a
  | .greatest => if a.compare b = .lt then b else a

def reduce (r : Reducer) (records : List Vertex) : Vertex :=
  records.foldl r.combine r.identity

end Reducer

end Seam
