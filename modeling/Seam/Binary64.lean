set_option autoImplicit false

/- IEEE-754 doubles kept as their bit patterns, so that signed zeros, infinities and the sign and payload of a
   NaN survive storage, ordering and transport. `Float` is used only to do arithmetic. -/
namespace Seam

structure Binary64 where
  bits : UInt64
deriving DecidableEq, Repr

namespace Binary64

def infinity : Binary64 := ⟨0x7FF0000000000000⟩
def negInfinity : Binary64 := ⟨0xFFF0000000000000⟩

def ofFloat (value : Float) : Binary64 := ⟨value.toBits⟩
def toFloat (a : Binary64) : Float := Float.ofBits a.bits

def negative (a : Binary64) : Bool := decide (0x8000000000000000 ≤ a.bits)
def magnitude (a : Binary64) : UInt64 := a.bits &&& 0x7FFFFFFFFFFFFFFF
def isNaN (a : Binary64) : Bool := decide (0x7FF0000000000000 < a.magnitude)
def isFinite (a : Binary64) : Bool := decide (a.magnitude < 0x7FF0000000000000)

def negate (a : Binary64) : Binary64 := ⟨a.bits ^^^ 0x8000000000000000⟩

-- The place of a pattern in the total order: negative patterns by falling magnitude, then the others by rising
-- magnitude. Distinct patterns have distinct ranks, so -0 comes before +0 and each NaN has a place of its own.
def rank (a : Binary64) : Nat :=
  if a.negative then 0xFFFFFFFFFFFFFFFF - a.bits.toNat else 0x8000000000000000 + a.bits.toNat

def sameNumber (a b : Binary64) : Bool :=
  !a.isNaN && !b.isNaN && (a.bits == b.bits || (a.magnitude == 0 && b.magnitude == 0))

-- The smaller number; a NaN gives way to the other operand.
def least (a b : Binary64) : Binary64 :=
  if a.isNaN then b else if b.isNaN then a else if b.rank < a.rank then b else a

def quiet (a : Binary64) : Binary64 := ⟨a.bits ||| 0x0008000000000000⟩

-- The NaN that an invalid operation on numbers produces: quiet, negative, empty payload.
def indefinite : Binary64 := ⟨0xFFF8000000000000⟩

-- Product in which a NaN operand comes out quieted, with its sign and payload, the left one first.
def mul (a b : Binary64) : Binary64 :=
  if a.isNaN then a.quiet
  else if b.isNaN then b.quiet
  else
    let product := ofFloat (a.toFloat * b.toFloat)
    if product.isNaN then indefinite else product

end Binary64

end Seam
