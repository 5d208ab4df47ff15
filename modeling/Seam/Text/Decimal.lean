import Seam.Binary64

set_option autoImplicit false

namespace Seam.Decimal

structure Quotient where
  num : Nat
  den : Nat
deriving DecidableEq, Repr

def powerOfTwo (e : Int) : Quotient := if 0 ≤ e then ⟨Nat.pow 2 e.toNat, 1⟩ else ⟨1, Nat.pow 2 (-e).toNat⟩
def powerOfTen (e : Int) : Quotient := if 0 ≤ e then ⟨Nat.pow 10 e.toNat, 1⟩ else ⟨1, Nat.pow 10 (-e).toNat⟩
def Quotient.mul (a b : Quotient) : Quotient := ⟨a.num * b.num, a.den * b.den⟩
def Quotient.scale (a : Quotient) (n : Nat) : Quotient := ⟨a.num * n, a.den⟩
def Quotient.floor (a : Quotient) : Nat := a.num / a.den
def Quotient.lt (a b : Quotient) : Bool := a.num * b.den < b.num * a.den
def Quotient.le (a b : Quotient) : Bool := a.num * b.den ≤ b.num * a.den

def Quotient.round (a : Quotient) : Nat :=
  let low : Nat := a.num / a.den
  let rest := 2 * (a.num % a.den)
  if rest < a.den ∨ (rest = a.den ∧ low % 2 = 0) then low else low + 1

structure Magnitude where
  significand : Nat
  exponent : Int
deriving DecidableEq, Repr

def hiddenBit : Nat := 0x10000000000000

def magnitudeOf (a : Binary64) : Magnitude :=
  let bits := a.magnitude.toNat
  let field : Nat := bits / hiddenBit
  let fraction : Nat := bits % hiddenBit
  if field = 0 then ⟨fraction, -1074⟩ else ⟨fraction + hiddenBit, (field : Int) - 1075⟩

-- The double nearest to a quotient; a half goes to the even neighbour, and what is too large to infinity. Steps
-- of the size `2 ^ exponent` leave 53 bits, or fewer among the smallest doubles. A significand that is rounded up
-- to 54 bits carries into the exponent.
def nearest (a : Quotient) : Binary64 :=
  if a.num = 0 then ⟨0⟩
  else
    let guess : Int := (Nat.log2 a.num : Int) - Nat.log2 a.den
    let leading := if (powerOfTwo guess).le a then guess else guess - 1
    let exponent := max (leading - 52) (-1074)
    let significand := (a.mul (powerOfTwo (-exponent))).round
    let bits := (exponent + 1074).toNat * hiddenBit + significand
    if bits < Binary64.infinity.bits.toNat then ⟨.ofNat bits⟩ else .infinity

def Magnitude.value (m : Magnitude) : Quotient := (powerOfTwo m.exponent).scale m.significand

def decimalLength (n : Nat) : Nat := (Nat.toDigits 10 n).length

def leadingPower (a : Quotient) : Int :=
  let guess : Int := decimalLength a.num - decimalLength a.den
  if (powerOfTen guess).le a then guess else guess - 1

def roundedDigits (places : Nat) (a : Quotient) : Nat × Int :=
  let power := leadingPower a
  let digits := (a.mul (powerOfTen (places - power))).round
  if digits = Nat.pow 10 (places + 1) then (Nat.pow 10 places, power + 1) else (digits, power)

structure Digits where
  digits : Nat
  power : Int
deriving DecidableEq, Repr

def Digits.value (d : Digits) : Quotient := (powerOfTen d.power).scale d.digits

-- The double that the digits stand for. What is far outside the range of doubles is told from its size.
def Digits.read (d : Digits) : Binary64 :=
  let size : Int := decimalLength d.digits + d.power
  if d.digits = 0 ∨ size < -323 then ⟨0⟩
  else if 309 < size then .infinity
  else nearest d.value

def Digits.trim (d : Digits) : Digits :=
  if d.digits ≠ 0 ∧ d.digits % 10 = 0 then trim ⟨d.digits / 10, d.power + 1⟩ else d
termination_by d.digits

structure Interval where
  low : Quotient
  high : Quotient
  closed : Bool

def Magnitude.interval (m : Magnitude) : Interval :=
  let quarter := powerOfTwo (m.exponent - 2)
  let gap := if m.significand = hiddenBit ∧ m.exponent ≠ -1074 then 1 else 2
  ⟨quarter.scale (4 * m.significand - gap), quarter.scale (4 * m.significand + 2), m.significand % 2 == 0⟩

def Interval.holds (i : Interval) (a : Quotient) : Bool :=
  if i.closed then i.low.le a && a.le i.high else i.low.lt a && a.lt i.high

-- Of the two neighbours of the value with its last digit at `power`, the one that reads back, the nearer if both
-- do; a tie goes up.
def neighbour (m : Magnitude) (power : Int) : Option Digits :=
  let value := m.value
  let below := (value.mul (powerOfTen (-power))).floor
  let low : Digits := ⟨below, power⟩
  let high : Digits := ⟨below + 1, power⟩
  let middle := (powerOfTen power).mul ⟨2 * below + 1, 2⟩
  match m.interval.holds low.value, m.interval.holds high.value with
  | true, true => some (if value.lt middle then low else high)
  | true, false => some low
  | false, true => some high
  | false, false => none

def shortest (m : Magnitude) : Digits :=
  let power := leadingPower m.value
  match (List.range 17).findSome? fun more : Nat => neighbour m (power - more) with
  | some found => found.trim
  | none => ⟨m.significand, 0⟩

end Seam.Decimal
