import Seam.Text.Decimal

set_option autoImplicit false

namespace Seam.Text

def padLeft (width : Nat) (text : String) : String :=
  String.ofList (List.replicate (width - text.length) ' ') ++ text

def zeros (n : Nat) : String := String.ofList (List.replicate n '0')

inductive Signs where
  | negativeOnly
  | always

def sign (signs : Signs) (negative : Bool) : String :=
  if negative then "-"
  else
    match signs with
    | .negativeOnly => ""
    | .always => "+"

def special (signs : Signs) (a : Binary64) : String :=
  if a.isNaN then "NaN" else sign signs a.negative ++ "inf"

def places : Nat := 6

-- One digit before the point and six after it, a half going to the even digit, then the power of ten without
-- padding.
def scientific (signs : Signs) (a : Binary64) : String :=
  if !a.isFinite then special signs a
  else
    let magnitude := Decimal.magnitudeOf a
    let (digits, power) :=
      if magnitude.significand = 0 then (0, (0 : Int)) else Decimal.roundedDigits places magnitude.value
    let lead := digits / Nat.pow 10 places
    let rest := toString (digits % Nat.pow 10 places)
    let tail := zeros (places - rest.length) ++ rest
    sign signs a.negative ++ s!"{lead}.{tail}e{power}"

def positional (a : Binary64) : String :=
  if !a.isFinite then special .negativeOnly a
  else
    let magnitude := Decimal.magnitudeOf a
    let text :=
      if magnitude.significand = 0 then "0"
      else
        let shortest := Decimal.shortest magnitude
        let digits := toString shortest.digits
        if 0 ≤ shortest.power then digits ++ zeros shortest.power.toNat
        else
          let places := (-shortest.power).toNat
          let digits := zeros (places + 1 - digits.length) ++ digits
          String.ofList (digits.toList.take (digits.length - places)) ++ "." ++
            String.ofList (digits.toList.drop (digits.length - places))
    sign .negativeOnly a.negative ++ text

end Seam.Text
