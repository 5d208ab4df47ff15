import Seam.Text.Decimal

set_option autoImplicit false

namespace Seam.Json

def isBlank (c : Char) : Bool := c == ' ' || c == '\n' || c == '\t' || c == '\r'
def skipBlanks (text : List Char) : List Char := text.dropWhile isBlank

def isDigit (c : Char) : Bool := '0' ≤ c && c ≤ '9'
def digit (c : Char) : Nat := c.toNat - '0'.toNat

def ofDigits (digits : List Char) : Nat := digits.foldl (fun value c => value * 10 + digit c) 0

inductive Number where
  | natural (n : Nat)
  | negative (n : Nat)
  | real (value : Binary64)
deriving DecidableEq, Repr

def signed (minus : Bool) (magnitude : Decimal.Digits) : Option Binary64 :=
  let value := magnitude.read
  if value = .infinity then none else some (if minus then value.negate else value)

def Number.toReal? : Number → Option Binary64
  | .natural n => signed false ⟨n, 0⟩
  | .negative n => signed true ⟨n, 0⟩
  | .real value => some value

def digitLimit : Nat := 768

-- The digits before and after the point, without the zeros at the two ends that the point puts there. Digits past the
-- limit are not read: a single one stands for all of them, so that a number with more digits lies above a tie.
def significant (whole part : List Char) (power : Int) : Decimal.Digits :=
  let part := (part.reverse.dropWhile (· == '0')).reverse
  let digits := (whole ++ part).dropWhile (· == '0')
  let power := power - part.length
  if digits.length ≤ digitLimit then ⟨ofDigits digits, power⟩
  else ⟨ofDigits (digits.take digitLimit ++ ['1']), power + (digits.drop (digitLimit + 1)).length⟩

def integer (minus : Bool) (n : Nat) : Option Number :=
  if !minus && n < UInt64.size then some (.natural n)
  else if minus && 0 < n && n ≤ 0x8000000000000000 then some (.negative n)
  else (signed minus ⟨n, 0⟩).map .real

def readDigits (text : List Char) : Option (List Char × List Char) :=
  let digits := text.takeWhile isDigit
  if digits.isEmpty then none else some (digits, text.dropWhile isDigit)

def readPower (text : List Char) : Option (Int × List Char) := do
  match text with
  | '+' :: rest => let (digits, rest) ← readDigits rest; return (ofDigits digits, rest)
  | '-' :: rest => let (digits, rest) ← readDigits rest; return (-(ofDigits digits : Int), rest)
  | _ => let (digits, rest) ← readDigits text; return (ofDigits digits, rest)

def readExponent (text : List Char) : Option (Option Int × List Char) :=
  match text with
  | 'e' :: rest => (readPower rest).map fun (power, rest) => (some power, rest)
  | 'E' :: rest => (readPower rest).map fun (power, rest) => (some power, rest)
  | _ => some (none, text)

def readUnsigned (minus : Bool) (text : List Char) : Option (Number × List Char) := do
  let (whole, rest) ← readDigits text
  guard (whole.length = 1 || whole.head? ≠ some '0')
  match rest with
  | '.' :: rest =>
      let (part, rest) ← readDigits rest
      let (power, rest) ← readExponent rest
      return (.real (← signed minus (significant whole part (power.getD 0))), rest)
  | _ =>
      match ← readExponent rest with
      | (some power, rest) => return (.real (← signed minus (significant whole [] power)), rest)
      | (none, rest) => return (← integer minus (ofDigits whole), rest)

def readNumber (text : List Char) : Option (Number × List Char) :=
  match skipBlanks text with
  | '-' :: rest => readUnsigned true rest
  | rest => readUnsigned false rest

end Seam.Json
