import Seam.Json.Number

set_option autoImplicit false

namespace Seam.Json

def hexDigit (c : Char) : Option Nat :=
  if isDigit c then some (digit c)
  else if 'a' ≤ c && c ≤ 'f' then some (c.toNat - 'a'.toNat + 10)
  else if 'A' ≤ c && c ≤ 'F' then some (c.toNat - 'A'.toNat + 10)
  else none

def readHex (text : List Char) : Option (Nat × List Char) :=
  match text with
  | a :: b :: c :: d :: rest => do
      return (((← hexDigit a) * 16 + (← hexDigit b)) * 256 + ((← hexDigit c) * 16 + (← hexDigit d)), rest)
  | _ => none

def simpleEscape (c : Char) : Option Char :=
  match c with
  | '"' => some '"'
  | '\\' => some '\\'
  | '/' => some '/'
  | 'b' => some '\x08'
  | 'f' => some '\x0c'
  | 'n' => some '\n'
  | 'r' => some '\r'
  | 't' => some '\t'
  | _ => none

def readUnicode (text : List Char) : Option (Char × List Char) := do
  let (unit, rest) ← readHex text
  if 0xDC00 ≤ unit ∧ unit ≤ 0xDFFF then none
  else if 0xD800 ≤ unit ∧ unit ≤ 0xDBFF then
    match rest with
    | '\\' :: 'u' :: rest =>
        let (low, rest) ← readHex rest
        guard (0xDC00 ≤ low && low ≤ 0xDFFF)
        return (Char.ofNat ((unit - 0xD800) * 1024 + (low - 0xDC00) + 0x10000), rest)
    | _ => none
  else return (Char.ofNat unit, rest)

def readString (steps : Nat) (sofar : List Char) (text : List Char) : Option (List Char × List Char) :=
  match steps, text with
  | 0, _ => none
  | _, [] => none
  | steps + 1, c :: rest =>
      if c = '"' then some (sofar.reverse, rest)
      else if c = '\\' then
        match rest with
        | 'u' :: rest => do
            let (c, rest) ← readUnicode rest
            readString steps (c :: sofar) rest
        | e :: rest => do
            let c ← simpleEscape e
            readString steps (c :: sofar) rest
        | [] => none
      else if c.toNat < 0x20 then none
      else readString steps (c :: sofar) rest

def skipString (steps : Nat) (text : List Char) : Option (List Char) :=
  match steps, text with
  | 0, _ => none
  | _, [] => none
  | steps + 1, c :: rest =>
      if c = '"' then some rest
      else if c = '\\' then
        match rest with
        | 'u' :: rest => do
            let (_, rest) ← readHex rest
            skipString steps rest
        | e :: rest => do
            let _ ← simpleEscape e
            skipString steps rest
        | [] => none
      else if c.toNat < 0x20 then none
      else skipString steps rest

def skipDigits (text : List Char) : Option (List Char) :=
  if (text.head?.map isDigit).getD false then some (text.dropWhile isDigit) else none

def skipExponent (text : List Char) : Option (List Char) :=
  match text with
  | '+' :: rest => skipDigits rest
  | '-' :: rest => skipDigits rest
  | _ => skipDigits text

def skipTail (text : List Char) : Option (List Char) :=
  match text with
  | 'e' :: rest => skipExponent rest
  | 'E' :: rest => skipExponent rest
  | _ => some text

def skipUnsigned (text : List Char) : Option (List Char) := do
  let rest ←
    match text with
    | '0' :: rest => if (rest.head?.map isDigit).getD false then none else some rest
    | _ => skipDigits text
  match rest with
  | '.' :: rest => skipTail (← skipDigits rest)
  | _ => skipTail rest

mutual

-- `steps` bounds the depth of calls.
def skipValue (steps : Nat) (text : List Char) : Option (List Char) :=
  match steps with
  | 0 => none
  | steps + 1 =>
      match skipBlanks text with
      | 'n' :: 'u' :: 'l' :: 'l' :: rest => some rest
      | 't' :: 'r' :: 'u' :: 'e' :: rest => some rest
      | 'f' :: 'a' :: 'l' :: 's' :: 'e' :: rest => some rest
      | '-' :: rest => skipUnsigned rest
      | '"' :: rest => skipString (rest.length + 1) rest
      | '[' :: rest =>
          match skipBlanks rest with
          | ']' :: rest => some rest
          | rest => skipItems steps rest
      | '{' :: rest =>
          match skipBlanks rest with
          | '}' :: rest => some rest
          | rest => skipMembers steps rest
      | rest => skipUnsigned rest

def skipItems (steps : Nat) (text : List Char) : Option (List Char) :=
  match steps with
  | 0 => none
  | steps + 1 => do
      match skipBlanks (← skipValue steps text) with
      | ',' :: rest => skipItems steps rest
      | ']' :: rest => some rest
      | _ => none

def skipMembers (steps : Nat) (text : List Char) : Option (List Char) :=
  match steps with
  | 0 => none
  | steps + 1 =>
      match skipBlanks text with
      | '"' :: rest => do
          match skipBlanks (← skipString (rest.length + 1) rest) with
          | ':' :: rest =>
              match skipBlanks (← skipValue steps rest) with
              | ',' :: rest => skipMembers steps rest
              | '}' :: rest => some rest
              | _ => none
          | _ => none
      | _ => none

end

def skip (text : List Char) : Option (List Char) := skipValue (2 * text.length + 2) text

end Seam.Json
