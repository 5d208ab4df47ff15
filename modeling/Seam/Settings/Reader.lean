import Seam.Json.Reader
import Seam.Settings.Basic

set_option autoImplicit false

/- Settings from a JSON text: an object with the members `num`, `verbosity` and `fraction`, or a list of them in
   this order. What is missing takes the standard value; other members are passed over. -/
namespace Seam.Settings

open Json

def readNatural32 (text : List Char) : Option (Nat × List Char) := do
  match ← readNumber text with
  | (.natural n, rest) => if n < UInt32.size then return (n, rest) else none
  | _ => none

def readInteger32 (text : List Char) : Option (Int × List Char) := do
  match ← readNumber text with
  | (.natural n, rest) => if n < 0x80000000 then return ((n : Int), rest) else none
  | (.negative n, rest) => if n ≤ 0x80000000 then return (-(n : Int), rest) else none
  | _ => none

def readReal (text : List Char) : Option (Binary64 × List Char) := do
  let (number, rest) ← readNumber text
  return (← number.toReal?, rest)

structure Members where
  number : Option Nat
  verbosity : Option Int
  fraction : Option Binary64

def Members.settings (m : Members) : Settings :=
  ⟨m.number.getD standard.number, m.verbosity.getD standard.verbosity, m.fraction.getD standard.fraction⟩

def Members.read (m : Members) (name : String) (text : List Char) : Option (Members × List Char) := do
  if name = "num" then
    guard m.number.isNone
    let (n, rest) ← readNatural32 text
    return ({ m with number := some n }, rest)
  else if name = "verbosity" then
    guard m.verbosity.isNone
    let (n, rest) ← readInteger32 text
    return ({ m with verbosity := some n }, rest)
  else if name = "fraction" then
    guard m.fraction.isNone
    let (x, rest) ← readReal text
    return ({ m with fraction := some x }, rest)
  else return (m, ← skip text)

def readMembers (steps : Nat) (m : Members) (more : Bool) (text : List Char) : Option (Settings × List Char) :=
  match steps with
  | 0 => none
  | steps + 1 =>
      let member (text : List Char) : Option (Settings × List Char) := do
        match text with
        | '"' :: rest =>
            let (name, rest) ← readString (rest.length + 1) [] rest
            match skipBlanks rest with
            | ':' :: rest =>
                let (m, rest) ← m.read (String.ofList name) rest
                readMembers steps m true rest
            | _ => none
        | _ => none
      match skipBlanks text with
      | '}' :: rest => some (m.settings, rest)
      | ',' :: rest => if more then member (skipBlanks rest) else none
      | rest => if more then none else member rest

def readItem {α : Type} (read : List Char → Option (α × List Char)) (standard : α) (more : Bool)
    (text : List Char) : Option (α × Bool × List Char) := do
  match skipBlanks text with
  | ']' :: _ => return (standard, more, text)
  | ',' :: rest =>
      guard more
      let (value, rest) ← read rest
      return (value, true, rest)
  | rest =>
      guard !more
      let (value, rest) ← read rest
      return (value, true, rest)

def readItems (text : List Char) : Option (Settings × List Char) := do
  let (number, more, text) ← readItem readNatural32 standard.number false text
  let (verbosity, more, text) ← readItem readInteger32 standard.verbosity more text
  let (fraction, _, text) ← readItem readReal standard.fraction more text
  match skipBlanks text with
  | ']' :: rest => return (⟨number, verbosity, fraction⟩, rest)
  | _ => none

def read? (text : String) : Option Settings := do
  let (settings, rest) ←
    match skipBlanks text.toList with
    | '{' :: rest => readMembers (rest.length + 1) ⟨none, none, none⟩ false rest
    | '[' :: rest => readItems rest
    | _ => none
  guard (skipBlanks rest).isEmpty
  return settings

end Seam.Settings
