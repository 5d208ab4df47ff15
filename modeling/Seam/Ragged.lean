import Seam.Error

set_option autoImplicit false

/- Rows of varying length stored as one list of items and an index of row boundaries: row `i` is the span of the
   items from `index[i]` up to `index[i + 1]`. -/
namespace Seam.Ragged

variable {α : Type}

def row (index : List Nat) (items : List α) (i : Nat) : Result (List α) := do
  let start ← fetch index i
  let stop ← fetch index (i + 1)
  slice items start stop

def firstBreak (allowed : α → α → Bool) : List α → Option (Nat × α × α)
  | a :: b :: rest =>
      if allowed a b then (firstBreak allowed (b :: rest)).map fun (position, pair) => (position + 1, pair)
      else some (0, a, b)
  | _ => none

def shaped (index : List Nat) (rows items : Nat) : Result Bool := do
  if (← fetch index 0) ≠ 0 then return false
  if (firstBreak (fun a b => a ≤ b) index).isSome then return false
  return (← fetch index rows) == items

structure Rows (α : Type) where
  index : List Nat
  items : List α

namespace Rows

def blank : Rows α := ⟨[0], []⟩

def close (rows : Rows α) : Rows α := { rows with index := rows.index ++ [rows.items.length] }

def append (rows : Rows α) (row : List α) : Rows α := close { rows with items := rows.items ++ row }

end Rows

end Seam.Ragged
