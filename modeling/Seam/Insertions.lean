import Seam.Ragged

set_option autoImplicit false

/- New vertices planned along edges: row `e` lists those of edge `e`, from its first end to its second. -/
namespace Seam

structure Insertions where
  index : List Nat
  vertices : List Nat
deriving DecidableEq, Repr

namespace Insertions

def blank (edges : Nat) : Insertions := ⟨List.replicate (edges + 1) 0, []⟩

def gather (rows : List (List Nat)) : List (Nat × List Nat) → Result (List (List Nat))
  | [] => .ok rows
  | (e, vertices) :: rest =>
      match rows[e]? with
      | some row => gather (rows.set e (row ++ vertices)) rest
      | none => refuse (.insertions (.edge e rows.length))

def ofPairs (edges : Nat) (pairs : List (Nat × List Nat)) : Result Insertions := do
  let ⟨index, vertices⟩ := (← gather (List.replicate edges []) pairs).foldl Ragged.Rows.append .blank
  return ⟨index, vertices⟩

def edgeCount (ins : Insertions) : Nat := ins.index.length - 1

def onEdge (ins : Insertions) (e : Nat) : Result (List Nat) := Ragged.row ins.index ins.vertices e

def check (ins : Insertions) (edges newVertices : Nat) : Result Unit := do
  if ins.index.length ≠ edges + 1 then refuse (.insertions (.length ins.index.length edges))
  if !(← Ragged.shaped ins.index edges ins.vertices.length) then refuse (.insertions .shape)
  match ins.vertices.find? fun v => newVertices ≤ v with
  | some v => refuse (.insertions (.vertex v newVertices))
  | none => .ok ()

end Insertions

end Seam
