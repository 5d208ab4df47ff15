import Seam.Mesh.Basic

set_option autoImplicit false

namespace Seam.Mesh

-- Lay one more reference on the face that starts at `start`, unless it repeats the last one of that face.
def extendFrom (start : Nat) (refs : List Nat) (v : Nat) : List Nat :=
  if refs.length = start ∨ refs.getLast? ≠ some v then refs ++ [v] else refs

-- Take off the end what repeats the first reference of the face; a single reference stays.
def closeFrom (start : Nat) (refs : List Nat) : List Nat :=
  if 1 < refs.length - start ∧ refs.getLast? = refs[start]? then closeFrom start refs.dropLast else refs
termination_by refs.length
decreasing_by
  rw [List.length_dropLast]
  omega

-- Lay the collapse of a face behind what has been laid before.
def collapseOnto (laid face : List Nat) : List Nat :=
  let start := laid.length
  closeFrom start (face.foldl (extendFrom start) laid)

structure Collapsing where
  rows : Ragged.Rows Nat
  thin : Option Error

def collapseNext (m : Mesh) (before : Collapsing) (face : List Nat × Nat) : Result Collapsing := do
  let refs := collapseOnto before.rows.items face.1
  let size := refs.length - before.rows.items.length
  let rows := Ragged.Rows.close { before.rows with items := refs }
  if size < 3 then
    let gnum ← fetch m.faceGnums face.2
    return ⟨rows, before.thin <|> some (.degenerateFace face.2 gnum size)⟩
  else return ⟨rows, before.thin⟩

def collapsing : Edit Mesh Nat := do
  let m ← get
  Edit.ofResult m.check
  let faces ← Edit.ofResult m.faces
  let ⟨rows, thin⟩ ← Edit.ofResult (faces.zipIdx.foldlM m.collapseNext ⟨.blank, none⟩)
  if let some cause := thin then throw (.error cause)
  modify fun m => { m with faceIndex := rows.index }
  modify fun m => { m with faceRefs := rows.items }
  return m.faceRefs.length - rows.items.length

def collapse (m : Mesh) : Result (Mesh × Nat) := collapsing.outcome m

end Seam.Mesh
