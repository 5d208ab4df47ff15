import Seam.Mesh.Compact

set_option autoImplicit false

namespace Seam.Mesh

structure NumberedFace where
  gnum : UInt64
  refs : List Nat
  vertexGnums : List UInt64
deriving DecidableEq, Repr

def numberedFaces (m : Mesh) : Result (List NumberedFace) :=
  m.faceGnums.zipIdx.mapM fun (gnum, f) => do
    let refs ← m.face f
    let vertices ← m.records refs
    return ⟨gnum, refs, vertices.map Vertex.gnum⟩

def places (size : Nat) (ordered : List (Vertex × Nat)) : Result (List Nat) :=
  ordered.zipIdx.foldlM (fun places ((_, old), new) => store places old new) (List.replicate size 0)

structure Arranging where
  gnums : List UInt64
  rows : Ragged.Rows Nat
  last : Option NumberedFace
  dropped : Nat

-- A face with the number of the last one has to have the same vertex numbers in the same sequence, and is dropped.
def arrangeNext (places : List Nat) (before : Arranging) (face : NumberedFace) : Result Arranging :=
  match before.last.filter fun last => last.gnum = face.gnum with
  | some last =>
      if last.vertexGnums = face.vertexGnums then .ok { before with dropped := before.dropped + 1 }
      else refuse (.inconsistentFace face.gnum)
  | none => do
      let refs ← face.refs.mapM (fetch places)
      return ⟨before.gnums ++ [face.gnum], before.rows.append refs, some face, before.dropped⟩

def arranging : Edit Mesh Nat := do
  let m ← get
  Edit.ofResult m.check
  let ordered := m.orderedVertices
  let places ← Edit.ofResult (places m.vertexCount ordered)
  let faces ← Edit.ofResult m.numberedFaces
  let faces := faces.mergeSort fun a b => a.gnum ≤ b.gnum
  let ⟨faceGnums, rows, _, dropped⟩ ← Edit.ofResult (faces.foldlM (arrangeNext places) ⟨[], .blank, none, 0⟩)
  modify fun m => { m with vertices := ordered.map Prod.fst }
  modify fun m => { m with faceGnums }
  modify fun m => { m with faceIndex := rows.index }
  modify fun m => { m with faceRefs := rows.items }
  return dropped

def canonical (m : Mesh) : Result (Mesh × Nat) := arranging.outcome m

end Seam.Mesh
