import Seam.EdgeSet.Basic

set_option autoImplicit false

namespace Seam.Mesh

def shorten (lengths : List Binary64) (v : Nat) (len : Binary64) : Result (List Binary64) := do
  store lengths v ((← fetch lengths v).least len)

def shortenEnds (m : Mesh) (lengths : List Binary64) (ends : Nat × Nat) : Result (List Binary64) := do
  let len := (← fetch m.vertices ends.1).distance (← fetch m.vertices ends.2)
  shorten (← shorten lengths ends.1 len) ends.2 len

def shortest (m : Mesh) (s : EdgeSet) : Result (List Binary64) :=
  s.ends.foldlM m.shortenEnds (List.replicate m.vertexCount .infinity)

def isFraction (fraction : Binary64) : Bool :=
  fraction.isFinite && (!fraction.negative || fraction.magnitude == 0)

def scaleTolerance (fraction : Binary64) (v : Vertex) (len : Binary64) : Vertex :=
  if len.isFinite then { v with tolerance := fraction.mul len } else v

def settingTolerances (s : EdgeSet) (fraction : Binary64) : Edit Mesh Unit := do
  let m ← get
  if s.vertexCount ≠ m.vertexCount then
    throw (.error (.connectivity (.edgeVertices s.vertexCount m.vertexCount)))
  let lengths ← Edit.ofResult (m.shortest s)
  modify fun m => { m with vertices := List.zipWith (scaleTolerance fraction) m.vertices lengths }

def setTolerances (m : Mesh) (s : EdgeSet) (fraction : Binary64) : Result Mesh :=
  ((settingTolerances s fraction).outcome m).map Prod.fst

end Seam.Mesh
