import Seam.EdgeSet.Basic
import Seam.Group.Basic

set_option autoImplicit false

namespace Seam

namespace Seat

-- Entry by entry reduction of the lists of all ranks, which must be equally long.
def reduceRecords (s : Seat) (r : Reducer) (records : List Vertex) : Collective (List Vertex) := do
  let own := UInt64.ofNat records.length
  let lengths ← s.gatherWord own
  if let some other := lengths.find? fun n => n ≠ own then
    throw (.error (.wire (.reduceCount records.length other)))
  let data := Wire.write Wire.vertex records
  let buffer ← s.gatherInto data (data.length * s.ranks)
  let rows ← Collective.ofResult (Wire.exactChunks (max data.length 1) buffer)
  Collective.ofResult (rows.foldlM (takeRow Wire.vertex r.combine) (List.replicate records.length r.identity))

end Seat

structure ToleranceRange where
  least : Vertex
  greatest : Vertex
deriving DecidableEq, Repr

def toleranceRange (s : Seat) (m : Mesh) : Collective (Option ToleranceRange) := do
  let total ← s.sum [.ofNat m.vertexCount]
  if (← Collective.ofResult (fetch total 0)) = 0 then return none
  let least ← s.reduceRecords .least [Reducer.least.reduce m.vertices]
  let least ← Collective.ofResult (fetch least 0)
  let greatest ← s.reduceRecords .greatest [Reducer.greatest.reduce m.vertices]
  let greatest ← Collective.ofResult (fetch greatest 0)
  return some ⟨least, greatest⟩

def countingGlobally (s : Seat) : Work EdgeSet Unit := do
  let total ← Work.ofCollective (s.sum [.ofNat (← get).edgeCount])
  let n ← Work.ofResult (fetch total 0)
  modify fun e => { e with globalEdges := n }

def EdgeSet.countGlobally (e : EdgeSet) (s : Seat) : Collective EdgeSet := (countingGlobally s).on e

end Seam
