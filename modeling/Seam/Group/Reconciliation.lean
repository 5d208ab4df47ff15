import Seam.Group.AllToAll
import Seam.Mesh.Basic

set_option autoImplicit false

/- Bringing the copies of vertices on all ranks into agreement. All copies of a global number meet on an owner that
   is picked from the number alone, are reduced there, and the result goes back to every contributor. So the
   outcome does not depend on how the copies are spread. -/
namespace Seam

namespace Reconciliation

def copiesTag : UInt16 := 0x5300
def repliesTag : UInt16 := 0x5310

-- Numbers 1, 2, ... are dealt out in blocks, one per rank; the last rank takes what is beyond.
def blockOwner (gnum : UInt64) (block ranks : Nat) : Nat := min ((gnum.toNat - 1) / block) (ranks - 1)

def blockSize (greatest : UInt64) (ranks : Nat) : Nat := max ((greatest.toNat + ranks - 1) / ranks) 1

def greatestGnum (numbers : List UInt64) : UInt64 := numbers.foldl max 0

def routeNext (block ranks : Nat) (routed : List (List Nat)) (next : Vertex × Nat) : Result (List (List Nat)) := do
  let owner := blockOwner next.1.gnum block ranks
  store routed owner ((← fetch routed owner) ++ [next.2])

def route (vertices : List Vertex) (block ranks : Nat) : Result (List (List Nat)) :=
  vertices.zipIdx.foldlM (routeNext block ranks) (List.replicate ranks [])

def encodeAll (lists : List (List Vertex)) : List Bytes × Option Failure :=
  (lists.map fun vertices => (Wire.encodeVertices vertices).toOption.getD [],
   lists.findSome? fun vertices =>
     match Wire.encodeVertices vertices with
     | .error e => some e
     | .ok _ => none)

def decodeAll (messages : List Bytes) : List (List Vertex) × Option Failure :=
  (messages.map fun bytes => (Wire.decodeVertices bytes).toOption.getD [],
   messages.findSome? fun bytes =>
     match Wire.decodeVertices bytes with
     | .error e => some e
     | .ok _ => none)

def foldCopy (r : Reducer) : List (UInt64 × Vertex) → Vertex → List (UInt64 × Vertex)
  | [], v => [(v.gnum, r.combine r.identity v)]
  | (gnum, known) :: rest, v =>
      if gnum = v.gnum then (gnum, r.combine known v) :: rest else (gnum, known) :: foldCopy r rest v

def foldCopies (r : Reducer) (copies : List Vertex) : List (UInt64 × Vertex) := copies.foldl (foldCopy r) []

def overwrite (vertices : List Vertex) (updates : List (Nat × Vertex)) : List Vertex :=
  updates.foldl (fun vertices (i, v) => vertices.set i v) vertices

-- Write the owners' answers back, owner by owner. An answer that does not decode or does not fit ends it; what
-- earlier owners answered stays written.
def writeBack (vertices : List Vertex) : List ((List Nat × Bytes) × Nat) → List Vertex × Result Unit
  | [] => (vertices, .ok ())
  | ((positions, answer), owner) :: rest =>
      match Wire.decodeVertices answer with
      | .error e => (vertices, .error e)
      | .ok records =>
          if records.length = positions.length then writeBack (overwrite vertices (positions.zip records)) rest
          else (vertices, refuse (.wire (.answerCount owner records.length positions.length)))

def collect (contributed all : List Vertex) (block ranks : Nat) : Result (List (List Nat) × List (List Vertex)) := do
  let routed ← route contributed block ranks
  let lists ← routed.mapM fun positions => positions.mapM (fetch all)
  return (routed, lists)

def reply (folded : List (UInt64 × Vertex)) (copies : List Vertex) : List Vertex :=
  copies.map fun v => (folded.lookup v.gnum).getD v

end Reconciliation

open Reconciliation

-- Replace every copy of a global vertex by the reduction of all copies. Gives the mesh as it is left, also when
-- the call fails, and the number of global numbers reduced on this rank.
def reconcile (s : Seat) (r : Reducer) (m : Mesh) : Program (Mesh × Result Nat) := do
  let unnumbered := m.vertices.findIdx? fun v => v.gnum == 0
  let invalid := unnumbered.map fun i => Failure.error (.zeroGnum s.rank i)
  let contributed := if unnumbered.isSome then [] else m.vertices
  match ← (s.gatherWord (greatestGnum (contributed.map Vertex.gnum))).run with
  | .error e => return (m, .error e)
  | .ok greatest =>
      match collect contributed m.vertices (blockSize (greatestGnum greatest) s.ranks) s.ranks with
      | .error e => return (m, .error e)
      | .ok (routed, lists) =>
          let (copies, refused) := encodeAll lists
          let pending := invalid <|> refused
          match ← (s.exchangeBytes copies copiesTag).run with
          | .error e => return (m, .error e)
          | .ok incoming =>
              let (contributions, refused) := decodeAll incoming
              let pending := pending <|> refused
              let folded := foldCopies r contributions.flatten
              let (replies, refused) := encodeAll (contributions.map (reply folded))
              let pending := pending <|> refused
              match ← (s.exchangeBytes replies repliesTag).run with
              | .error e => return (m, .error e)
              | .ok answers =>
                  match pending with
                  | some e => return (m, .error e)
                  | none =>
                      let (vertices, written) := writeBack m.vertices (routed.zip answers).zipIdx
                      return ({ m with vertices }, written.map fun _ => folded.length)

end Seam
