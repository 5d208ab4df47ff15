import Seam.Assembly
import Seam.Group.AllToAll

set_option autoImplicit false

namespace Seam

structure Shipment where
  index : List Nat
  faces : List Nat
deriving DecidableEq, Repr

namespace Shipment

def check (p : Shipment) (ranks : Nat) (m : Mesh) : Result Unit := do
  if p.index.length ≠ ranks + 1 then refuse (.rankIndex (.sendLength p.index.length ranks))
  if !(← Ragged.shaped p.index ranks p.faces.length) then refuse (.rankIndex .sendShape)
  match p.faces.find? fun f => m.faceCount ≤ f with
  | some f => refuse (.selection (.sentFace f m.faceCount))
  | none => m.check

def messages (p : Shipment) (ranks : Nat) (m : Mesh) : Result (List Bytes) := do
  p.check ranks m
  (List.range ranks).mapM fun r => do m.encodeFaces (← Ragged.row p.index p.faces r)

end Shipment

def facesTag : UInt16 := 0x4A10

-- Every rank sends faces of a mesh, and replaces a mesh by what it gets, by source rank and then in the order sent.
-- A rank whose shipment is refused still takes part, with empty messages. The replaced mesh keeps its name.
def shipping (s : Seat) (p : Shipment) (m : Mesh) : Work Mesh Unit := do
  let messages := p.messages s.ranks m
  let received ← Work.ofCollective (s.exchangeBytes (messages.toOption.getD (List.replicate s.ranks [])) facesTag)
  let _ ← Work.ofResult messages
  let name := (← get).name
  let assembly ← Work.ofResult (Assembly.empty.decodeAll received)
  set { assembly.mesh name with globalFaces := m.globalFaces, globalVertices := m.globalVertices }

def ship (s : Seat) (p : Shipment) (m : Mesh) (name : String) : Collective Mesh := (shipping s p m).on (.empty name)

namespace Selection

-- The length of the longest front part of a sorted list on which `holds` is true, by halving; on other lists
-- the point where halving ends.
def halve (index : List UInt64) (holds : UInt64 → Bool) (base size : Nat) : Nat :=
  if 1 < size then
    let middle := base + size / 2
    let base := if (index[middle]?.map holds).getD false then middle else base
    halve index holds base (size - size / 2)
  else if (index[base]?.map holds).getD false then base + 1 else base
termination_by size

-- The rank that owns global element `gnum`, where rank `r` owns the elements above `index[r]` up to
-- `index[r + 1]`.
def owner (gnum : UInt64) (index : List UInt64) : Option Nat := do
  let first ← index.head?
  let last ← index.getLast?
  if gnum ≤ first ∨ last < gnum then none
  else some (halve index (fun x => x < gnum) 0 index.length - 1)

def check (selection index : List UInt64) (ranks : Nat) : Result Unit := do
  if index.length ≠ ranks + 1 then refuse (.rankIndex (.length index.length ranks))
  match Ragged.firstBreak (fun a b => a ≤ b) index with
  | some (_, first, second) => refuse (.rankIndex (.decrease first second))
  | none => pure ()
  match Ragged.firstBreak (fun a b => a < b) selection with
  | some (_, first, second) => refuse (.selection (.globalOrder first second))
  | none => pure ()

def serve (me requester : Nat) (requests index : List UInt64) (m : Mesh) : Result (List Nat) := do
  let base ← fetch index me
  let top ← fetch index (me + 1)
  requests.mapM fun gnum =>
    let face := (gnum - (base + 1)).toNat
    if base < gnum ∧ gnum ≤ top ∧ face < m.faceCount then .ok face
    else refuse (.faceNotOwned me requester gnum)

def encodeRequests : List UInt64 → Result Bytes := Wire.encodeList Wire.gnum Wire.requestKind

def decodeRequests (bytes : Bytes) : Result (List UInt64) :=
  if bytes = [] then .ok [] else Wire.decodeList Wire.gnum Wire.requestKind bytes

def requestTag : UInt16 := 0x4A00

def routeNext (me : Nat) (index : List UInt64) (requests : List (List UInt64)) (gnum : UInt64) :
    Result (List (List UInt64)) :=
  match owner gnum index with
  | some rank => do store requests rank ((← fetch requests rank) ++ [gnum])
  | none => refuse (.unresolvedOwner me gnum)

def route (me ranks : Nat) (selection index : List UInt64) : Result (List (List UInt64)) :=
  selection.foldlM (routeNext me index) (List.replicate ranks [])

def pick (name : String) (selection index : List UInt64) (m : Mesh) : Result Mesh := do
  m.check
  let faces ← serve 0 0 selection index m
  let assembly ← faces.foldlM (fun a f => do
    return a.addFace (← fetch m.faceGnums f) (← m.records (← m.face f))) Assembly.empty
  return assembly.mesh name

-- Refused requests are answered with nothing, and the first reason is kept.
def answerNext (me : Nat) (index : List UInt64) (m : Mesh) (before : Ragged.Rows Nat × Option Failure)
    (next : Bytes × Nat) : Ragged.Rows Nat × Option Failure :=
  let served := do
    serve me next.2 (← decodeRequests next.1) index m
  match served with
  | .ok faces => (before.1.append faces, before.2)
  | .error e => (before.1.close, before.2 <|> some e)

def answer (me : Nat) (incoming : List Bytes) (index : List UInt64) (m : Mesh) : Shipment × Option Failure :=
  let (rows, refused) := incoming.zipIdx.foldl (answerNext me index m) (.blank, none)
  (⟨rows.index, rows.items⟩, refused)

-- How a selection went: how many faces were sent and which mesh was put together from those received, if the
-- exchange of faces came to an end, and the mesh that the call gives.
structure Outcome where
  shipped : Option (Nat × Mesh)
  mesh : Result Mesh

def Outcome.failed (e : Failure) : Outcome := ⟨none, .error e⟩

end Selection

open Selection

-- Put together the faces of a global selection, in its order, on each rank a selection of its own. Reasons to fail
-- are held back until every rank has what it waits for.
def select (s : Seat) (name : String) (selection index : List UInt64) (m : Mesh) : Program Outcome := do
  let checked := Selection.check selection index s.ranks
  if s.silent then
    return ⟨none, checked.bind fun _ => pick name selection index m⟩
  let indexed := checked.toOption.isSome
  let routed := checked.bind fun _ => route s.rank s.ranks selection index
  let (requests, pending) :=
    match routed with
    | .ok requests => (requests, none)
    | .error e => (List.replicate s.ranks [], some e)
  let encoded := requests.map encodeRequests
  let messages := encoded.map fun message => message.toOption.getD []
  let pending := pending <|> encoded.findSome? fun message =>
    match message with
    | .error e => some e
    | .ok _ => none
  match ← (s.exchangeBytes messages requestTag).run with
  | .error e => return .failed e
  | .ok incoming =>
      let (shipment, refused) :=
        if indexed then answer s.rank incoming index m
        else (⟨List.replicate (s.ranks + 1) 0, []⟩, none)
      let pending := pending <|> refused
      match ← (ship s shipment m name).run with
      | .error e => return .failed e
      | .ok mesh =>
          let shipped := some (shipment.faces.length, mesh)
          match pending with
          | some e => return ⟨shipped, .error e⟩
          | none =>
              if mesh.faceCount ≠ selection.length then
                return ⟨shipped, refuse (.selection (.incomplete s.rank mesh.faceCount selection.length))⟩
              else return ⟨shipped, .ok mesh.withLocalCounts⟩

end Seam
