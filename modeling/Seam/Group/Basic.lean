import Seam.Program

set_option autoImplicit false

/- A rank's place in its group, and the collective operations on bytes and numbers. Every rank of the group calls
   them in the same order. A rank that fails has still sent everything its peers wait for. -/
namespace Seam

structure Seat where
  rank : Nat
  size : Nat
  isolated : Bool
deriving DecidableEq, Repr

abbrev Collective (α : Type) := ExceptT Failure Program α

namespace Collective

def ofResult {α : Type} (r : Result α) : Collective α := ExceptT.mk (.done r)

def round (tag : UInt16) (legs : List Leg) : Collective (List (Option Bytes)) :=
  ExceptT.mk (.round tag legs fun answers => .done (.ok answers))

end Collective

abbrev Work (σ α : Type) := ExceptT Failure (StateT σ Program) α

namespace Work

variable {σ α : Type}

def ofCollective (c : Collective α) : Work σ α := ExceptT.mk fun old => do return (← c.run, old)

def ofResult (r : Result α) : Work σ α := ofCollective (.ofResult r)

def outcome (work : Work σ α) (old : σ) : Program (Result α × σ) := work.run.run old

def on (work : Work σ Unit) (old : σ) : Collective σ := ExceptT.mk do
  let (result, left) ← work.outcome old
  return result.map fun _ => left

end Work

namespace Seat

def solo : Seat := ⟨0, 1, true⟩

def ranks (s : Seat) : Nat := max s.size 1

def peers (s : Seat) : List Nat := (List.range s.ranks).filter fun r => r ≠ s.rank

def silent (s : Seat) : Bool := s.isolated || s.ranks == 1

def others {α : Type} (s : Seat) (items : List α) : List (Nat × α) :=
  (items.zipIdx.filter fun (_, r) => r ≠ s.rank).map fun (item, r) => (r, item)

def place {α : Type} (s : Seat) (own : α) (others : List α) : List α :=
  others.take s.rank ++ own :: others.drop s.rank

def gatherTag : UInt16 := 0xA110

def checkGathered (expected peer : Nat) : Option Bytes → Result Bytes
  | none => refuse (.link peer .gatherNothing)
  | some data =>
      if data.length = expected then .ok data else refuse (.link peer (.gatherLength expected data.length))

def takeAnswer (length : Nat) (before : Bytes × Option Failure) (next : Nat × Option Bytes) :
    Result (Bytes × Option Failure) :=
  match checkGathered length next.1 next.2 with
  | .ok data => do return (← overlay before.1 (next.1 * length) data, before.2)
  | .error e => return (before.1, before.2 <|> some e)

-- Fill a buffer with the data of every rank, by rank. All ranks give the same number of bytes.
def gathering (s : Seat) (data : Bytes) : Work Bytes Unit := do
  let room := (← get).length
  if room ≠ data.length * s.ranks then throw (.error (.wire (.gatherBuffer room (data.length * s.ranks))))
  set (← Work.ofResult (overlay (← get) (s.rank * data.length) data))
  let answers ← Work.ofCollective (Collective.round gatherTag (s.peers.map fun p => ⟨p, data.length, data⟩))
  let (buffer, failed) ← Work.ofResult ((s.peers.zip answers).foldlM (takeAnswer data.length) (← get, none))
  set buffer
  if let some e := failed then throw e

def gatherInto (s : Seat) (data : Bytes) (length : Nat) : Collective Bytes :=
  (s.gathering data).on (List.replicate length 0)

def barrier (s : Seat) : Collective Unit := do
  let _ ← s.gatherInto [1] s.ranks

def takeRow {α β : Type} (layout : Wire.Layout β) (change : α → β → α) (items : List α) (row : Bytes) : Result (List α) := do
  return zipOver change items ((← Wire.exactChunks layout.size row).map layout.decode)

def summing (s : Seat) : Work (List UInt64) Unit := do
  let values ← get
  let n := values.length
  let buffer ← Work.ofCollective (s.gatherInto (Wire.write Wire.gnum values) (n * 8 * s.ranks))
  modify fun values => values.map fun _ => 0
  if n = 0 then return ()
  let rows ← Work.ofResult (Wire.exactChunks (n * 8) buffer)
  set (← Work.ofResult (rows.foldlM (takeRow Wire.gnum (· + ·)) (← get)))

def sum (s : Seat) (values : List UInt64) : Collective (List UInt64) := s.summing.on values

def gatherWord (s : Seat) (value : UInt64) : Collective (List UInt64) := do
  let buffer ← s.gatherInto (Wire.word value) (8 * s.ranks)
  return (← Collective.ofResult (Wire.exactChunks 8 buffer)).map Wire.ofWord

end Seat

end Seam
