import Seam.Group.Basic

set_option autoImplicit false

namespace Seam.Seat

def checkSize (peer : Nat) : Option Bytes → Result Nat
  | none => refuse (.link peer .sizeNothing)
  | some data =>
      if data.length = Wire.count.size then .ok (Wire.count.decode data)
      else refuse (.link peer (.sizeLength Wire.count.size data.length))

def announced (n : Nat) : Nat := if n < UInt32.size then n else 0

def firstWide (counts : List Nat) : Option Nat := counts.find? fun n => UInt32.size ≤ n

-- Tell each rank its number and learn the numbers it tells. A number too wide for the wire is announced as 0 and
-- fails the call after the round; the own number does not travel.
def exchangeCounts (s : Seat) (counts : List Nat) (tag : UInt16) : Collective (List Nat) := do
  if counts.length ≠ s.ranks then throw (.error (.wire (.sizeCounts counts.length s.ranks)))
  let own ← Collective.ofResult (fetch counts s.rank)
  if s.silent then return s.place own (s.peers.map fun _ => 0)
  let others := s.others counts
  let answers ← Collective.round tag
    (others.map fun (p, n) => ⟨p, Wire.count.size, Wire.count.encode (announced n)⟩)
  if let some wide := firstWide (others.map Prod.snd) then throw (.error (.wire (.wideCount wide)))
  let told ← Collective.ofResult ((others.zip answers).mapM fun ((p, _), a) => checkSize p a)
  return s.place own told

def checkPayload (peer expected : Nat) : Option Bytes → Result Bytes
  | none => if expected = 0 then .ok [] else refuse (.link peer .payloadNothing)
  | some data =>
      if data.length = expected then .ok data else refuse (.link peer (.payloadLength expected data.length))

-- Send buffer `r` to rank `r`; gives what every rank sent here. A buffer whose length no count can tell travels
-- empty and fails the call after the exchange.
def exchangeBytes (s : Seat) (buffers : List Bytes) (tag : UInt16) : Collective (List Bytes) := do
  let wide := firstWide (buffers.map List.length)
  let buffers := buffers.map fun b => if b.length < UInt32.size then b else []
  let sizes ← s.exchangeCounts (buffers.map List.length) tag
  let own ← Collective.ofResult (fetch buffers s.rank)
  if s.silent then
    if let some n := wide then throw (.error (.wire (.wideCount n)))
    return s.place own (s.peers.map fun _ => [])
  let legs := List.zipWith (fun (p, size) (_, data) => (⟨p, size, data⟩ : Leg)) (s.others sizes) (s.others buffers)
  let answers ← Collective.round (tag + 1) legs
  if let some n := wide then throw (.error (.wire (.wideCount n)))
  let received ← Collective.ofResult
    ((legs.zip answers).mapM fun (leg, a) => checkPayload leg.peer leg.expected a)
  return s.place own received

end Seam.Seat
