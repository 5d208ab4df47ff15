import Seam.Wire

set_option autoImplicit false

namespace Seam

structure Route where
  source : Nat
  target : Nat
  tag : UInt16
deriving DecidableEq, Repr

def Route.compare : Route → Route → Ordering :=
  compareLex (compareOn Route.source) <|
  compareLex (compareOn Route.target) (compareOn fun r => r.tag.toNat)

abbrev Mailbox := List (Route × Bytes)

namespace Mailbox

def queue (box : Mailbox) (route : Route) : List Bytes :=
  (box.filter fun message => message.1 = route).map Prod.snd

def send (box : Mailbox) (route : Route) (data : Bytes) : Mailbox := box ++ [(route, data)]

def take (route : Route) : Mailbox → Option (Bytes × Mailbox)
  | [] => none
  | (other, data) :: rest =>
      if other = route then some (data, rest)
      else (take route rest).map fun (found, rest) => (found, (other, data) :: rest)

def receive? (box : Mailbox) (route : Route) (length : Nat) : Option (Bytes × Mailbox) :=
  (take route box).map fun (data, rest) => (data.take length, rest)

-- What a receive posted before a send gets; `none` if a message was already waiting, and then nothing happens.
def receiveThenSend? (box : Mailbox) (route : Route) (length : Nat) (data : Bytes) : Option (Bytes × Mailbox) :=
  if (box.queue route).isEmpty then (box.send route data).receive? route length else none

def sorted (box : Mailbox) : Mailbox := box.mergeSort fun a b => a.1.compare b.1 != .gt

end Mailbox

end Seam
