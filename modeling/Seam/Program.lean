import Seam.Wire

set_option autoImplicit false

namespace Seam

structure Leg where
  peer : Nat
  expected : Nat
  data : Bytes
deriving DecidableEq, Repr

-- What one rank does, call by call. Posting a receive and sending take no time. `wait` is for the oldest receive that
-- has not been waited for, and gives what came for it; `none` if nothing did.
inductive Program (α : Type) where
  | done (value : α)
  | post (peer : Nat) (tag : UInt16) (expected : Nat) (next : Program α)
  | send (peer : Nat) (tag : UInt16) (data : Bytes) (next : Program α)
  | wait (next : Option Bytes → Program α)

namespace Program

variable {α β : Type}

def bind : Program α → (α → Program β) → Program β
  | .done value, f => f value
  | .post peer tag expected next, f => .post peer tag expected (next.bind f)
  | .send peer tag data next, f => .send peer tag data (next.bind f)
  | .wait next, f => .wait fun answer => (next answer).bind f

instance : Monad Program where
  pure := .done
  bind := bind

def postAll (tag : UInt16) : List Leg → Program α → Program α
  | [], next => next
  | leg :: legs, next => .post leg.peer tag leg.expected (postAll tag legs next)

def sendAll (tag : UInt16) : List Leg → Program α → Program α
  | [], next => next
  | leg :: legs, next => .send leg.peer tag leg.data (sendAll tag legs next)

def waitAll : Nat → (List (Option Bytes) → Program α) → Program α
  | 0, next => next []
  | count + 1, next => .wait fun answer => waitAll count fun answers => next (answer :: answers)

-- Post a receive from every peer, send to every peer, then wait for all the answers, which come in the order of the legs.
def round (tag : UInt16) (legs : List Leg) (next : List (Option Bytes) → Program α) : Program α :=
  postAll tag legs (sendAll tag legs (waitAll legs.length next))

inductive Call where
  | receive (peer : Nat) (tag : UInt16) (expected : Nat)
  | send (peer : Nat) (tag : UInt16) (data : Bytes)
deriving DecidableEq, Repr

structure Tape where
  held : List (Option Bytes)
  script : List (Option Bytes)

-- Run one rank against a script: a receive takes the next entry when it is posted, whatever it asks for, and nothing
-- once the script is used up. The calls made are recorded.
def play : Program α → Tape → α × List Call × Tape
  | .done value, tape => (value, [], tape)
  | .post peer tag expected next, tape =>
      let (value, calls, left) := next.play ⟨tape.held ++ [tape.script.head?.join], tape.script.tail⟩
      (value, .receive peer tag expected :: calls, left)
  | .send peer tag data next, tape =>
      let (value, calls, left) := next.play tape
      (value, .send peer tag data :: calls, left)
  | .wait next, tape => (next tape.held.head?.join).play ⟨tape.held.tail, tape.script⟩

def scripted (p : Program α) (script : List (Option Bytes)) : α × List Call :=
  let (value, calls, _) := p.play ⟨[], script⟩
  (value, calls)

def alone (p : Program α) : α := (p.scripted []).1

end Program

end Seam
