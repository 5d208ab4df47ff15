import Seam.Mailbox
import Seam.Program

set_option autoImplicit false

/- The ranks of a group as processes of their own. Each goes at its own pace, so sends and arrivals of different
   ranks come in any order; only the queues of messages tie the ranks together. -/
namespace Seam

def assign {ι β : Type} [DecidableEq ι] (table : ι → β) (place : ι) (entry : β) : ι → β :=
  fun i => if i = place then entry else table i

structure Receipt where
  peer : Nat
  tag : UInt16
  expected : Nat
  message : Option Bytes

structure Stage (α : Type) where
  program : Program α
  receipts : List Receipt

def Stage.ended {α : Type} (value : α) : Stage α := ⟨.done value, []⟩

structure Network (n : Nat) (α : Type) where
  stages : Fin n → Stage α
  queues : Route → List Bytes

namespace Network

variable {n : Nat} {α : Type}

def start (ranks : Fin n → Program α) : Network n α := ⟨fun me => ⟨ranks me, []⟩, fun _ => []⟩

-- One rank makes its next call, or one of its receives takes the oldest message of its route.
inductive Step : Network n α → Network n α → Prop where
  | post {net : Network n α} {me : Fin n} {peer : Nat} {tag : UInt16} {expected : Nat} {next : Program α}
      {receipts : List Receipt} (stands : net.stages me = ⟨.post peer tag expected next, receipts⟩) :
      Step net ⟨assign net.stages me ⟨next, receipts ++ [⟨peer, tag, expected, none⟩]⟩, net.queues⟩
  | send {net : Network n α} {me : Fin n} {peer : Nat} {tag : UInt16} {data : Bytes} {next : Program α}
      {receipts : List Receipt} (stands : net.stages me = ⟨.send peer tag data next, receipts⟩) :
      Step net
        ⟨assign net.stages me ⟨next, receipts⟩,
         assign net.queues ⟨me, peer, tag⟩ (net.queues ⟨me, peer, tag⟩ ++ [data])⟩
  | arrive {net : Network n α} {me : Fin n} {program : Program α} {before after : List Receipt} {peer : Nat}
      {tag : UInt16} {expected : Nat} {data : Bytes} {later : List Bytes}
      (stands : net.stages me = ⟨program, before ++ ⟨peer, tag, expected, none⟩ :: after⟩)
      (waiting : net.queues ⟨peer, me, tag⟩ = data :: later) :
      Step net
        ⟨assign net.stages me ⟨program, before ++ ⟨peer, tag, expected, some (data.take expected)⟩ :: after⟩,
         assign net.queues ⟨peer, me, tag⟩ later⟩
  | wait {net : Network n α} {me : Fin n} {next : Option Bytes → Program α} {peer : Nat} {tag : UInt16}
      {expected : Nat} {data : Bytes} {receipts : List Receipt}
      (stands : net.stages me = ⟨.wait next, ⟨peer, tag, expected, some data⟩ :: receipts⟩) :
      Step net ⟨assign net.stages me ⟨next (some data), receipts⟩, net.queues⟩

def Ended (net : Network n α) (values : Fin n → α) : Prop := ∀ me, net.stages me = .ended (values me)

-- The next call of a rank, or the arrival that it waits for; `none` if it has ended or has to wait.
def advance (net : Network n α) (me : Fin n) : Option (Network n α) :=
  match net.stages me with
  | ⟨.done _, _⟩ => none
  | ⟨.post peer tag expected next, receipts⟩ =>
      some ⟨assign net.stages me ⟨next, receipts ++ [⟨peer, tag, expected, none⟩]⟩, net.queues⟩
  | ⟨.send peer tag data next, receipts⟩ =>
      some ⟨assign net.stages me ⟨next, receipts⟩,
        assign net.queues ⟨me, peer, tag⟩ (net.queues ⟨me, peer, tag⟩ ++ [data])⟩
  | ⟨.wait next, ⟨_, _, _, some data⟩ :: receipts⟩ =>
      some ⟨assign net.stages me ⟨next (some data), receipts⟩, net.queues⟩
  | ⟨.wait next, ⟨peer, tag, expected, none⟩ :: receipts⟩ =>
      match net.queues ⟨peer, me, tag⟩ with
      | [] => none
      | data :: later =>
          some ⟨assign net.stages me ⟨.wait next, ⟨peer, tag, expected, some (data.take expected)⟩ :: receipts⟩,
            assign net.queues ⟨peer, me, tag⟩ later⟩
  | ⟨.wait _, []⟩ => none

def sweep (net : Network n α) : Network n α := (List.finRange n).foldl (fun net me => (net.advance me).getD net) net

end Network

end Seam
