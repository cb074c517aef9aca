import P2pDdns.Nodes

/-!
Messages between daemons, and the network ticket. `SignedMessage` is an envelope
whose signature verified and whose content decoded; `decode_and_verify` drops
every other byte string before it reaches the tables.
-/

set_option autoImplicit false

namespace P2pDdns
open Std

inductive Message where
  | invited (topic : TopicId) (rnum : List UInt8) (addr : EndpointAddr) (aliasName : String)
      (services : ExtTreeMap String UInt32) (invitor : EndpointId)
  | aboutMe (addr : EndpointAddr) (aliasName : String) (services : ExtTreeMap String UInt32)
      (invitor : EndpointId)
  | introduce (invited : EndpointId)
  | syncRequest (nodes : List Node)
  | syncResponse (nodes : List Node)
  | heartbeat
  | left
  deriving DecidableEq

def Message.nodes : Message → List Node
  | .syncRequest nodes => nodes
  | .syncResponse nodes => nodes
  | _ => []

structure SignedMessage where
  sender : EndpointId
  message : Message
  timestamp : Nat
  deriving DecidableEq

def MAX_AGE_SECS : Nat := 60
def MAX_FUTURE_SKEW_SECS : Nat := 10

/-- `u64::saturating_add`. -/
def saturatingAdd (a b : Nat) : Nat := min (a + b) (UInt64.size - 1)

def SignedMessage.isFresh (signed : SignedMessage) (now : Nat) : Bool :=
  if signed.timestamp > saturatingAdd now MAX_FUTURE_SKEW_SECS then false
  else now - signed.timestamp ≤ MAX_AGE_SECS

theorem SignedMessage.isFresh_window {signed : SignedMessage} {now : Nat}
    (h : signed.isFresh now = true) :
    signed.timestamp ≤ now + MAX_FUTURE_SKEW_SECS ∧ now ≤ signed.timestamp + MAX_AGE_SECS := by
  unfold isFresh saturatingAdd at h
  split at h
  · contradiction
  · have hage := of_decide_eq_true h
    omega

structure Ticket where
  topic : TopicId
  rnum : List UInt8
  invitor : Node
  deriving DecidableEq

def Ticket.validate (ticket : Ticket) (topic : TopicId) (rnum : List UInt8) : Bool :=
  ticket.topic = topic ∧ ticket.rnum = rnum

end P2pDdns
