import Mathlib.Data.List.Basic
import Mathlib.Order.Compare

/-!
Contact information: endpoint identifiers, socket addresses and the sets of
transport addresses an endpoint can be reached at. A `BTreeSet` is an
extensional ordered set, so two addresses with the same members are equal.
-/

set_option autoImplicit false

namespace P2pDdns
open Std

/-- A public key, 32 bytes read big-endian. -/
abbrev EndpointId := BitVec 256

instance : TransOrd EndpointId := BitVec.instTransOrd

instance : LawfulEqOrd EndpointId := BitVec.instLawfulEqOrd

abbrev TopicId := BitVec 256

inductive IpAddr where
  | v4 : BitVec 32 → IpAddr
  | v6 : BitVec 128 → IpAddr
  deriving DecidableEq, Repr

inductive SocketAddr where
  | v4 (addr : BitVec 32) (port : BitVec 16)
  | v6 (addr : BitVec 128) (port : BitVec 16) (flowinfo scopeId : BitVec 32)
  deriving DecidableEq, Repr

def SocketAddr.ip : SocketAddr → IpAddr
  | .v4 addr _ => .v4 addr
  | .v6 addr _ _ _ => .v6 addr

inductive TransportAddr where
  | relay : String → TransportAddr
  | ip : SocketAddr → TransportAddr
  deriving DecidableEq, Repr

/-- The derived order of the source: relays by URL before IPs, then V4 before V6,
each by its fields in turn. -/
def TransportAddr.key : TransportAddr → List Nat
  | .relay url => 0 :: url.toList.map Char.toNat
  | .ip (.v4 addr port) => [1, 4, addr.toNat, port.toNat]
  | .ip (.v6 addr port flowinfo scopeId) =>
      [1, 6, addr.toNat, port.toNat, flowinfo.toNat, scopeId.toNat]

theorem TransportAddr.key_injective {a b : TransportAddr} (h : a.key = b.key) : a = b := by
  cases a with
  | relay u =>
    cases b with
    | relay v =>
      have hmap : u.toList.map Char.toNat = v.toList.map Char.toNat := List.tail_eq_of_cons_eq h
      have hchars := List.map_injective_iff.mpr (fun _ _ hc => Char.toNat_inj.mp hc) hmap
      rw [String.toList_inj.mp hchars]
    | ip t => cases t <;> simp [key] at h
  | ip s =>
    cases b with
    | relay v => cases s <;> simp [key] at h
    | ip t => cases s <;> cases t <;> simp_all [key, BitVec.toNat_inj]

instance : Ord TransportAddr := ⟨fun a b => compare a.key b.key⟩

instance : TransOrd TransportAddr where
  eq_swap := @fun a b => OrientedCmp.eq_swap (a := a.key) (b := b.key)
  isLE_trans := @fun a b c => TransCmp.isLE_trans (a := a.key) (b := b.key) (c := c.key)

instance : LawfulEqOrd TransportAddr where
  compare_self := @fun a => ReflCmp.compare_self (a := a.key)
  eq_of_compare := @fun a b h =>
    TransportAddr.key_injective (LawfulEqCmp.eq_of_compare (a := a.key) (b := b.key) h)

structure EndpointAddr where
  id : EndpointId
  addrs : ExtTreeSet TransportAddr
  deriving DecidableEq

namespace EndpointAddr

def new (id : EndpointId) : EndpointAddr := ⟨id, ∅⟩

def fromParts (id : EndpointId) (addrs : List TransportAddr) : EndpointAddr :=
  ⟨id, ExtTreeSet.ofList addrs⟩

def isEmpty (addr : EndpointAddr) : Bool := addr.addrs.isEmpty

def ipAddrs (addr : EndpointAddr) : List SocketAddr :=
  addr.addrs.toList.filterMap fun
    | .ip sock => some sock
    | .relay _ => none

def relayUrls (addr : EndpointAddr) : List String :=
  addr.addrs.toList.filterMap fun
    | .ip _ => none
    | .relay url => some url

@[simp] theorem fromParts_id (id : EndpointId) (addrs : List TransportAddr) :
    (fromParts id addrs).id = id := rfl

@[simp] theorem mem_fromParts {id : EndpointId} {addrs : List TransportAddr}
    {t : TransportAddr} : t ∈ (fromParts id addrs).addrs ↔ t ∈ addrs := by
  simp [fromParts, ExtTreeSet.mem_ofList]

@[simp] theorem mem_ipAddrs {addr : EndpointAddr} {sock : SocketAddr} :
    sock ∈ addr.ipAddrs ↔ TransportAddr.ip sock ∈ addr.addrs := by
  simp only [ipAddrs, List.mem_filterMap, ExtTreeSet.mem_toList]
  constructor
  · rintro ⟨t, ht, hsock⟩
    cases t <;> simp_all
  · intro h
    exact ⟨.ip sock, h, rfl⟩

@[simp] theorem mem_relayUrls {addr : EndpointAddr} {url : String} :
    url ∈ addr.relayUrls ↔ TransportAddr.relay url ∈ addr.addrs := by
  simp only [relayUrls, List.mem_filterMap, ExtTreeSet.mem_toList]
  constructor
  · rintro ⟨t, ht, hurl⟩
    cases t <;> simp_all
  · intro h
    exact ⟨.relay url, h, rfl⟩

theorem ext_mem {a b : EndpointAddr} (hid : a.id = b.id)
    (h : ∀ t, t ∈ a.addrs ↔ t ∈ b.addrs) : a = b := by
  cases a
  cases b
  simp only [mk.injEq]
  exact ⟨hid, ExtTreeSet.ext_mem h⟩

end EndpointAddr
end P2pDdns
