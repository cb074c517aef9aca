import P2pDdns.Nodes
import P2pDdns.WireFormats

/-!
Node records as bytes: structs field by field, maps and sets as the sequence of their elements. Of
a socket address the bytes hold the IP and the port, and a heartbeat has 64 bits.
-/

set_option autoImplicit false

namespace P2pDdns
open Std FiniteMaps WireFormats

/-! Fields on the wire. -/

/-- A V4 address and a port, or a V6 address and a port. -/
abbrev IpPort := (BitVec 32 × BitVec 16) ⊕ (BitVec 128 × BitVec 16)

def SocketAddr.toWire : SocketAddr → IpPort
  | .v4 addr port => .inl (addr, port)
  | .v6 addr port _ _ => .inr (addr, port)

def SocketAddr.ofWire : IpPort → SocketAddr
  | .inl (addr, port) => .v4 addr port
  | .inr (addr, port) => .v6 addr port 0 0

def TransportAddr.toWire : TransportAddr → String ⊕ IpPort
  | .relay url => .inl url
  | .ip sock => .inr sock.toWire

def TransportAddr.ofWire : String ⊕ IpPort → TransportAddr
  | .inl url => .relay url
  | .inr parts => .ip (.ofWire parts)

abbrev EndpointFields := EndpointId × List (String ⊕ IpPort)

def EndpointAddr.toWire (addr : EndpointAddr) : EndpointFields :=
  (addr.id, addr.addrs.toList.map TransportAddr.toWire)

def EndpointAddr.ofWire (fields : EndpointFields) : EndpointAddr :=
  .fromParts fields.1 (fields.2.map TransportAddr.ofWire)

abbrev NodeFields :=
  EndpointId × EndpointId × EndpointFields × String × ExtTreeMap String UInt32 × UInt64

def Node.toWire (node : Node) : NodeFields :=
  (node.nodeId, node.invitor, node.addr.toWire, node.domain, node.services,
    .ofNat node.lastHeartbeat)

def Node.ofWire (fields : NodeFields) : Node :=
  ⟨fields.1, fields.2.1, .ofWire fields.2.2.1, fields.2.2.2.1, fields.2.2.2.2.1,
    fields.2.2.2.2.2.toNat⟩

def Node.carried (node : Node) : Node := ofWire node.toWire

def EndpointAddr.carried (addr : EndpointAddr) : EndpointAddr := ofWire addr.toWire

/-! Their bytes. -/

def endpointIdFormat : Format EndpointId :=
  (fixed 32).iso (fun n => .ofNat 256 n) (fun key => ⟨key.toNat, key.isLt⟩) (fun key => by simp)

def servicesFormat : Format (ExtTreeMap String UInt32) :=
  (sequence (text.pair u32)).iso (fun l => .ofList l) (fun m => m.toList) ofList_toList

theorem ipv4_lt (addr : BitVec 32) : addr.toNat < fixedBound 4 := addr.isLt

theorem ipv6_lt (addr : BitVec 128) : addr.toNat < fixedBound 16 := addr.isLt

def ipv4Format : Format (BitVec 32) :=
  (fixed 4).iso (fun n => .ofNat 32 n) (fun addr => ⟨addr.toNat, ipv4_lt addr⟩)
    (fun addr => by simp)

def ipv6Format : Format (BitVec 128) :=
  (fixed 16).iso (fun n => .ofNat 128 n) (fun addr => ⟨addr.toNat, ipv6_lt addr⟩)
    (fun addr => by simp)

def portFormat : Format (BitVec 16) := u16.iso UInt16.toBitVec UInt16.ofBitVec fun _ => rfl

def ipPortFormat : Format IpPort :=
  (ipv4Format.pair portFormat).either (ipv6Format.pair portFormat)

def endpointFieldsFormat : Format EndpointFields :=
  endpointIdFormat.pair (sequence (text.either ipPortFormat))

def nodeFieldsFormat : Format NodeFields :=
  endpointIdFormat.pair (endpointIdFormat.pair (endpointFieldsFormat.pair (text.pair
    (servicesFormat.pair u64))))

/-! What comes back. -/

/-- Flow label and scope id, which only a V6 address has, are zero. -/
def SocketAddr.Unlabelled : SocketAddr → Prop
  | .v4 _ _ => True
  | .v6 _ _ flowinfo scopeId => flowinfo = 0 ∧ scopeId = 0

def EndpointAddr.Portable (addr : EndpointAddr) : Prop :=
  ∀ sock, TransportAddr.ip sock ∈ addr.addrs → sock.Unlabelled

structure Node.Portable (node : Node) : Prop where
  heartbeat : node.lastHeartbeat < UInt64.size
  addr : node.addr.Portable

theorem SocketAddr.ofWire_unlabelled (parts : IpPort) : (SocketAddr.ofWire parts).Unlabelled := by
  cases parts with
  | inl parts => trivial
  | inr parts => exact ⟨rfl, rfl⟩

theorem SocketAddr.ofWire_toWire {sock : SocketAddr} (h : sock.Unlabelled) :
    SocketAddr.ofWire sock.toWire = sock := by
  cases sock with
  | v4 addr port => rfl
  | v6 addr port flowinfo scopeId =>
    obtain ⟨rfl, rfl⟩ := h
    rfl

example : ipPortFormat.write (SocketAddr.v4 0x7f000001 8053).toWire =
    [0, 127, 0, 0, 1, 0xf5, 0x3e] := by decide

theorem EndpointAddr.mem_ofWire_toWire {addr : EndpointAddr} {t : TransportAddr} :
    t ∈ (EndpointAddr.ofWire addr.toWire).addrs ↔
      ∃ t' ∈ addr.addrs, TransportAddr.ofWire t'.toWire = t := by
  simp [ofWire, toWire]

/-- Addresses come back exactly if none of them has a flow label or a scope id. -/
theorem EndpointAddr.ofWire_toWire_iff {addr : EndpointAddr} :
    EndpointAddr.ofWire addr.toWire = addr ↔
      ∀ sock, TransportAddr.ip sock ∈ addr.addrs → sock.Unlabelled := by
  constructor
  · intro h sock hsock
    rw [← h, mem_ofWire_toWire] at hsock
    obtain ⟨t, -, ht⟩ := hsock
    cases t with
    | relay url => cases ht
    | ip sock' =>
      obtain rfl := TransportAddr.ip.inj ht
      exact SocketAddr.ofWire_unlabelled _
  · intro h
    have hkept : ∀ t ∈ addr.addrs, TransportAddr.ofWire t.toWire = t := by
      intro t ht
      cases t with
      | relay url => rfl
      | ip sock => exact congrArg TransportAddr.ip (SocketAddr.ofWire_toWire (h sock ht))
    refine ext_mem rfl fun t => ?_
    rw [mem_ofWire_toWire]
    constructor
    · rintro ⟨t', ht', rfl⟩
      rwa [hkept t' ht']
    · exact fun ht => ⟨t, ht, hkept t ht⟩

theorem Node.carried_eq_iff {node : Node} : node.carried = node ↔ node.Portable := by
  obtain ⟨nodeId, invitor, addr, domain, services, lastHeartbeat⟩ := node
  have hfields : Node.carried ⟨nodeId, invitor, addr, domain, services, lastHeartbeat⟩ =
      ⟨nodeId, invitor, .ofWire addr.toWire, domain, services, lastHeartbeat % UInt64.size⟩ := rfl
  simp only [hfields, Node.mk.injEq, true_and, EndpointAddr.ofWire_toWire_iff]
  constructor
  · rintro ⟨hsockets, hheartbeat⟩
    exact ⟨hheartbeat ▸ Nat.mod_lt _ (by decide), hsockets⟩
  · rintro ⟨hheartbeat, hsockets⟩
    exact ⟨hsockets, Nat.mod_eq_of_lt hheartbeat⟩

theorem map_carried_eq_iff {nodes : List Node} :
    (nodes.map Node.toWire).map Node.ofWire = nodes ↔ ∀ node ∈ nodes, node.Portable := by
  rw [List.map_map]
  conv_lhs => rhs; rw [← List.map_id nodes]
  rw [List.map_inj_left]
  exact forall₂_congr fun node _ => Node.carried_eq_iff

end P2pDdns
