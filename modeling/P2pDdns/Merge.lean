import P2pDdns.Nodes

/-!
Merging an incoming record into the record already held. The newer heartbeat
decides every field but the address; an address without IPs never erases IPs.
-/

set_option autoImplicit false

namespace P2pDdns
open Std

def hasIpAddr (addr : EndpointAddr) : Bool := !addr.ipAddrs.isEmpty

theorem hasIpAddr_iff {addr : EndpointAddr} :
    hasIpAddr addr = true ↔ ∃ sock, TransportAddr.ip sock ∈ addr.addrs := by
  simp only [hasIpAddr, Bool.not_eq_true', List.isEmpty_eq_false_iff_exists_mem,
    EndpointAddr.mem_ipAddrs]

theorem not_hasIpAddr_iff {addr : EndpointAddr} : hasIpAddr addr = false ↔ addr.ipAddrs = [] := by
  simp [hasIpAddr]

def pushNew (ips : List SocketAddr) (addr : SocketAddr) : List SocketAddr :=
  if ips.contains addr then ips else ips ++ [addr]

def mergeAddr (existing incoming : EndpointAddr) : EndpointAddr :=
  if existing.id ≠ incoming.id then incoming
  else
    let ips := existing.ipAddrs.foldl pushNew []
    let ips := incoming.ipAddrs.foldl pushNew ips
    if ips.isEmpty then incoming
    else .fromParts existing.id (ips.map .ip)

theorem mem_foldl_pushNew (new ips : List SocketAddr) (sock : SocketAddr) :
    sock ∈ new.foldl pushNew ips ↔ sock ∈ ips ∨ sock ∈ new :=
  FiniteMaps.mem_foldl_addNew

theorem mergeAddr_of_ne {existing incoming : EndpointAddr} (h : existing.id ≠ incoming.id) :
    mergeAddr existing incoming = incoming := by
  simp [mergeAddr, h]

theorem mergeAddr_of_no_ip {existing incoming : EndpointAddr}
    (he : hasIpAddr existing = false) (hi : hasIpAddr incoming = false) :
    mergeAddr existing incoming = incoming := by
  rw [not_hasIpAddr_iff] at he hi
  simp [mergeAddr, he, hi]

/-- With an IP on either side the result is exactly the union of the IPs. -/
theorem mem_mergeAddr {existing incoming : EndpointAddr} (hid : existing.id = incoming.id)
    (hip : hasIpAddr existing = true ∨ hasIpAddr incoming = true) (t : TransportAddr) :
    t ∈ (mergeAddr existing incoming).addrs ↔
      ∃ sock, t = .ip sock ∧ (t ∈ existing.addrs ∨ t ∈ incoming.addrs) := by
  have hmem : ∀ sock, sock ∈ incoming.ipAddrs.foldl pushNew (existing.ipAddrs.foldl pushNew []) ↔
      TransportAddr.ip sock ∈ existing.addrs ∨ TransportAddr.ip sock ∈ incoming.addrs := by
    intro sock
    simp [mem_foldl_pushNew]
  have hne : (incoming.ipAddrs.foldl pushNew (existing.ipAddrs.foldl pushNew [])).isEmpty
      = false := by
    rw [List.isEmpty_eq_false_iff_exists_mem]
    rcases hip with h | h
    · obtain ⟨sock, hs⟩ := hasIpAddr_iff.mp h
      exact ⟨sock, (hmem sock).mpr (.inl hs)⟩
    · obtain ⟨sock, hs⟩ := hasIpAddr_iff.mp h
      exact ⟨sock, (hmem sock).mpr (.inr hs)⟩
  simp only [mergeAddr, hid, ne_eq, not_true_eq_false, if_false, hne, Bool.false_eq_true,
    EndpointAddr.mem_fromParts, List.mem_map, hmem]
  constructor
  · rintro ⟨sock, h, rfl⟩
    exact ⟨sock, rfl, h⟩
  · rintro ⟨sock, rfl, h⟩
    exact ⟨sock, h, rfl⟩

@[simp] theorem mergeAddr_id (existing incoming : EndpointAddr) :
    (mergeAddr existing incoming).id = incoming.id := by
  unfold mergeAddr
  by_cases h : existing.id = incoming.id
  · simp only [h, ne_eq, not_true_eq_false, if_false]
    split <;> rfl
  · simp [h]

theorem mem_mergeAddr_left {a b : EndpointAddr} (hid : a.id = b.id) (ha : hasIpAddr a = true)
    (hb : hasIpAddr b = false) (t : TransportAddr) :
    t ∈ (mergeAddr a b).addrs ↔ ∃ sock, t = .ip sock ∧ t ∈ a.addrs := by
  have hnone : ∀ sock, TransportAddr.ip sock ∉ b.addrs := by
    intro sock hsock
    rw [hasIpAddr_iff.mpr ⟨sock, hsock⟩] at hb
    contradiction
  rw [mem_mergeAddr hid (.inl ha)]
  constructor
  · rintro ⟨sock, rfl, h | h⟩
    · exact ⟨sock, rfl, h⟩
    · exact absurd h (hnone sock)
  · rintro ⟨sock, rfl, h⟩
    exact ⟨sock, rfl, .inl h⟩

theorem mergeAddr_mergeAddr {a b c : EndpointAddr} (hid : b.id = c.id)
    (hb : hasIpAddr b = false) (hc : hasIpAddr c = false) :
    mergeAddr (mergeAddr a b) c = mergeAddr a c := by
  by_cases hne : a.id = b.id
  · cases ha : hasIpAddr a with
    | false => rw [mergeAddr_of_no_ip ha hb, mergeAddr_of_no_ip hb hc, mergeAddr_of_no_ip ha hc]
    | true =>
      have hmerged : hasIpAddr (mergeAddr a b) = true := by
        obtain ⟨sock, hs⟩ := hasIpAddr_iff.mp ha
        exact hasIpAddr_iff.mpr ⟨sock, (mem_mergeAddr_left hne ha hb _).mpr ⟨sock, rfl, hs⟩⟩
      refine EndpointAddr.ext_mem (by simp) fun t => ?_
      rw [mem_mergeAddr_left (by rw [mergeAddr_id, hid]) hmerged hc,
        mem_mergeAddr_left (hne.trans hid) ha hc]
      constructor
      · rintro ⟨sock, rfl, h⟩
        exact (mem_mergeAddr_left hne ha hb _).mp h
      · rintro ⟨sock, rfl, h⟩
        exact ⟨sock, rfl, (mem_mergeAddr_left hne ha hb _).mpr ⟨sock, rfl, h⟩⟩
  · rw [mergeAddr_of_ne hne, mergeAddr_of_no_ip hb hc, mergeAddr_of_ne (by rwa [← hid])]

theorem mergeAddr_eq_incoming_iff {existing incoming : EndpointAddr}
    (hip : hasIpAddr incoming = true) :
    mergeAddr existing incoming = incoming ↔ existing.id ≠ incoming.id ∨
      (incoming.relayUrls = [] ∧ ∀ sock ∈ existing.ipAddrs, sock ∈ incoming.ipAddrs) := by
  by_cases hid : existing.id = incoming.id
  · have hmem := mem_mergeAddr hid (.inr hip)
    simp only [hid, ne_eq, not_true_eq_false, false_or]
    constructor
    · intro heq
      rw [heq] at hmem
      constructor
      · rw [List.eq_nil_iff_forall_not_mem]
        intro url hurl
        obtain ⟨sock, heq, -⟩ := (hmem (.relay url)).mp (EndpointAddr.mem_relayUrls.mp hurl)
        contradiction
      · intro sock hsock
        rw [EndpointAddr.mem_ipAddrs] at hsock ⊢
        exact (hmem (.ip sock)).mpr ⟨sock, rfl, .inl hsock⟩
    · rintro ⟨hrelay, hsub⟩
      refine EndpointAddr.ext_mem (mergeAddr_id _ _) fun t => ?_
      rw [hmem]
      constructor
      · rintro ⟨sock, rfl, h | h⟩
        · exact EndpointAddr.mem_ipAddrs.mp (hsub sock (EndpointAddr.mem_ipAddrs.mpr h))
        · exact h
      · intro ht
        cases t with
        | relay url =>
          have hurl := EndpointAddr.mem_relayUrls.mpr ht
          rw [hrelay] at hurl
          contradiction
        | ip sock => exact ⟨sock, rfl, .inr ht⟩
  · simp [hid, mergeAddr_of_ne hid]

def mergeNode (existing : Option Node) (incoming : Node) : Node × Bool :=
  match existing with
  | none => (incoming, true)
  | some existing =>
    let shouldTakeIncoming := incoming.lastHeartbeat > existing.lastHeartbeat
    let addr :=
      if shouldTakeIncoming ∧ hasIpAddr incoming.addr then incoming.addr
      else mergeAddr existing.addr incoming.addr
    let merged :=
      if shouldTakeIncoming then { incoming with addr := addr }
      else { existing with addr := addr }
    (merged, true)

@[simp] theorem mergeNode_none (incoming : Node) : (mergeNode none incoming).1 = incoming := rfl

/-- A newer record wins; its address is completed only when it lists no IP. -/
theorem mergeNode_newer {existing incoming : Node}
    (h : existing.lastHeartbeat < incoming.lastHeartbeat) :
    (mergeNode (some existing) incoming).1 =
      { incoming with
        addr := if hasIpAddr incoming.addr then incoming.addr
          else mergeAddr existing.addr incoming.addr } := by
  simp [mergeNode, h]

/-- A record that is not newer contributes addresses only. -/
theorem mergeNode_not_newer {existing incoming : Node}
    (h : ¬ existing.lastHeartbeat < incoming.lastHeartbeat) :
    (mergeNode (some existing) incoming).1 =
      { existing with addr := mergeAddr existing.addr incoming.addr } := by
  simp [mergeNode, h]

/-- Merging keeps whatever holds of both records and does not depend on the address. -/
theorem mergeNode_induct {P : Node → Prop} {existing : Option Node} {incoming : Node}
    (haddr : ∀ node addr, P node → P { node with addr := addr })
    (he : ∀ node, existing = some node → P node) (hi : P incoming) :
    P (mergeNode existing incoming).1 := by
  cases existing with
  | none => exact hi
  | some old =>
    by_cases h : old.lastHeartbeat < incoming.lastHeartbeat
    · rw [mergeNode_newer h]
      exact haddr _ _ hi
    · rw [mergeNode_not_newer h]
      exact haddr _ _ (he old rfl)

theorem mergeNode_nodeId {existing : Option Node} {incoming : Node}
    (he : ∀ node, existing = some node → node.nodeId = incoming.nodeId) :
    (mergeNode existing incoming).1.nodeId = incoming.nodeId :=
  mergeNode_induct (P := fun node => node.nodeId = incoming.nodeId)
    (fun _ _ h => h) he rfl

theorem mergeNode_addr_id (existing : Option Node) (incoming : Node) :
    (mergeNode existing incoming).1.addr.id = incoming.addr.id := by
  cases existing with
  | none => rfl
  | some old =>
    by_cases h : old.lastHeartbeat < incoming.lastHeartbeat
    · rw [mergeNode_newer h]
      dsimp only
      split
      · rfl
      · exact mergeAddr_id _ _
    · rw [mergeNode_not_newer h]
      exact mergeAddr_id _ _

/-- `by_domain.entry(..).and_modify(..).or_insert(..)` for one record. -/
def noteBest (byDomain : ExtTreeMap String (EndpointId × Nat)) (node : Node) :
    ExtTreeMap String (EndpointId × Nat) :=
  match byDomain[node.domain]? with
  | none => byDomain.insert node.domain (node.nodeId, node.lastHeartbeat)
  | some (_, bestHeartbeat) =>
    if node.lastHeartbeat > bestHeartbeat then
      byDomain.insert node.domain (node.nodeId, node.lastHeartbeat)
    else byDomain

def idsToRemoveForDuplicateDomains (nodes : List Node) : List EndpointId :=
  let byDomain := nodes.foldl noteBest ∅
  nodes.filterMap fun node =>
    match byDomain[node.domain]? with
    | some (bestId, _) => if bestId ≠ node.nodeId then some node.nodeId else none
    | none => none

end P2pDdns
