import P2pDdns.Daemon
import P2pDdns.Merge

/-!
How close merging the addresses of one id comes to a union. The IPs are united; a relay
survives only from the incoming address, and only where neither side has an IP.
-/

set_option autoImplicit false

namespace P2pDdns

/-- Every way of reaching the node that either address has, and no other. -/
structure IsUnion (existing incoming merged : EndpointAddr) : Prop where
  id : merged.id = existing.id ∧ merged.id = incoming.id
  mem : ∀ t, t ∈ merged.addrs ↔ t ∈ existing.addrs ∨ t ∈ incoming.addrs

/-- No relay is listed beside an IP of either side; without IPs, none is listed by the existing
address alone. -/
def KeepsRelays (existing incoming : EndpointAddr) : Prop :=
  if hasIpAddr existing || hasIpAddr incoming then
    existing.relayUrls = [] ∧ incoming.relayUrls = []
  else ∀ url ∈ existing.relayUrls, url ∈ incoming.relayUrls

section OneId
variable {a b c : EndpointAddr}

theorem ip_mem_mergeAddr (hid : a.id = b.id) (sock : SocketAddr) :
    .ip sock ∈ (mergeAddr a b).addrs ↔
      TransportAddr.ip sock ∈ a.addrs ∨ TransportAddr.ip sock ∈ b.addrs := by
  by_cases hip : hasIpAddr a = true ∨ hasIpAddr b = true
  · rw [mem_mergeAddr hid hip]
    constructor
    · rintro ⟨_, -, h⟩
      exact h
    · exact fun h => ⟨sock, rfl, h⟩
  · rw [not_or, Bool.not_eq_true, Bool.not_eq_true] at hip
    rw [mergeAddr_of_no_ip hip.1 hip.2]
    constructor
    · exact .inr
    · rintro (h | h)
      · have hsome : hasIpAddr a = true := hasIpAddr_iff.mpr ⟨sock, h⟩
        rw [hip.1] at hsome
        contradiction
      · exact h

theorem relay_mem_mergeAddr (hid : a.id = b.id) (url : String) :
    .relay url ∈ (mergeAddr a b).addrs ↔
      TransportAddr.relay url ∈ b.addrs ∧ hasIpAddr a = false ∧ hasIpAddr b = false := by
  by_cases hip : hasIpAddr a = true ∨ hasIpAddr b = true
  · rw [mem_mergeAddr hid hip]
    constructor
    · rintro ⟨_, heq, -⟩
      contradiction
    · rintro ⟨-, ha, hb⟩
      simp [ha, hb] at hip
  · rw [not_or, Bool.not_eq_true, Bool.not_eq_true] at hip
    rw [mergeAddr_of_no_ip hip.1 hip.2, and_iff_left hip]

theorem hasIpAddr_mergeAddr (hid : a.id = b.id) :
    hasIpAddr (mergeAddr a b) = (hasIpAddr a || hasIpAddr b) := by
  rw [Bool.eq_iff_iff, Bool.or_eq_true]
  simp only [hasIpAddr_iff, ip_mem_mergeAddr hid, exists_or]

/-- Nothing is lost exactly where no relay is at stake. -/
theorem mergeAddr_isUnion_iff (hid : a.id = b.id) :
    IsUnion a b (mergeAddr a b) ↔ KeepsRelays a b := by
  have hrelays : IsUnion a b (mergeAddr a b) ↔ ∀ url,
      TransportAddr.relay url ∈ b.addrs ∧ hasIpAddr a = false ∧ hasIpAddr b = false ↔
        TransportAddr.relay url ∈ a.addrs ∨ TransportAddr.relay url ∈ b.addrs := by
    constructor
    · intro hunion url
      rw [← relay_mem_mergeAddr hid, hunion.mem]
    · intro hrelay
      refine ⟨⟨(mergeAddr_id a b).trans hid.symm, mergeAddr_id a b⟩, fun t => ?_⟩
      cases t with
      | ip sock => exact ip_mem_mergeAddr hid sock
      | relay url => rw [relay_mem_mergeAddr hid, hrelay]
  rw [hrelays, KeepsRelays]
  split
  · rename_i hip
    have hnot : ¬ (hasIpAddr a = false ∧ hasIpAddr b = false) := by
      rintro ⟨ha, hb⟩
      simp [ha, hb] at hip
    simp only [hnot, and_false, false_iff, not_or, List.eq_nil_iff_forall_not_mem,
      EndpointAddr.mem_relayUrls, forall_and]
  · rename_i hip
    rw [Bool.not_eq_true, Bool.or_eq_false_iff] at hip
    simp only [hip, and_self, and_true, EndpointAddr.mem_relayUrls]
    constructor
    · exact fun h url hurl => (h url).mpr (.inl hurl)
    · exact fun h url => ⟨.inr, fun hor => hor.elim (h url) id⟩

theorem mergeAddr_self_iff : mergeAddr a a = a ↔ hasIpAddr a = false ∨ a.relayUrls = [] := by
  constructor
  · intro hself
    cases ha : hasIpAddr a with
    | false => exact .inl rfl
    | true =>
      refine .inr (List.eq_nil_iff_forall_not_mem.mpr fun url hurl => ?_)
      rw [EndpointAddr.mem_relayUrls, ← hself, relay_mem_mergeAddr rfl, ha] at hurl
      exact absurd hurl.2.1 (by decide)
  · rintro (ha | ha)
    · exact mergeAddr_of_no_ip ha ha
    · refine EndpointAddr.ext_mem (mergeAddr_id a a) fun t => ?_
      cases t with
      | ip sock => rw [ip_mem_mergeAddr rfl, or_self]
      | relay url =>
        have hurl : TransportAddr.relay url ∉ a.addrs := by
          rw [← EndpointAddr.mem_relayUrls, ha]
          exact List.not_mem_nil
        simp only [relay_mem_mergeAddr rfl, hurl, false_and]

theorem mergeAddr_comm_iff (hid : a.id = b.id) :
    mergeAddr a b = mergeAddr b a ↔ (hasIpAddr a || hasIpAddr b) = true ∨ a = b := by
  by_cases hip : (hasIpAddr a || hasIpAddr b) = true
  · rw [iff_true_right (.inl hip)]
    have hnot : ¬ (hasIpAddr a = false ∧ hasIpAddr b = false) := by
      rintro ⟨ha, hb⟩
      simp [ha, hb] at hip
    refine EndpointAddr.ext_mem (by simp [hid]) fun t => ?_
    cases t with
    | ip sock => rw [ip_mem_mergeAddr hid, ip_mem_mergeAddr hid.symm, or_comm]
    | relay url =>
      rw [relay_mem_mergeAddr hid, relay_mem_mergeAddr hid.symm]
      exact iff_of_false (fun h => hnot h.2) (fun h => hnot ⟨h.2.2, h.2.1⟩)
  · rw [or_iff_right hip]
    rw [Bool.not_eq_true, Bool.or_eq_false_iff] at hip
    rw [mergeAddr_of_no_ip hip.1 hip.2, mergeAddr_of_no_ip hip.2 hip.1, eq_comm]

theorem mergeAddr_assoc (hab : a.id = b.id) (hbc : b.id = c.id) :
    mergeAddr (mergeAddr a b) c = mergeAddr a (mergeAddr b c) := by
  have hleft : (mergeAddr a b).id = c.id := (mergeAddr_id a b).trans hbc
  have hright : a.id = (mergeAddr b c).id := by rw [mergeAddr_id, hab, hbc]
  refine EndpointAddr.ext_mem (by simp) fun t => ?_
  cases t with
  | ip sock =>
    rw [ip_mem_mergeAddr hleft, ip_mem_mergeAddr hab, ip_mem_mergeAddr hright,
      ip_mem_mergeAddr hbc, or_assoc]
  | relay url =>
    rw [relay_mem_mergeAddr hleft, relay_mem_mergeAddr hright, relay_mem_mergeAddr hbc,
      hasIpAddr_mergeAddr hab, hasIpAddr_mergeAddr hbc, Bool.or_eq_false_iff,
      Bool.or_eq_false_iff]
    constructor
    · rintro ⟨hurl, ⟨ha, hb⟩, hc⟩
      exact ⟨⟨hurl, hb, hc⟩, ha, hb, hc⟩
    · rintro ⟨⟨hurl, hb, hc⟩, ha, -⟩
      exact ⟨hurl, ⟨ha, hb⟩, hc⟩

end OneId

/-- What merging addresses of one id keeps of the laws of a union: all of them where no relay is
at stake. -/
theorem merge_addr_laws {existing incoming third : EndpointAddr}
    (hid : existing.id = incoming.id) (hid' : incoming.id = third.id) :
    (IsUnion existing incoming (mergeAddr existing incoming) ↔ KeepsRelays existing incoming) ∧
    (mergeAddr existing existing = existing ↔
      hasIpAddr existing = false ∨ existing.relayUrls = []) ∧
    (mergeAddr existing incoming = mergeAddr incoming existing ↔
      (hasIpAddr existing || hasIpAddr incoming) = true ∨ existing = incoming) ∧
    mergeAddr (mergeAddr existing incoming) third =
      mergeAddr existing (mergeAddr incoming third) :=
  ⟨mergeAddr_isUnion_iff hid, mergeAddr_self_iff, mergeAddr_comm_iff hid, mergeAddr_assoc hid hid'⟩

namespace Sample

def bobRelayed : EndpointAddr := .fromParts bob [.relay "https://relay.example/"]
def bobDirect : EndpointAddr := .fromParts bob [.ip (sock 2)]

theorem bobRelayed_merges :
    (IsUnion bobRelayed bobDirect (mergeAddr bobRelayed bobDirect) ↔
      KeepsRelays bobRelayed bobDirect) ∧
    (mergeAddr bobRelayed bobRelayed = bobRelayed ↔
      hasIpAddr bobRelayed = false ∨ bobRelayed.relayUrls = []) ∧
    (mergeAddr bobRelayed bobDirect = mergeAddr bobDirect bobRelayed ↔
      (hasIpAddr bobRelayed || hasIpAddr bobDirect) = true ∨ bobRelayed = bobDirect) ∧
    mergeAddr (mergeAddr bobRelayed bobDirect) bobRelayed =
      mergeAddr bobRelayed (mergeAddr bobDirect bobRelayed) :=
  merge_addr_laws rfl rfl

/-- Learning an IP of Bob forgets his relay. -/
theorem merge_addr_loses_relay :
    bobRelayed.id = bobDirect.id ∧
      ¬ IsUnion bobRelayed bobDirect (mergeAddr bobRelayed bobDirect) := by
  refine ⟨rfl, fun hunion => ?_⟩
  have hrelay : TransportAddr.relay "https://relay.example/" ∈ bobRelayed.addrs := by
    simp [bobRelayed]
  have hkept := (hunion.mem _).mpr (.inl hrelay)
  have hdirect : hasIpAddr bobDirect = true := hasIpAddr_iff.mpr ⟨sock 2, by simp [bobDirect]⟩
  rw [relay_mem_mergeAddr (show bobRelayed.id = bobDirect.id from rfl), hdirect] at hkept
  exact absurd hkept.2.2 (by decide)

end Sample
end P2pDdns
