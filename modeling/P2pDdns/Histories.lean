import Mathlib.Data.List.Induction
import Mathlib.Data.Nat.Basic
import P2pDdns.AddressUnions

/-!
What is left of a history of records of one node, merged one after the other: what the newest
record says, and the IPs listed since a newer record last brought some.
-/

set_option autoImplicit false

namespace P2pDdns

def mergeHistory (records : List Node) : Option Node :=
  records.foldl (fun held incoming => some (mergeNode held incoming).1) none

theorem mergeHistory_append_singleton (records : List Node) (r : Node) :
    mergeHistory (records ++ [r]) = some (mergeNode (mergeHistory records) r).1 := by
  simp [mergeHistory]

/-- No record is newer, and none before it is as new. -/
def IsFirstNewest (records : List Node) (r : Node) : Prop :=
  ∃ before after, records = before ++ r :: after ∧
    (∀ b ∈ before, b.lastHeartbeat < r.lastHeartbeat) ∧
    ∀ b ∈ after, b.lastHeartbeat ≤ r.lastHeartbeat

/-- The record at the position carries an IP and is newer than every one before it. -/
def Renews (records : List Node) (k : Nat) : Prop :=
  ∃ r, records[k]? = some r ∧ hasIpAddr r.addr = true ∧
    ∀ b ∈ records.take k, b.lastHeartbeat < r.lastHeartbeat

/-- The first position, where no record renews the IPs. -/
def IsLastRenewal (records : List Node) (k : Nat) : Prop :=
  (Renews records k ∧ ∀ j, Renews records j → j ≤ k) ∨ (k = 0 ∧ ∀ j, ¬ Renews records j)

section Append
variable {records : List Node} {old r : Node} {k : Nat}

theorem IsFirstNewest.le (h : IsFirstNewest records r) :
    ∀ b ∈ records, b.lastHeartbeat ≤ r.lastHeartbeat := by
  obtain ⟨before, after, rfl, hbefore, hafter⟩ := h
  intro b hb
  rw [List.mem_append, List.mem_cons] at hb
  obtain hb | rfl | hb := hb
  · exact (hbefore b hb).le
  · exact Nat.le_refl _
  · exact hafter b hb

theorem IsFirstNewest.mem (h : IsFirstNewest records r) : r ∈ records := by
  obtain ⟨before, after, rfl, -, -⟩ := h
  simp

theorem IsFirstNewest.append_newer (h : IsFirstNewest records old)
    (hnewer : old.lastHeartbeat < r.lastHeartbeat) : IsFirstNewest (records ++ [r]) r :=
  ⟨records, [], rfl, fun b hb => (h.le b hb).trans_lt hnewer, fun _ hb => nomatch hb⟩

theorem IsFirstNewest.append_not_newer (h : IsFirstNewest records old)
    (hnewer : ¬ old.lastHeartbeat < r.lastHeartbeat) : IsFirstNewest (records ++ [r]) old := by
  obtain ⟨before, after, rfl, hbefore, hafter⟩ := h
  refine ⟨before, after ++ [r], by simp, hbefore, fun b hb => ?_⟩
  rcases List.mem_append.mp hb with hb | hb
  · exact hafter b hb
  · obtain rfl := List.mem_singleton.mp hb
    exact Nat.le_of_not_lt hnewer

theorem Renews.lt_length (h : Renews records k) : k < records.length := by
  obtain ⟨r, hr, -⟩ := h
  exact (List.getElem?_eq_some_iff.mp hr).1

theorem IsLastRenewal.le_length (h : IsLastRenewal records k) : k ≤ records.length := by
  rcases h with ⟨hrenews, -⟩ | ⟨rfl, -⟩
  · exact hrenews.lt_length.le
  · exact Nat.zero_le _

theorem renews_append_singleton :
    Renews (records ++ [r]) k ↔ Renews records k ∨
      (k = records.length ∧ hasIpAddr r.addr = true ∧
        ∀ b ∈ records, b.lastHeartbeat < r.lastHeartbeat) := by
  rcases lt_trichotomy k records.length with hlt | rfl | hgt
  · rw [Renews, List.getElem?_append_left hlt, List.take_append_of_le_length hlt.le]
    simp only [hlt.ne, false_and, or_false]
    rfl
  · simp [Renews]
  · have hout : ¬ Renews (records ++ [r]) k := by
      intro h
      have hlt := h.lt_length
      rw [List.length_append, List.length_singleton] at hlt
      omega
    simp only [hout, hgt.ne', false_and, or_false, false_iff]
    exact fun h => absurd h.lt_length (lt_asymm hgt)

theorem isLastRenewal_append_renewing (hip : hasIpAddr r.addr = true)
    (hnewer : ∀ b ∈ records, b.lastHeartbeat < r.lastHeartbeat) :
    IsLastRenewal (records ++ [r]) records.length := by
  refine .inl ⟨renews_append_singleton.mpr (.inr ⟨rfl, hip, hnewer⟩), fun j hj => ?_⟩
  rcases renews_append_singleton.mp hj with hj | ⟨rfl, -⟩
  · exact hj.lt_length.le
  · exact Nat.le_refl _

theorem IsLastRenewal.append_other (h : IsLastRenewal records k)
    (hother : ¬ (hasIpAddr r.addr = true ∧ ∀ b ∈ records, b.lastHeartbeat < r.lastHeartbeat)) :
    IsLastRenewal (records ++ [r]) k := by
  have hsame (j : Nat) : Renews (records ++ [r]) j ↔ Renews records j := by
    rw [renews_append_singleton, or_iff_left (fun hr => hother hr.2)]
  simpa only [IsLastRenewal, hsame] using h

theorem exists_mem_drop_append (hk : k ≤ records.length) (P : Node → Prop) :
    (∃ b ∈ (records ++ [r]).drop k, P b) ↔ (∃ b ∈ records.drop k, P b) ∨ P r := by
  simp [List.drop_append_of_le_length hk, or_and_right, exists_or]

end Append

/-- The record kept says what the first newest one says and lists the IPs since the last
renewal. -/
theorem mergeHistory_eq {id : EndpointId} {records : List Node} (hne : records ≠ [])
    (hid : ∀ r ∈ records, r.addr.id = id) :
    ∃ newest addr, mergeHistory records = some { newest with addr := addr } ∧
      IsFirstNewest records newest ∧ addr.id = id ∧ ∃ k, IsLastRenewal records k ∧
        ∀ sock, .ip sock ∈ addr.addrs ↔
          ∃ r ∈ records.drop k, TransportAddr.ip sock ∈ r.addr.addrs := by
  induction records using List.reverseRecOn with
  | nil => contradiction
  | append_singleton records r ih =>
    have hr : r.addr.id = id := hid r (by simp)
    rw [mergeHistory_append_singleton]
    by_cases hempty : records = []
    · subst hempty
      refine ⟨r, r.addr, rfl, ⟨[], [], rfl, by simp, by simp⟩, hr, 0, ?_, by simp⟩
      cases hip : hasIpAddr r.addr with
      | true => exact @isLastRenewal_append_renewing [] r hip (by simp)
      | false =>
        have hnone : IsLastRenewal [] 0 := .inr ⟨rfl, fun j h => absurd h.lt_length (by simp)⟩
        exact hnone.append_other (by simp [hip])
    obtain ⟨newest, addr, hheld, hnewest, haddr, k, hk, hips⟩ :=
      ih hempty fun b hb => hid b (List.mem_append_left _ hb)
    have hsame : addr.id = r.addr.id := haddr.trans hr.symm
    -- an address that is completed lists the IPs held and the ones it brings
    have hunion (sock : SocketAddr) : .ip sock ∈ (mergeAddr addr r.addr).addrs ↔
        ∃ b ∈ (records ++ [r]).drop k, TransportAddr.ip sock ∈ b.addr.addrs := by
      rw [ip_mem_mergeAddr hsame, hips, exists_mem_drop_append hk.le_length]
    have hmerged : (mergeAddr addr r.addr).id = id := (mergeAddr_id _ _).trans hr
    rw [hheld]
    by_cases hnewer : ({ newest with addr := addr } : Node).lastHeartbeat < r.lastHeartbeat
    · rw [mergeNode_newer hnewer]
      refine ⟨r, _, rfl, hnewest.append_newer hnewer, ?_⟩
      cases hip : hasIpAddr r.addr with
      | true =>
        rw [if_pos rfl]
        refine ⟨hr, records.length, ?_, by simp⟩
        exact isLastRenewal_append_renewing hip fun b hb => (hnewest.le b hb).trans_lt hnewer
      | false =>
        rw [if_neg Bool.false_ne_true]
        exact ⟨hmerged, k, hk.append_other (by simp [hip]), hunion⟩
    · rw [mergeNode_not_newer hnewer]
      refine ⟨newest, _, rfl, hnewest.append_not_newer hnewer, hmerged, k, ?_, hunion⟩
      exact hk.append_other fun h => hnewer (h.2 newest hnewest.mem)

theorem IsLastRenewal.exists_ip_iff {records : List Node} {k : Nat} (h : IsLastRenewal records k) :
    (∃ r ∈ records.drop k, hasIpAddr r.addr = true) ↔ ∃ r ∈ records, hasIpAddr r.addr = true := by
  rcases h with ⟨⟨r, hr, hip, -⟩, -⟩ | ⟨rfl, -⟩
  · have hdrop : (records.drop k)[0]? = some r := by rw [List.getElem?_drop, Nat.add_zero, hr]
    exact iff_of_true ⟨r, List.mem_of_getElem? hdrop, hip⟩ ⟨r, List.mem_of_getElem? hr, hip⟩
  · rw [List.drop_zero]

/-- Merging a history keeps the newest facts, and some IP if there ever was one. -/
theorem merge_node_history {id : EndpointId} {records : List Node} (hne : records ≠ [])
    (hid : ∀ r ∈ records, r.nodeId = id ∧ r.addr.id = id) :
    ∃ merged, mergeHistory records = some merged ∧ merged.nodeId = id ∧ merged.addr.id = id ∧
      (∀ r ∈ records, r.lastHeartbeat ≤ merged.lastHeartbeat) ∧
      (∃ newest, IsFirstNewest records newest ∧ merged = { newest with addr := merged.addr }) ∧
      (∃ k, IsLastRenewal records k ∧ ∀ sock, .ip sock ∈ merged.addr.addrs ↔
        ∃ r ∈ records.drop k, TransportAddr.ip sock ∈ r.addr.addrs) ∧
      (hasIpAddr merged.addr = true ↔ ∃ r ∈ records, hasIpAddr r.addr = true) := by
  obtain ⟨newest, addr, hmerged, hnewest, haddr, k, hk, hips⟩ :=
    mergeHistory_eq hne fun r hr => (hid r hr).2
  refine ⟨_, hmerged, (hid newest hnewest.mem).1, haddr, hnewest.le, ⟨newest, hnewest, rfl⟩,
    ⟨k, hk, hips⟩, ?_⟩
  rw [← hk.exists_ip_iff]
  simp only [hasIpAddr_iff, hips]
  constructor
  · rintro ⟨sock, r, hr, hsock⟩
    exact ⟨r, hr, sock, hsock⟩
  · rintro ⟨r, hr, sock, hsock⟩
    exact ⟨sock, r, hr, hsock⟩

namespace Sample

def historyOfBob : List Node :=
  [record bob "bob" [2] 1000, record bob "robert" [] 1001, record bob "bobby" [3] 1001]

theorem historyOfBob_merged :
    ∃ merged, mergeHistory historyOfBob = some merged ∧ merged.nodeId = bob ∧
      merged.addr.id = bob ∧
      (∀ r ∈ historyOfBob, r.lastHeartbeat ≤ merged.lastHeartbeat) ∧
      (∃ newest, IsFirstNewest historyOfBob newest ∧
        merged = { newest with addr := merged.addr }) ∧
      (∃ k, IsLastRenewal historyOfBob k ∧ ∀ sock, .ip sock ∈ merged.addr.addrs ↔
        ∃ r ∈ historyOfBob.drop k, TransportAddr.ip sock ∈ r.addr.addrs) ∧
      (hasIpAddr merged.addr = true ↔ ∃ r ∈ historyOfBob, hasIpAddr r.addr = true) :=
  merge_node_history (by decide) (by simp [historyOfBob, record])

end Sample
end P2pDdns
