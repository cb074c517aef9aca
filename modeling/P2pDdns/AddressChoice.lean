import Mathlib.Data.Prod.Lex
import P2pDdns.BestAddress
import P2pDdns.NewestWins

/-!
What the single address of a peer is chosen for: of the IPs that can be reached from here, one
with the longest prefix in common with an IP of this machine, and of those one of its family.
-/

set_option autoImplicit false

namespace P2pDdns
open Std NewestWins

/-! Leading bits. -/

/-- The addresses are of one family and agree in so many leading bits. -/
def ShareBits (n : Nat) : IpAddr → IpAddr → Prop
  | .v4 a, .v4 b => n ≤ 32 ∧ ∀ i < n, a.getMsbD i = b.getMsbD i
  | .v6 a, .v6 b => n ≤ 128 ∧ ∀ i < n, a.getMsbD i = b.getMsbD i
  | _, _ => False

theorem le_clz_iff {w n : Nat} (hw : 0 < w) (x : BitVec w) :
    n ≤ x.clz.toNat ↔ n ≤ w ∧ ∀ i < n, x.getMsbD i = false := by
  have hle : x.clz.toNat ≤ w := by
    have h : x.clz.toNat ≤ (BitVec.ofNat w w).toNat := BitVec.le_def.mp BitVec.clz_le
    rwa [BitVec.toNat_ofNat, Nat.mod_eq_of_lt Nat.lt_two_pow_self] at h
  constructor
  · intro hn
    refine ⟨hn.trans hle, fun i hi => ?_⟩
    have hlow : ∀ j, w - 1 < j → x.getLsbD j = false := fun j hj => by
      simp [show w ≤ j by omega]
    have hzero := BitVec.getLsbD_false_of_clzAuxRec hlow (x.clz.toNat - 1 - i)
    have hclz : (x.clzAuxRec (w - 1)).toNat = x.clz.toNat := rfl
    rw [hclz, show w - x.clz.toNat + (x.clz.toNat - 1 - i) = w - 1 - i by omega] at hzero
    rw [BitVec.getMsbD_eq_getLsbD, hzero, Bool.and_false]
  · rintro ⟨hn, hzero⟩
    by_contra hlt
    have hx : x ≠ 0#w := by
      rintro rfl
      rw [BitVec.clz_eq_iff_eq_zero.mpr rfl] at hlt
      rw [BitVec.natCast_eq_ofNat, BitVec.toNat_ofNat, Nat.mod_eq_of_lt Nat.lt_two_pow_self] at hlt
      exact hlt hn
    have hone := BitVec.getLsbD_true_clz_of_ne_zero hw hx
    have hbit := hzero x.clz.toNat (by omega)
    rw [BitVec.getMsbD_eq_getLsbD, hone, decide_eq_true (by omega)] at hbit
    contradiction

theorem le_commonPrefixBits_iff {n : Nat} {a b : IpAddr} :
    n ≤ commonPrefixBits a b ↔ n = 0 ∨ ShareBits n a b := by
  have hxor {w : Nat} (x y : BitVec w) (hw : 0 < w) :
      n ≤ (x ^^^ y).clz.toNat ↔ n = 0 ∨ n ≤ w ∧ ∀ i < n, x.getMsbD i = y.getMsbD i := by
    rw [le_clz_iff hw]
    simp only [BitVec.getMsbD_xor, bne_eq_false_iff_eq]
    constructor
    · exact .inr
    · rintro (rfl | h)
      · simp
      · exact h
  cases a with
  | v4 x =>
    cases b with
    | v4 y => exact hxor x y (by decide)
    | v6 y => simp [commonPrefixBits, ShareBits]
  | v6 x =>
    cases b with
    | v4 y => simp [commonPrefixBits, ShareBits]
    | v6 y => exact hxor x y (by decide)

theorem le_bestPrefixScore_iff {n : Nat} {ip : IpAddr} {locals : List IpAddr} :
    n ≤ bestPrefixScore ip locals ↔ n = 0 ∨ ∃ l ∈ locals, ShareBits n ip l := by
  unfold bestPrefixScore
  cases hmax : (locals.map (commonPrefixBits ip)).max? with
  | none =>
    have hnil : locals = [] := List.map_eq_nil_iff.mp (List.max?_eq_none_iff.mp hmax)
    simp [hnil]
  | some m =>
    obtain ⟨hmem, hle⟩ := List.max?_eq_some_iff.mp hmax
    rw [Option.getD_some]
    constructor
    · intro hn
      obtain ⟨l, hl, rfl⟩ := List.mem_map.mp hmem
      exact (le_commonPrefixBits_iff.mp hn).imp_right fun h => ⟨l, hl, h⟩
    · rintro (rfl | ⟨l, hl, hshare⟩)
      · exact Nat.zero_le m
      · exact (le_commonPrefixBits_iff.mpr (.inr hshare)).trans
          (hle _ (List.mem_map_of_mem hl))

/-! What is asked of the address. -/

def LocalOnly (here : EndpointAddr) : Prop := ∀ sock ∈ here.ipAddrs, isLocalOnlyIp sock.ip = true

/-- An IP of this machine that those of a peer are compared with. -/
def Considered (here : EndpointAddr) (ip : IpAddr) : Prop :=
  (∃ sock ∈ here.ipAddrs, sock.ip = ip) ∧ (LocalOnly here ∨ isLocalOnlyIp ip = false)

def Eligible (remote here : EndpointAddr) (sock : SocketAddr) : Prop :=
  sock ∈ remote.ipAddrs ∧ (LocalOnly here ∨ isLocalOnlyIp sock.ip = false)

/-- The most leading bits the IP has in common with a considered one. -/
structure IsScore (here : EndpointAddr) (ip : IpAddr) (score : Nat) : Prop where
  attained : score = 0 ∨ ∃ l, Considered here l ∧ ShareBits score ip l
  greatest : ∀ l n, Considered here l → ShareBits n ip l → n ≤ score

/-- The family is IPv6 where everything considered is, and IPv4 elsewhere. -/
def Preferred (here : EndpointAddr) (ip : IpAddr) : Prop :=
  isIpv6 ip = true ↔ ∀ l, Considered here l → isIpv6 l = true

/-- No eligible IP has a larger score, or as large a one and alone the preferred family. -/
structure Optimal (remote here : EndpointAddr) (sock : SocketAddr) : Prop where
  eligible : Eligible remote here sock
  best : ∃ score, IsScore here sock.ip score ∧ ∀ other, Eligible remote here other →
    ∃ score', IsScore here other.ip score' ∧ score' ≤ score ∧
      (score' = score → Preferred here other.ip → Preferred here sock.ip)

/-! The scan. -/

def consideredIps (here : EndpointAddr) : List IpAddr :=
  let allLocalIps := here.ipAddrs.map SocketAddr.ip
  let localIps := allLocalIps.filter fun ip => !isLocalOnlyIp ip
  if localIps.isEmpty then allLocalIps else localIps

def candidate (localIps : List IpAddr) (sock : SocketAddr) : Nat × Bool × SocketAddr :=
  (bestPrefixScore sock.ip localIps, isIpv4 sock.ip, sock)

/-- What the scan compares: the score first, then whether the family is the preferred one. -/
def rank (preferV4 : Bool) (best : Nat × Bool × SocketAddr) : Nat ×ₗ Bool :=
  toLex (best.1, best.2.1 == preferV4)

theorem betterFamily_iff : ∀ preferV4 current new : Bool,
    ((if preferV4 then new && !current else !new && current) = true) ↔
      (current == preferV4) < (new == preferV4) := by
  decide

theorem considerSock_skipped {localIps : List IpAddr} {localOnlyMode preferV4 : Bool}
    {sock : SocketAddr} (h : (localOnlyMode || !isLocalOnlyIp sock.ip) = false)
    (best : Option (Nat × Bool × SocketAddr)) :
    considerSock localIps localOnlyMode preferV4 best sock = best := by
  rw [Bool.or_eq_false_iff, Bool.not_eq_false'] at h
  simp [considerSock, h.1, h.2]

theorem considerSock_absorb {localIps : List IpAddr} {localOnlyMode preferV4 : Bool}
    {sock : SocketAddr} (h : (localOnlyMode || !isLocalOnlyIp sock.ip) = true)
    (best : Option (Nat × Bool × SocketAddr)) :
    considerSock localIps localOnlyMode preferV4 best sock =
      absorb (rank preferV4) (fun _ new => new) best (candidate localIps sock) := by
  have hkeep : ¬ (!localOnlyMode && isLocalOnlyIp sock.ip) = true := by
    intro hskip
    rw [Bool.and_eq_true, Bool.not_eq_true'] at hskip
    rw [hskip.1, hskip.2] at h
    contradiction
  rw [considerSock, if_neg hkeep]
  cases best with
  | none => rfl
  | some current =>
    have hbetter : rank preferV4 current < rank preferV4 (candidate localIps sock) ↔
        current.1 < bestPrefixScore sock.ip localIps ∨
          (bestPrefixScore sock.ip localIps = current.1 ∧
            (if preferV4 then isIpv4 sock.ip && !current.2.1
              else !isIpv4 sock.ip && current.2.1) = true) := by
      rw [betterFamily_iff, rank, rank, Prod.Lex.toLex_lt_toLex, @eq_comm _ current.1]
      rfl
    simp only [absorb, hbetter]
    simp only [candidate, gt_iff_lt, Bool.or_eq_true, decide_eq_true_eq, Bool.and_eq_true,
      beq_iff_eq]

theorem foldl_considerSock (localIps : List IpAddr) (localOnlyMode preferV4 : Bool)
    (socks : List SocketAddr) (best : Option (Nat × Bool × SocketAddr)) :
    socks.foldl (considerSock localIps localOnlyMode preferV4) best =
      absorbAll (rank preferV4) (fun _ new => new) best
        ((socks.filter fun sock => localOnlyMode || !isLocalOnlyIp sock.ip).map
          (candidate localIps)) := by
  induction socks generalizing best with
  | nil => rfl
  | cons sock socks ih =>
    rw [List.foldl_cons, ih]
    cases helig : localOnlyMode || !isLocalOnlyIp sock.ip with
    | false =>
      rw [List.filter_cons, helig, if_neg Bool.false_ne_true, considerSock_skipped helig]
    | true =>
      rw [List.filter_cons, helig, if_pos rfl, List.map_cons, absorbAll_cons,
        considerSock_absorb helig]

section Choice
variable {remote here : EndpointAddr}

def localOnlyMode (here : EndpointAddr) : Bool :=
  ((here.ipAddrs.map SocketAddr.ip).filter fun ip => !isLocalOnlyIp ip).isEmpty

def prefersV4 (here : EndpointAddr) : Bool :=
  (consideredIps here).any isIpv4 || !(consideredIps here).any isIpv6

/-- The IPs of the peer the scan takes in, with their scores. -/
def candidates (remote here : EndpointAddr) : List (Nat × Bool × SocketAddr) :=
  (remote.ipAddrs.filter fun sock => localOnlyMode here || !isLocalOnlyIp sock.ip).map
    (candidate (consideredIps here))

theorem bestEndpointAddrForLocal_eq (hne : here.ipAddrs ≠ []) :
    bestEndpointAddrForLocal remote here =
      match absorbAll (rank (prefersV4 here)) (fun _ new => new) none (candidates remote here) with
      | none => remote
      | some (_, _, bestSock) => .fromParts remote.id [.ip bestSock] := by
  rw [candidates, ← foldl_considerSock, bestEndpointAddrForLocal]
  dsimp only
  rw [List.isEmpty_map, if_neg (by simpa using hne)]
  rfl

theorem localOnlyMode_iff : localOnlyMode here = true ↔ LocalOnly here := by
  simp [localOnlyMode, LocalOnly]

theorem mem_consideredIps {ip : IpAddr} : ip ∈ consideredIps here ↔ Considered here ip := by
  have hmem : ip ∈ here.ipAddrs.map SocketAddr.ip ↔ ∃ sock ∈ here.ipAddrs, sock.ip = ip :=
    List.mem_map
  unfold consideredIps Considered
  dsimp only
  split
  · rename_i hlocal
    rw [hmem, and_iff_left (.inl (localOnlyMode_iff.mp hlocal))]
  · rename_i hlocal
    rw [List.mem_filter, hmem, or_iff_right (fun h => hlocal (localOnlyMode_iff.mpr h)),
      Bool.not_eq_true']

theorem mem_candidates {best : Nat × Bool × SocketAddr} :
    best ∈ candidates remote here ↔
      ∃ sock, Eligible remote here sock ∧ candidate (consideredIps here) sock = best := by
  simp only [candidates, List.mem_map, List.mem_filter, Bool.or_eq_true, localOnlyMode_iff,
    Bool.not_eq_true', Eligible]

theorem bestPrefixScore_isScore (here : EndpointAddr) (ip : IpAddr) :
    IsScore here ip (bestPrefixScore ip (consideredIps here)) where
  attained := by
    obtain hzero | ⟨l, hl, hshare⟩ := le_bestPrefixScore_iff.mp
      (Nat.le_refl (bestPrefixScore ip (consideredIps here)))
    · exact .inl hzero
    · exact .inr ⟨l, mem_consideredIps.mp hl, hshare⟩
  greatest l n hl hshare :=
    le_bestPrefixScore_iff.mpr (.inr ⟨l, mem_consideredIps.mpr hl, hshare⟩)

theorem isIpv4_eq (ip : IpAddr) : isIpv4 ip = !isIpv6 ip := by cases ip <;> rfl

theorem consideredIps_ne_nil (hne : here.ipAddrs ≠ []) : consideredIps here ≠ [] := by
  unfold consideredIps
  dsimp only
  split
  · simpa using hne
  · rename_i hlocal
    simpa using hlocal

theorem preferred_iff (hne : here.ipAddrs ≠ []) (ip : IpAddr) :
    Preferred here ip ↔ isIpv4 ip = prefersV4 here := by
  have hall : (∀ l, Considered here l → isIpv6 l = true) ↔ prefersV4 here = false := by
    obtain ⟨first, hfirst⟩ := List.exists_mem_of_ne_nil _ (consideredIps_ne_nil hne)
    simp only [prefersV4, isIpv4_eq, Bool.or_eq_false_iff, List.any_eq_false, Bool.not_eq_false',
      Bool.not_eq_true, List.any_eq_true, mem_consideredIps]
    exact ⟨fun h => ⟨h, first, mem_consideredIps.mp hfirst, h first (mem_consideredIps.mp hfirst)⟩,
      fun h => h.1⟩
  rw [Preferred, hall, isIpv4_eq]
  cases isIpv6 ip <;> cases prefersV4 here <;> simp

theorem optimal_of_rank (hne : here.ipAddrs ≠ []) {sock : SocketAddr}
    (helig : Eligible remote here sock)
    (hmax : ∀ best ∈ candidates remote here,
      rank (prefersV4 here) best ≤ rank (prefersV4 here) (candidate (consideredIps here) sock)) :
    Optimal remote here sock := by
  refine ⟨helig, _, bestPrefixScore_isScore here sock.ip, fun other hother => ?_⟩
  refine ⟨_, bestPrefixScore_isScore here other.ip, ?_⟩
  have hle := hmax _ (mem_candidates.mpr ⟨other, hother, rfl⟩)
  rw [rank, rank, Prod.Lex.toLex_le_toLex] at hle
  obtain hlt | ⟨heq, hfamily⟩ := hle
  · exact ⟨hlt.le, fun heq => absurd heq hlt.ne⟩
  · refine ⟨heq.le, fun _ hpref => ?_⟩
    rw [preferred_iff hne] at hpref ⊢
    have hother : (isIpv4 other.ip == prefersV4 here) = true := beq_iff_eq.mpr hpref
    exact beq_iff_eq.mp (hfamily hother)

theorem bestEndpointAddrForLocal_empty (h : here.ipAddrs = []) :
    bestEndpointAddrForLocal remote here = remote := by
  simp [bestEndpointAddrForLocal, h]

section Congr
variable {here' : EndpointAddr}
  (h : ∀ ip, (∃ sock ∈ here.ipAddrs, sock.ip = ip) ↔ ∃ sock ∈ here'.ipAddrs, sock.ip = ip)
include h

theorem localOnlyMode_congr : localOnlyMode here = localOnlyMode here' := by
  have hlocal (addr : EndpointAddr) :
      LocalOnly addr ↔ ∀ ip, (∃ sock ∈ addr.ipAddrs, sock.ip = ip) → isLocalOnlyIp ip = true := by
    constructor
    · rintro hall _ ⟨sock, hsock, rfl⟩
      exact hall sock hsock
    · exact fun hall sock hsock => hall _ ⟨sock, hsock, rfl⟩
  rw [Bool.eq_iff_iff, localOnlyMode_iff, localOnlyMode_iff, hlocal, hlocal]
  simp only [h]

theorem mem_consideredIps_congr (ip : IpAddr) :
    ip ∈ consideredIps here ↔ ip ∈ consideredIps here' := by
  rw [mem_consideredIps, mem_consideredIps, Considered, Considered, h, ← localOnlyMode_iff,
    ← localOnlyMode_iff, localOnlyMode_congr h]

theorem prefersV4_congr : prefersV4 here = prefersV4 here' := by
  have hany (p : IpAddr → Bool) : (consideredIps here).any p = (consideredIps here').any p := by
    rw [Bool.eq_iff_iff, List.any_eq_true, List.any_eq_true]
    simp only [mem_consideredIps_congr h]
  rw [prefersV4, prefersV4, hany, hany]

theorem candidates_congr : candidates remote here = candidates remote here' := by
  have hscore (ip : IpAddr) :
      bestPrefixScore ip (consideredIps here) = bestPrefixScore ip (consideredIps here') := by
    apply eq_of_forall_le_iff
    intro n
    rw [le_bestPrefixScore_iff, le_bestPrefixScore_iff]
    simp only [mem_consideredIps_congr h]
  have hcandidate : candidate (consideredIps here) = candidate (consideredIps here') := by
    funext sock
    rw [candidate, candidate, hscore]
  rw [candidates, candidates, localOnlyMode_congr h, hcandidate]

theorem bestEndpointAddrForLocal_congr :
    bestEndpointAddrForLocal remote here = bestEndpointAddrForLocal remote here' := by
  have hempty : here.ipAddrs = [] ↔ here'.ipAddrs = [] := by
    simp only [List.eq_nil_iff_forall_not_mem]
    constructor
    · intro hnone sock hsock
      obtain ⟨first, hfirst, -⟩ := (h sock.ip).mpr ⟨sock, hsock, rfl⟩
      exact hnone first hfirst
    · intro hnone sock hsock
      obtain ⟨first, hfirst, -⟩ := (h sock.ip).mp ⟨sock, hsock, rfl⟩
      exact hnone first hfirst
  by_cases hne : here.ipAddrs = []
  · rw [bestEndpointAddrForLocal_empty hne, bestEndpointAddrForLocal_empty (hempty.mp hne)]
  · rw [bestEndpointAddrForLocal_eq hne, bestEndpointAddrForLocal_eq (mt hempty.mpr hne),
      prefersV4_congr h, candidates_congr h]

end Congr

theorem bestEndpointAddrForLocal_none (hnone : ∀ sock, ¬ Eligible remote here sock) :
    bestEndpointAddrForLocal remote here = remote := by
  by_cases hne : here.ipAddrs = []
  · exact bestEndpointAddrForLocal_empty hne
  · have hcandidates : candidates remote here = [] := by
      apply List.eq_nil_iff_forall_not_mem.mpr
      intro best hbest
      obtain ⟨sock, hsock, -⟩ := mem_candidates.mp hbest
      exact hnone sock hsock
    rw [bestEndpointAddrForLocal_eq hne, hcandidates]
    rfl

theorem bestEndpointAddrForLocal_some (hne : here.ipAddrs ≠ [])
    (hsome : ∃ sock, Eligible remote here sock) :
    ∃ sock, Optimal remote here sock ∧
      bestEndpointAddrForLocal remote here = .fromParts remote.id [.ip sock] := by
  have hcandidates : candidates remote here ≠ [] := by
    obtain ⟨sock, hsock⟩ := hsome
    exact List.ne_nil_of_mem (mem_candidates.mpr ⟨sock, hsock, rfl⟩)
  obtain ⟨best, before, after, hbest, happend, hbefore, hafter⟩ :=
    @absorbAll_first _ _ _ (rank (prefersV4 here)) _ hcandidates
  have hmem : best ∈ candidates remote here := by simp [happend]
  obtain ⟨sock, helig, rfl⟩ := mem_candidates.mp hmem
  refine ⟨sock, optimal_of_rank hne helig fun other hother => ?_, ?_⟩
  · rw [happend, List.mem_append, List.mem_cons] at hother
    obtain hother | rfl | hother := hother
    · exact (hbefore other hother).le
    · exact le_rfl
    · exact hafter other hother
  · rw [bestEndpointAddrForLocal_eq hne, hbest]
    rfl

end Choice

/-- One address of the peer, for which there is no better one; everything the peer has where
there is nothing to compare with or nothing to choose from. Further ports of this machine make no
difference. -/
theorem best_addr_optimal (remote here : EndpointAddr) :
    ((here.ipAddrs = [] ∨ ∀ sock, ¬ Eligible remote here sock) →
      bestEndpointAddrForLocal remote here = remote) ∧
    (here.ipAddrs ≠ [] → (∃ sock, Eligible remote here sock) →
      ∃ sock, Optimal remote here sock ∧
        bestEndpointAddrForLocal remote here = .fromParts remote.id [.ip sock]) ∧
    ∀ sock ∈ here.ipAddrs, ∀ sock', sock'.ip = sock.ip →
      bestEndpointAddrForLocal remote ⟨here.id, here.addrs.insert (.ip sock')⟩ =
        bestEndpointAddrForLocal remote here := by
  refine ⟨?_, bestEndpointAddrForLocal_some, fun sock hsock sock' hip => ?_⟩
  · rintro (hempty | hnone)
    · exact bestEndpointAddrForLocal_empty hempty
    · exact bestEndpointAddrForLocal_none hnone
  · -- the added address brings no IP that is not there already
    apply bestEndpointAddrForLocal_congr
    intro ip
    simp only [EndpointAddr.mem_ipAddrs, ExtTreeSet.mem_insert, Std.compare_eq_iff_eq,
      TransportAddr.ip.injEq] at hsock ⊢
    constructor
    · rintro ⟨other, rfl | hother, rfl⟩
      · exact ⟨sock, hsock, hip.symm⟩
      · exact ⟨other, hother, rfl⟩
    · rintro ⟨other, hother, rfl⟩
      exact ⟨other, .inr hother, rfl⟩

end P2pDdns
