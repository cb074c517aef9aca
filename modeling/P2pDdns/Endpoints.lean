import P2pDdns.BestAddress
import P2pDdns.FiniteMaps
import P2pDdns.HostEntries

/-!
Where a daemon is to listen, and which of the addresses it is reached at it tells others.
-/

set_option autoImplicit false

namespace P2pDdns
open Std FiniteMaps

/-! The addresses to bind. -/

inductive BindTarget where
  | ip (ip : IpAddr)
  | socket (addr : SocketAddr)

structure Interface where
  name : String
  friendlyName : Option String
  index : BitVec 32
  ipv4 : List (BitVec 32)
  ipv6 : List (BitVec 128)
  ipv6ScopeIds : List (BitVec 32)
  loopback : Bool
  up : Bool

structure InterfaceAddrs where
  v4 : List (BitVec 32)
  v6 : List (BitVec 128 × BitVec 32)

structure SocketAddrV4 where
  ip : BitVec 32
  port : BitVec 16
  deriving DecidableEq

structure SocketAddrV6 where
  ip : BitVec 128
  port : BitVec 16
  flowinfo : BitVec 32
  scopeId : BitVec 32
  deriving DecidableEq

structure BindAddrs where
  v4 : Option SocketAddrV4
  v6 : Option SocketAddrV6
  preferV6Fallback : Bool

/-- `bind` and `bind_interface` of the arguments; text is parsed by the standard library. -/
structure BindArgs where
  bind : Option String
  bindInterface : Option String
  parseSocketAddr : String → Option SocketAddr
  parseIpAddr : String → Option IpAddr

namespace BindArgs

def parseBindTarget (args : BindArgs) (bind : String) : Except String BindTarget :=
  match args.parseSocketAddr bind with
  | some addr => .ok (.socket addr)
  | none =>
    match args.parseIpAddr bind with
    | some ip => .ok (.ip ip)
    | none =>
      let bracketed := ['['].isPrefixOf bind.toList && [']'].isSuffixOf bind.toList
      match if bracketed then args.parseIpAddr (.ofList bind.toList.tail.dropLast) else none with
      | some ip => .ok (.ip ip)
      | none => .error ("invalid bind value `" ++ bind ++ "`; expected IP or IP:PORT")

end BindArgs

def lookupInterfaceAddrs (interfaces : List Interface) (name : String) :
    Except String InterfaceAddrs :=
  match interfaces.find? fun iface => iface.name = name || iface.friendlyName = some name with
  | none => .error ("network interface `" ++ name ++ "` not found")
  | some iface =>
    let v4 := iface.ipv4
    let v6 := iface.ipv6.zipIdx.map fun it => (it.1, iface.ipv6ScopeIds.getD it.2 iface.index)
    let addrs : InterfaceAddrs :=
      { v4 := (v4.mergeSort fun a b => a ≤ b).eraseReps
        v6 := (v6.mergeSort fun a b => a.1 < b.1 || a.1 = b.1 && a.2 ≤ b.2).eraseReps }
    if addrs.v4.isEmpty && addrs.v6.isEmpty then
      .error ("network interface `" ++ name ++ "` has no IP addresses")
    else .ok addrs

/-- A loopback or wildcard address stands for that of the other family too, at the same port. -/
def bindSocket : SocketAddr → BindAddrs
  | .v4 ip port =>
    { v4 := some ⟨ip, port⟩
      v6 :=
        if isLoopback (.v4 ip) then some ⟨1, port, 0, 0⟩
        else if isUnspecified (.v4 ip) then some ⟨0, port, 0, 0⟩
        else none
      preferV6Fallback := false }
  | .v6 ip port flowinfo scopeId =>
    { v4 :=
        if isLoopback (.v6 ip) then some ⟨0x7f000001, port⟩
        else if isUnspecified (.v6 ip) then some ⟨0, port⟩
        else none
      v6 := some ⟨ip, port, flowinfo, scopeId⟩
      preferV6Fallback := true }

def bindIp (ip : IpAddr) (port : BitVec 16) : BindAddrs :=
  match ip with
  | .v4 ip => bindSocket (.v4 ip port)
  | .v6 ip => bindSocket (.v6 ip port 0 0)

def bindInterface (addrs : InterfaceAddrs) (port : BitVec 16) : BindAddrs :=
  let v4 := addrs.v4.head?.map fun ip => ⟨ip, port⟩
  let v6 := addrs.v6.head?.map fun it => ⟨it.1, port, 0, it.2⟩
  { v4 := v4, v6 := v6, preferV6Fallback := v4.isNone && v6.isSome }

def bindEverywhere (port : BitVec 16) : BindAddrs :=
  { v4 := some ⟨0, port⟩, v6 := some ⟨0, port, 0, 0⟩, preferV6Fallback := true }

structure BindAddrs.AtPort (addrs : BindAddrs) (port : BitVec 16) : Prop where
  some : addrs.v4.isSome ∨ addrs.v6.isSome
  v4 : ∀ sock, addrs.v4 = .some sock → sock.port = port
  v6 : ∀ sock, addrs.v6 = .some sock → sock.port = port

theorem bindIp_atPort (ip : IpAddr) (port : BitVec 16) : (bindIp ip port).AtPort port := by
  cases ip with
  | v4 ip =>
    refine ⟨.inl rfl, fun sock h => (Option.some.inj h) ▸ rfl, fun sock h => ?_⟩
    simp only [bindIp, bindSocket] at h
    split at h
    · exact (Option.some.inj h) ▸ rfl
    · split at h
      · exact (Option.some.inj h) ▸ rfl
      · contradiction
  | v6 ip =>
    refine ⟨.inr rfl, fun sock h => ?_, fun sock h => (Option.some.inj h) ▸ rfl⟩
    simp only [bindIp, bindSocket] at h
    split at h
    · exact (Option.some.inj h) ▸ rfl
    · split at h
      · exact (Option.some.inj h) ▸ rfl
      · contradiction

theorem lookupInterfaceAddrs_ne_nil {interfaces : List Interface} {name : String}
    {addrs : InterfaceAddrs} (h : lookupInterfaceAddrs interfaces name = .ok addrs) :
    addrs.v4 ≠ [] ∨ addrs.v6 ≠ [] := by
  unfold lookupInterfaceAddrs at h
  split at h
  · contradiction
  · dsimp only at h
    split at h
    · contradiction
    · rename_i hsome
      obtain rfl := Except.ok.inj h
      rw [Bool.and_eq_true, not_and_or] at hsome
      simpa only [List.isEmpty_iff] using hsome

theorem bindInterface_atPort {addrs : InterfaceAddrs} (h : addrs.v4 ≠ [] ∨ addrs.v6 ≠ [])
    (port : BitVec 16) : (bindInterface addrs port).AtPort port := by
  refine ⟨?_, ?_, ?_⟩
  · simpa [bindInterface] using h
  · intro sock hsock
    obtain ⟨ip, -, rfl⟩ := Option.map_eq_some_iff.mp hsock
    rfl
  · intro sock hsock
    obtain ⟨it, -, rfl⟩ := Option.map_eq_some_iff.mp hsock
    rfl

theorem bindEverywhere_atPort (port : BitVec 16) : (bindEverywhere port).AtPort port :=
  ⟨.inl rfl, fun _ h => (Option.some.inj h) ▸ rfl, fun _ h => (Option.some.inj h) ▸ rfl⟩

/-- Why no endpoint came up: both families together, then each alone. -/
inductive BindError where
  | single (primary : String)
  | dualStack (primary first second : String)

section Fallback
variable {ε : Type} (bindEndpoint : Option SocketAddrV4 → Option SocketAddrV6 → Except String ε)

/-- Where both families cannot be bound together, one is tried and then the other. -/
def bindWithFallback (addrs : BindAddrs) : Except BindError ε :=
  match bindEndpoint addrs.v4 addrs.v6 with
  | .ok endpoint => .ok endpoint
  | .error primary =>
    if addrs.v4.isSome && addrs.v6.isSome then
      let first := if addrs.preferV6Fallback then (none, addrs.v6) else (addrs.v4, none)
      let second := if addrs.preferV6Fallback then (addrs.v4, none) else (none, addrs.v6)
      match bindEndpoint first.1 first.2 with
      | .ok endpoint => .ok endpoint
      | .error e =>
        match bindEndpoint second.1 second.2 with
        | .ok endpoint => .ok endpoint
        | .error e2 => .error (.dualStack primary e e2)
    else .error (.single primary)

/-- It fails only if neither both families nor one of the two can be bound. -/
theorem bindWithFallback_isOk (addrs : BindAddrs) :
    (bindWithFallback bindEndpoint addrs).isOk =
      ((bindEndpoint addrs.v4 addrs.v6).isOk ||
        addrs.v4.isSome && addrs.v6.isSome &&
          ((bindEndpoint addrs.v4 none).isOk || (bindEndpoint none addrs.v6).isOk)) := by
  unfold bindWithFallback
  cases bindEndpoint addrs.v4 addrs.v6 with
  | ok endpoint => rfl
  | error primary =>
    cases hboth : addrs.v4.isSome && addrs.v6.isSome with
    | false => rfl
    | true =>
      cases addrs.preferV6Fallback <;> cases h4 : bindEndpoint addrs.v4 none <;>
        cases h6 : bindEndpoint none addrs.v6 <;> simp [h4, h6, Except.isOk, Except.toBool]

end Fallback

/-! The addresses to advertise. -/

def LOCAL_ONLY_INTERFACE_EXACT_NAMES : List String :=
  ["lo", "lo0", "kube-ipvs0", "cilium_host", "cilium_net", "cilium_vxlan"]

def LOCAL_ONLY_INTERFACE_PREFIXES : List String :=
  ["docker", "br-", "veth", "cni", "flannel", "virbr", "podman", "lxcbr", "vboxnet", "vmnet"]

def isLocalOnlyInterfaceName (name : String) : Bool :=
  let lower := toAsciiLowercase name
  LOCAL_ONLY_INTERFACE_EXACT_NAMES.contains lower ||
    LOCAL_ONLY_INTERFACE_PREFIXES.any fun pre => pre.toList.isPrefixOf lower.toList

namespace Interface

def localOnly (iface : Interface) : Bool :=
  iface.loopback || !iface.up || isLocalOnlyInterfaceName iface.name ||
    iface.friendlyName.any isLocalOnlyInterfaceName

def ips (iface : Interface) : List IpAddr := iface.ipv4.map .v4 ++ iface.ipv6.map .v6

end Interface

/-- An address that was found before is local only if it was so everywhere. -/
def noteIp (localOnly : Bool) (out : ExtTreeMap IpAddr Bool) (ip : IpAddr) : ExtTreeMap IpAddr Bool :=
  out.alter ip fun current => some ((current.getD true) && localOnly)

def localOnlyInterfaceIpMap (interfaces : List Interface) : ExtTreeMap IpAddr Bool :=
  interfaces.foldl (fun out iface => iface.ips.foldl (noteIp iface.localOnly) out) ∅

def skipped (localOnlyIpMap : ExtTreeMap IpAddr Bool) (ip : IpAddr) : Bool :=
  isLocalOnlyIp ip || localOnlyIpMap[ip]?.getD false

def filterAdvertisableEndpointAddrWithMap (addr : EndpointAddr)
    (localOnlyIpMap : ExtTreeMap IpAddr Bool) : EndpointAddr :=
  .fromParts addr.id (addr.relayUrls.map .relay ++ addr.ipAddrs.filterMap fun sock =>
    if !isLocalOnlyIp sock.ip && !(localOnlyIpMap[sock.ip]?.getD false) then some (.ip sock) else none)

def shouldFilterAdvertisedAddrs (args : BindArgs) : Bool :=
  args.bind.isNone && args.bindInterface.isNone

def advertisedEndpointAddr (addr : EndpointAddr) (args : BindArgs) (interfaces : List Interface) :
    EndpointAddr :=
  if !shouldFilterAdvertisedAddrs args then addr
  else
    let filtered := filterAdvertisableEndpointAddrWithMap addr (localOnlyInterfaceIpMap interfaces)
    if filtered.ipAddrs.head?.isSome || filtered.relayUrls.head?.isSome then filtered else addr

/-- The first IPv4 address that is not skipped, or else the first other one. -/
def bestIp (skip : IpAddr → Bool) : Option IpAddr → List SocketAddr → Option IpAddr
  | bestV6, [] => bestV6
  | bestV6, sock :: socks =>
    if skip sock.ip then bestIp skip bestV6 socks
    else if isIpv4 sock.ip then some sock.ip
    else bestIp skip (if bestV6.isNone then some sock.ip else bestV6) socks

def bestLocalIpForDisplayWithMap (addr : EndpointAddr) (localOnlyIpMap : ExtTreeMap IpAddr Bool) :
    Option IpAddr := bestIp (skipped localOnlyIpMap) none addr.ipAddrs

def bestIpForDisplay (addr : EndpointAddr) : Option IpAddr := bestIp isLocalOnlyIp none addr.ipAddrs

def bestLocalIpForDisplay (addr : EndpointAddr) (interfaces : List Interface) : Option IpAddr :=
  (bestLocalIpForDisplayWithMap addr (localOnlyInterfaceIpMap interfaces)).or (bestIpForDisplay addr)

/-! What is advertised. -/

/-- On an interface of the machine, and on none that others reach. -/
def OnlyLocal (interfaces : List Interface) (ip : IpAddr) : Prop :=
  (∃ iface ∈ interfaces, ip ∈ iface.ips) ∧
    ∀ iface ∈ interfaces, ip ∈ iface.ips → iface.localOnly = true

def Advertisable (interfaces : List Interface) : TransportAddr → Prop
  | .relay _ => True
  | .ip sock => isLocalOnlyIp sock.ip = false ∧ ¬ OnlyLocal interfaces sock.ip

theorem getElem?_noteIp (localOnly : Bool) (out : ExtTreeMap IpAddr Bool) (a ip : IpAddr) :
    (noteIp localOnly out a)[ip]? =
      if a = ip then some ((out[ip]?.getD true) && localOnly) else out[ip]? := by
  rw [noteIp, ExtTreeMap.getElem?_alter]
  by_cases ha : a = ip
  · subst ha
    simp
  · simp [ha]

theorem getElem?_foldl_noteIp (localOnly : Bool) (ips : List IpAddr) (out : ExtTreeMap IpAddr Bool)
    (ip : IpAddr) :
    (ips.foldl (noteIp localOnly) out)[ip]? =
      if ip ∈ ips then some ((out[ip]?.getD true) && localOnly) else out[ip]? := by
  induction ips generalizing out with
  | nil => simp
  | cons a ips ih =>
    rw [List.foldl_cons, ih, getElem?_noteIp]
    by_cases ha : a = ip
    · subst ha
      simp
    · simp [ha, Ne.symm ha]

theorem getElem?_foldl_interfaces (interfaces : List Interface) (out : ExtTreeMap IpAddr Bool)
    (ip : IpAddr) :
    (interfaces.foldl (fun out iface => iface.ips.foldl (noteIp iface.localOnly) out) out)[ip]? =
      if ∃ iface ∈ interfaces, ip ∈ iface.ips then
        some ((out[ip]?.getD true) &&
          (interfaces.filter fun iface => ip ∈ iface.ips).all Interface.localOnly)
      else out[ip]? := by
  induction interfaces generalizing out with
  | nil => simp
  | cons iface interfaces ih =>
    rw [List.foldl_cons, ih, getElem?_foldl_noteIp]
    by_cases hip : ip ∈ iface.ips
    · by_cases hrest : ∃ other ∈ interfaces, ip ∈ other.ips
      · simp [hip, hrest, Bool.and_assoc]
      · have hnone : (interfaces.filter fun iface => ip ∈ iface.ips) = [] := by
          rw [List.filter_eq_nil_iff]
          intro other hother hmem
          exact hrest ⟨other, hother, of_decide_eq_true hmem⟩
        simp [hip, hrest, hnone]
    · simp [hip]

theorem localOnlyInterfaceIpMap_iff (interfaces : List Interface) (ip : IpAddr) :
    (localOnlyInterfaceIpMap interfaces)[ip]?.getD false = true ↔ OnlyLocal interfaces ip := by
  rw [localOnlyInterfaceIpMap, getElem?_foldl_interfaces]
  by_cases hsome : ∃ iface ∈ interfaces, ip ∈ iface.ips
  · simp [OnlyLocal, hsome, imp_iff_not_or]
  · simp [OnlyLocal, hsome]

theorem mem_filterAdvertisable {addr : EndpointAddr} {interfaces : List Interface}
    {t : TransportAddr} :
    t ∈ (filterAdvertisableEndpointAddrWithMap addr (localOnlyInterfaceIpMap interfaces)).addrs ↔
      t ∈ addr.addrs ∧ Advertisable interfaces t := by
  have hmap := localOnlyInterfaceIpMap_iff interfaces
  simp only [filterAdvertisableEndpointAddrWithMap, EndpointAddr.mem_fromParts, List.mem_append,
    List.mem_map, List.mem_filterMap, EndpointAddr.mem_relayUrls, EndpointAddr.mem_ipAddrs]
  cases t with
  | relay url => simp [Advertisable]
  | ip sock =>
    simp only [Advertisable, ← hmap]
    simp

theorem onlyLocal_perm {interfaces interfaces' : List Interface} (h : interfaces.Perm interfaces')
    (ip : IpAddr) : OnlyLocal interfaces ip ↔ OnlyLocal interfaces' ip := by
  simp only [OnlyLocal, h.mem_iff]

theorem advertisable_perm {interfaces interfaces' : List Interface}
    (h : interfaces.Perm interfaces') (t : TransportAddr) :
    Advertisable interfaces t ↔ Advertisable interfaces' t := by
  cases t with
  | relay url => rfl
  | ip sock => simp only [Advertisable, onlyLocal_perm h]

theorem filtered_isSome_iff {addr : EndpointAddr} {interfaces : List Interface} :
    ((filterAdvertisableEndpointAddrWithMap addr
          (localOnlyInterfaceIpMap interfaces)).ipAddrs.head?.isSome ||
        (filterAdvertisableEndpointAddrWithMap addr
          (localOnlyInterfaceIpMap interfaces)).relayUrls.head?.isSome) = true ↔
      ∃ t ∈ addr.addrs, Advertisable interfaces t := by
  have hsome {α : Type} (l : List α) : l.head?.isSome = true ↔ ∃ a, a ∈ l := by
    cases l <;> simp
  rw [Bool.or_eq_true, hsome, hsome]
  constructor
  · rintro (⟨sock, hsock⟩ | ⟨url, hurl⟩)
    · exact ⟨_, mem_filterAdvertisable.mp (EndpointAddr.mem_ipAddrs.mp hsock)⟩
    · exact ⟨_, mem_filterAdvertisable.mp (EndpointAddr.mem_relayUrls.mp hurl)⟩
  · rintro ⟨t, ht⟩
    have hmem := mem_filterAdvertisable.mpr ht
    cases t with
    | relay url => exact .inr ⟨url, EndpointAddr.mem_relayUrls.mpr hmem⟩
    | ip sock => exact .inl ⟨sock, EndpointAddr.mem_ipAddrs.mpr hmem⟩

theorem mem_advertised {addr : EndpointAddr} {args : BindArgs} {interfaces : List Interface}
    (hbind : args.bind = none) (hinterface : args.bindInterface = none)
    (hsome : ∃ t ∈ addr.addrs, Advertisable interfaces t) {t : TransportAddr} :
    t ∈ (advertisedEndpointAddr addr args interfaces).addrs ↔
      t ∈ addr.addrs ∧ Advertisable interfaces t := by
  have hfilter : shouldFilterAdvertisedAddrs args = true := by
    simp [shouldFilterAdvertisedAddrs, hbind, hinterface]
  simp only [advertisedEndpointAddr, hfilter, Bool.not_true, Bool.false_eq_true, if_false]
  rw [if_pos (filtered_isSome_iff.mpr hsome), mem_filterAdvertisable]

theorem advertised_unchanged {addr : EndpointAddr} {args : BindArgs} {interfaces : List Interface}
    (h : args.bind.isSome ∨ args.bindInterface.isSome ∨ ¬ ∃ t ∈ addr.addrs, Advertisable interfaces t) :
    advertisedEndpointAddr addr args interfaces = addr := by
  unfold advertisedEndpointAddr
  split
  · rfl
  · rename_i hfilter
    rw [Bool.not_eq_true, Bool.not_eq_false'] at hfilter
    simp only [shouldFilterAdvertisedAddrs, Bool.and_eq_true, Option.isNone_iff_eq_none] at hfilter
    simp only [hfilter, Option.isSome_none, Bool.false_eq_true, false_or] at h
    exact if_neg fun hsome => h (filtered_isSome_iff.mp hsome)

theorem mem_advertised_iff {addr : EndpointAddr} {args : BindArgs} {interfaces : List Interface}
    {t : TransportAddr} :
    t ∈ (advertisedEndpointAddr addr args interfaces).addrs ↔
      t ∈ addr.addrs ∧ (args.bind = none → args.bindInterface = none →
        (∃ u ∈ addr.addrs, Advertisable interfaces u) → Advertisable interfaces t) := by
  by_cases h : args.bind.isSome ∨ args.bindInterface.isSome ∨
      ¬ ∃ u ∈ addr.addrs, Advertisable interfaces u
  · rw [advertised_unchanged h]
    refine ⟨fun ht => ⟨ht, fun hbind hinterface hsome => ?_⟩, And.left⟩
    simp [hbind, hinterface, hsome] at h
  · simp only [not_or, Bool.not_eq_true, Option.isSome_eq_false_iff, Option.isNone_iff_eq_none,
      not_not] at h
    obtain ⟨hbind, hinterface, hsome⟩ := h
    rw [mem_advertised hbind hinterface hsome]
    simp [hbind, hinterface, hsome]

theorem advertised_id (addr : EndpointAddr) (args : BindArgs) (interfaces : List Interface) :
    (advertisedEndpointAddr addr args interfaces).id = addr.id := by
  unfold advertisedEndpointAddr
  split
  · rfl
  · dsimp only
    split <;> rfl

theorem bestIp_eq (skip : IpAddr → Bool) (bestV6 : Option IpAddr) (socks : List SocketAddr) :
    bestIp skip bestV6 socks =
      let ips := (socks.map SocketAddr.ip).filter fun ip => !skip ip
      (ips.find? isIpv4).or (bestV6.or ips.head?) := by
  induction socks generalizing bestV6 with
  | nil => simp [bestIp]
  | cons sock socks ih =>
    rw [bestIp]
    by_cases hskip : skip sock.ip
    · simp [hskip, ih]
    · by_cases h4 : isIpv4 sock.ip
      · simp [hskip, h4]
      · cases bestV6 <;> simp [hskip, h4, ih]

theorem displayed_advertised {addr : EndpointAddr} {args : BindArgs} {interfaces : List Interface}
    (hbind : args.bind = none) (hinterface : args.bindInterface = none) {sock : SocketAddr}
    (hsock : TransportAddr.ip sock ∈ addr.addrs) (hreachable : Advertisable interfaces (.ip sock)) :
    ∃ found, bestLocalIpForDisplay addr interfaces = some found.ip ∧
      TransportAddr.ip found ∈ (advertisedEndpointAddr addr args interfaces).addrs := by
  have hskip : ∀ ip, skipped (localOnlyInterfaceIpMap interfaces) ip = false ↔
      isLocalOnlyIp ip = false ∧ ¬ OnlyLocal interfaces ip := by
    intro ip
    rw [skipped, Bool.or_eq_false_iff, ← localOnlyInterfaceIpMap_iff, Bool.not_eq_true]
  have hips : sock.ip ∈ (addr.ipAddrs.map SocketAddr.ip).filter
      fun ip => !skipped (localOnlyInterfaceIpMap interfaces) ip := by
    rw [List.mem_filter, Bool.not_eq_true', hskip]
    exact ⟨List.mem_map_of_mem (EndpointAddr.mem_ipAddrs.mpr hsock), hreachable⟩
  have hbest : ∃ ip, bestLocalIpForDisplayWithMap addr (localOnlyInterfaceIpMap interfaces) = some ip ∧
      ip ∈ (addr.ipAddrs.map SocketAddr.ip).filter
        fun ip => !skipped (localOnlyInterfaceIpMap interfaces) ip := by
    rw [bestLocalIpForDisplayWithMap, bestIp_eq]
    dsimp only
    rw [Option.none_or]
    generalize (addr.ipAddrs.map SocketAddr.ip).filter _ = ips at hips ⊢
    cases hfind : ips.find? isIpv4 with
    | some ip => exact ⟨ip, rfl, List.mem_of_find?_eq_some hfind⟩
    | none =>
      cases ips with
      | nil => simp at hips
      | cons ip ips => exact ⟨ip, rfl, List.mem_cons_self⟩
  obtain ⟨ip, hip, hmem⟩ := hbest
  rw [List.mem_filter, Bool.not_eq_true', hskip, List.mem_map] at hmem
  obtain ⟨⟨found, hfound, rfl⟩, hreached⟩ := hmem
  refine ⟨found, by rw [bestLocalIpForDisplay, hip, Option.some_or], ?_⟩
  exact (mem_advertised hbind hinterface ⟨_, hsock, hreachable⟩).mpr
    ⟨EndpointAddr.mem_ipAddrs.mp hfound, hreached⟩

/-- A daemon that was not told where to bind advertises what others reach of its address, or all
of it if they reach none, whatever the order of the interfaces; the address it reports as its own
is one of these. Told where to bind, it advertises its address as it is. -/
theorem advertises_reachable (addr : EndpointAddr) (args : BindArgs) (interfaces : List Interface) :
    let advertised := advertisedEndpointAddr addr args interfaces
    advertised.id = addr.id ∧
    (∀ t, t ∈ advertised.addrs ↔ t ∈ addr.addrs ∧
      (args.bind = none → args.bindInterface = none →
        (∃ u ∈ addr.addrs, Advertisable interfaces u) → Advertisable interfaces t)) ∧
    (∀ interfaces', interfaces.Perm interfaces' →
      advertisedEndpointAddr addr args interfaces' = advertised) ∧
    (args.bind = none → args.bindInterface = none →
      ∀ sock, .ip sock ∈ addr.addrs → Advertisable interfaces (.ip sock) →
        ∃ found, bestLocalIpForDisplay addr interfaces = some found.ip ∧
          .ip found ∈ advertised.addrs) := by
  refine ⟨advertised_id addr args interfaces, fun t => mem_advertised_iff, ?_, ?_⟩
  · intro interfaces' hperm
    refine EndpointAddr.ext_mem ?_ fun t => ?_
    · rw [advertised_id, advertised_id]
    · simp only [mem_advertised_iff, advertisable_perm hperm]
  · intro hbind hinterface sock hsock hreachable
    exact displayed_advertised hbind hinterface hsock hreachable

end P2pDdns
