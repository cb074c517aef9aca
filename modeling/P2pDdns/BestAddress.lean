import P2pDdns.Addresses

/-!
The single address a daemon dials a peer at: the one sharing the longest prefix
with a local address.
-/

set_option autoImplicit false

namespace P2pDdns

def isLoopback : IpAddr → Bool
  | .v4 a => a >>> 24 = 127
  | .v6 a => a = 1

def isMulticast : IpAddr → Bool
  | .v4 a => a >>> 28 = 0xe
  | .v6 a => a >>> 120 = 0xff

def isUnspecified : IpAddr → Bool
  | .v4 a => a = 0
  | .v6 a => a = 0

def isLinkLocal : IpAddr → Bool
  | .v4 a => a >>> 16 = 0xa9fe
  | .v6 a => a >>> 118 = 0x3fa

def isLocalOnlyIp (ip : IpAddr) : Bool :=
  isLoopback ip || isMulticast ip || isUnspecified ip || isLinkLocal ip

def isIpv4 : IpAddr → Bool
  | .v4 _ => true
  | .v6 _ => false

def isIpv6 : IpAddr → Bool
  | .v4 _ => false
  | .v6 _ => true

def commonPrefixBits : IpAddr → IpAddr → Nat
  | .v4 a, .v4 b => (a ^^^ b).clz.toNat
  | .v6 a, .v6 b => (a ^^^ b).clz.toNat
  | _, _ => 0

def bestPrefixScore (ip : IpAddr) (locals : List IpAddr) : Nat :=
  ((locals.map (commonPrefixBits ip)).max?).getD 0

/-- One turn of the scan over the remote's addresses. -/
def considerSock (localIps : List IpAddr) (localOnlyMode preferV4 : Bool)
    (best : Option (Nat × Bool × SocketAddr)) (sock : SocketAddr) :
    Option (Nat × Bool × SocketAddr) :=
  if !localOnlyMode && isLocalOnlyIp sock.ip then best
  else
    let score := bestPrefixScore sock.ip localIps
    let isV4 := isIpv4 sock.ip
    let candidate := (score, isV4, sock)
    match best with
    | some current =>
      let betterFamily :=
        if preferV4 then candidate.2.1 && !current.2.1 else !candidate.2.1 && current.2.1
      if candidate.1 > current.1 || (candidate.1 == current.1 && betterFamily) then some candidate
      else best
    | none => some candidate

def bestEndpointAddrForLocal (remote here : EndpointAddr) : EndpointAddr :=
  let allLocalIps := here.ipAddrs.map SocketAddr.ip
  if allLocalIps.isEmpty then remote
  else
    let localIps := allLocalIps.filter fun ip => !isLocalOnlyIp ip
    let localOnlyMode := localIps.isEmpty
    let localIps := if localOnlyMode then allLocalIps else localIps
    let localHasV4 := localIps.any isIpv4
    let localHasV6 := localIps.any isIpv6
    let preferV4 := localHasV4 || !localHasV6
    match remote.ipAddrs.foldl (considerSock localIps localOnlyMode preferV4) none with
    | none => remote
    | some (_, _, bestSock) => .fromParts remote.id [.ip bestSock]

@[simp] theorem bestEndpointAddrForLocal_id (remote here : EndpointAddr) :
    (bestEndpointAddrForLocal remote here).id = remote.id := by
  unfold bestEndpointAddrForLocal
  dsimp only
  split
  · rfl
  · split <;> rfl

end P2pDdns
