import Minip2p.Core.PeerAddr
import Minip2p.Transport.Types

/-!
# Socket addresses of the QUIC transport

The address helpers of `transports/quic/src/lib.rs`: socket addresses with their `Display` texts,
their multiaddrs, and the checks of a listen address. Name resolution needs the network and is
in `Quic.Transport`.
-/

namespace Minip2p.Quic

/-- `std::net::SocketAddr`. -/
inductive SocketAddr
  | v4 (octets : Vector UInt8 4) (port : UInt16)
  | v6 (octets : Vector UInt8 16) (port : UInt16) (flowinfo scopeId : UInt32)
deriving DecidableEq, Repr

/-! ## Texts -/

/-- The `Display` text of an `Ipv4Addr`. -/
def displayIp4 (octets : List UInt8) : String :=
  String.intercalate "." (octets.map fun octet => toString octet.toNat)

/-- The eight 16-bit groups of an IPv6 address. -/
def segments : List UInt8 → List Nat
  | hi :: lo :: rest => (hi.toNat * 256 + lo.toNat) :: segments rest
  | _ => []

/-- A run of zero groups: where it starts and how long it is. -/
structure Span where
  start : Nat
  len : Nat

/-- The first of the longest runs of zero groups; `index` is the place of the next group. -/
def longestZeros (longest current : Span) (index : Nat) : List Nat → Span
  | [] => longest
  | 0 :: rest =>
    let current := if current.len = 0 then ⟨index, 1⟩ else ⟨current.start, current.len + 1⟩
    longestZeros (if current.len > longest.len then current else longest) current (index + 1) rest
  | _ :: rest => longestZeros longest ⟨0, 0⟩ (index + 1) rest

/-- Groups in hexadecimal, with colons between them. -/
def displayGroups (groups : List Nat) : String :=
  String.intercalate ":" (groups.map fun group => String.ofList (Nat.toDigits 16 group))

/-- The `Display` text of an `Ipv6Addr`. -/
def displayIp6 (octets : List UInt8) : String :=
  if octets.take 12 = List.replicate 10 0 ++ [0xff, 0xff] then
    "::ffff:" ++ displayIp4 (octets.drop 12)
  else
    let groups := segments octets
    let zeros := longestZeros ⟨0, 0⟩ ⟨0, 0⟩ 0 groups
    if zeros.len > 1 then
      displayGroups (groups.take zeros.start) ++ "::" ++
        displayGroups (groups.drop (zeros.start + zeros.len))
    else displayGroups groups

namespace SocketAddr

/-- The `Display` text. -/
def display : SocketAddr → String
  | v4 octets port => s!"{displayIp4 octets.toList}:{port}"
  | v6 octets port _ scopeId =>
    if scopeId = 0 then s!"[{displayIp6 octets.toList}]:{port}"
    else s!"[{displayIp6 octets.toList}%{scopeId}]:{port}"

/-- An IPv4 address. -/
def isIpv4 : SocketAddr → Bool
  | v4 .. => true
  | v6 .. => false

/-- An IPv6 address. -/
def isIpv6 (addr : SocketAddr) : Bool := !addr.isIpv4

end SocketAddr

/-! ## Multiaddrs -/

/-- The `/ipX/udp/port/quic-v1` multiaddr of a socket address. -/
def socketAddrToMultiaddr : SocketAddr → Multiaddr
  | .v4 octets port => ⟨[.ip4 octets, .udp port, .quicV1]⟩
  | .v6 octets port _ _ => ⟨[.ip6 octets, .udp port, .quicV1]⟩

/-- The host component and the port of a QUIC multiaddr. -/
def extractQuicHostAndPort (multiaddr : Multiaddr) (context : String) :
    Except TransportError (Protocol × UInt16) :=
  if !multiaddr.isQuicTransport then
    .error (.invalidAddress context "expected /<host>/udp/<port>/quic-v1")
  else
    match multiaddr.protocols with
    | [] => .error (.invalidAddress context "missing host component")
    | host :: .udp port :: _ => .ok (host, port)
    | _ => .error (.invalidAddress context "missing udp port")

/-- The socket address of a listen multiaddr, whose host must be an IP address. -/
def extractListenSocketAddr (multiaddr : Multiaddr) (context : String) :
    Except TransportError SocketAddr := do
  let (host, port) ← extractQuicHostAndPort multiaddr context
  match host with
  | .ip4 octets => return .v4 octets port
  | .ip6 octets => return .v6 octets port 0 0
  | .dns _ | .dns4 _ | .dns6 _ =>
    throw (.invalidAddress context "listen requires /ip4 or /ip6 host (dns names are dial-only)")
  | _ => throw (.invalidAddress context "missing host component")

/-- The requested listen address must be the one the socket is bound to. -/
def ensureListenMatchesBoundSocket (requested bound : SocketAddr) : Except TransportError Unit :=
  if requested = bound then .ok ()
  else
    .error (.invalidAddress "listen address"
      (s!"listen address {requested.display} does not match bound socket {bound.display}; " ++
        "use the bound local_addr()"))

end Minip2p.Quic
