import Minip2p.Core.Multiaddr

/-!
# Peer addresses

`PeerAddr` of `crates/core/src/peer_addr.rs`: a transport address without a `/p2p` component,
paired with the peer id that a dialer expects there. What `PeerAddr::new` checks is a field of the
structure.
-/

namespace Minip2p

namespace Protocol

/-- A component that names a host. -/
def isHost : Protocol → Bool
  | ip4 _ | ip6 _ | dns _ | dns4 _ | dns6 _ => true
  | _ => false

/-- `matches!(protocol, Protocol::P2p(_))`. -/
def isP2p : Protocol → Bool
  | p2p _ => true
  | _ => false

end Protocol

/-- A host, a UDP port and `quic-v1`, with nothing before or after. -/
def isQuicTransportSlice : List Protocol → Bool
  | [host, .udp _, .quicV1] => host.isHost
  | _ => false

/-- A valid QUIC transport address. -/
def Multiaddr.isQuicTransport (addr : Multiaddr) : Bool := isQuicTransportSlice addr.protocols

/-- Errors of `PeerAddr::new`. -/
inductive PeerAddrError
  | transportContainsPeerId
  | emptyTransport
deriving DecidableEq, Repr

/-- The `Display` text. -/
def PeerAddrError.display : PeerAddrError → String
  | transportContainsPeerId => "transport address must not already contain /p2p"
  | emptyTransport =>
    "transport address must contain at least one protocol before /p2p/<peer-id>"

/-- A transport address paired with a peer id. -/
structure PeerAddr where
  transport : Multiaddr
  peerId : PeerId
  noPeerId : transport.protocols.any Protocol.isP2p = false
  nonempty : transport.protocols.isEmpty = false
deriving DecidableEq, Repr

/-- Pairs a transport address with a peer id. -/
def PeerAddr.new (transport : Multiaddr) (peerId : PeerId) : Except PeerAddrError PeerAddr :=
  match hp2p : transport.protocols.any Protocol.isP2p with
  | true => .error .transportContainsPeerId
  | false =>
    match hempty : transport.protocols.isEmpty with
    | true => .error .emptyTransport
    | false => .ok ⟨transport, peerId, hp2p, hempty⟩

end Minip2p
