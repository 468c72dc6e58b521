import Minip2p.Quic.Transport

/-!
# The dual-stack transport

`DualQuicTransport` of `transports/quic/src/lib.rs`: one `QuicTransport` for IPv4 and one for IPv6,
each with a socket of its own, behind one set of connection ids. The ids of the IPv4 side are
handed out as odd numbers and those of the IPv6 side as even ones.
-/

namespace Minip2p.Quic

variable {W : Type}

/-- IPv4 or IPv6. -/
inductive AddressFamily
  | ipv4
  | ipv6
deriving DecidableEq, Repr

/-- The name of a family in an error. -/
def AddressFamily.name : AddressFamily → String
  | ipv4 => "ipv4"
  | ipv6 => "ipv6"

/-- The family of an address. -/
def familyForSocketAddr (addr : SocketAddr) : AddressFamily :=
  if addr.isIpv6 then .ipv6 else .ipv4

/-- The family an address is listened on with; names count as IPv4 unless they are `dns6`. -/
def familyForAddr (addr : Multiaddr) : AddressFamily :=
  match addr.protocols.head? with
  | some (.ip6 _) | some (.dns6 _) => .ipv6
  | _ => .ipv4

/-! ## Connection ids -/

/-- The id under which a side's connection is handed out. -/
def externalId (family : AddressFamily) (id : ConnectionId) : ConnectionId :=
  -- `saturating_mul` and `saturating_sub` of a `u64`
  let doubled := min (id.asU64.toNat * 2) (2 ^ 64 - 1)
  match family with
  | .ipv4 => ⟨.ofNat (doubled - 1)⟩
  | .ipv6 => ⟨.ofNat doubled⟩

/-- The side and the connection that an id handed out stands for. -/
def internalId (id : ConnectionId) : AddressFamily × ConnectionId :=
  if id.asU64 % 2 = 0 then (.ipv6, ⟨id.asU64 / 2⟩) else (.ipv4, ⟨id.asU64 / 2 + 1⟩)

/-- An event of one side, under the id that is handed out. -/
def mapEvent (family : AddressFamily) : TransportEvent → TransportEvent
  | .connected id endpoint => .connected (externalId family id) endpoint
  | .streamOpened id streamId => .streamOpened (externalId family id) streamId
  | .incomingStream id streamId => .incomingStream (externalId family id) streamId
  | .streamData id streamId data => .streamData (externalId family id) streamId data
  | .streamRemoteWriteClosed id streamId =>
    .streamRemoteWriteClosed (externalId family id) streamId
  | .streamClosed id streamId => .streamClosed (externalId family id) streamId
  | .closed id => .closed (externalId family id)
  | .error id message => .error (externalId family id) message
  | .incomingConnection id endpoint => .incomingConnection (externalId family id) endpoint
  | .peerIdentityVerified id endpoint previousPeerId =>
    .peerIdentityVerified (externalId family id) endpoint previousPeerId
  | .listening addr => .listening addr

/-! ## Methods -/

/-- One of the two transports, with the vector of its `poll`. -/
structure Side where
  transport : QuicTransport
  events : List TransportEvent

/-- What a method of the dual-stack transport works on. -/
structure DualHost (W : Type) where
  world : W
  ipv4 : Side
  ipv6 : Side

namespace DualHost

/-- The side of a family. -/
def side (d : DualHost W) : AddressFamily → Side
  | .ipv4 => d.ipv4
  | .ipv6 => d.ipv6

/-- Another side for a family. -/
def setSide (d : DualHost W) (family : AddressFamily) (side : Side) : DualHost W :=
  match family with
  | .ipv4 => { d with ipv4 := side }
  | .ipv6 => { d with ipv6 := side }

/-- What a method of one side works on. -/
def host (d : DualHost W) (family : AddressFamily) : Host W :=
  ⟨d.world, (d.side family).transport, (d.side family).events⟩

/-- Another host for a family. -/
def setHost (d : DualHost W) (family : AddressFamily) (h : Host W) : DualHost W :=
  { d with world := h.world }.setSide family ⟨h.transport, h.events⟩

/-- Neither side has polled yet in the call that begins. -/
def forgetVectors (d : DualHost W) : DualHost W :=
  { d with ipv4 := { d.ipv4 with events := [] }, ipv6 := { d.ipv6 with events := [] } }

end DualHost

/-- A method of the dual-stack transport. -/
abbrev DualMethod (W α : Type) := Prog (DualHost W) TransportError α

/-- Runs a method of one side. -/
def onSide {α : Type} (family : AddressFamily) (method : HostMethod W α) : DualMethod W α :=
  Prog.zoom (fun d => d.host family) (fun h d => d.setHost family h) method

section Methods

variable (net : AddressFamily → Net W) (fuel : Nat)

/-- `PeerAddr::new` on a resolved address. -/
def resolvedPeerAddr (addr : SocketAddr) (peerId : PeerId) : Except TransportError PeerAddr :=
  match PeerAddr.new (socketAddrToMultiaddr addr) peerId with
  | .ok addr => .ok addr
  | .error e =>
    .error (.invalidAddress "dial target" s!"resolved address was not a peer addr: {e.display}")

/-- The first address of each family, in the order of the list. -/
def firstOfEachFamily (peerId : PeerId) :
    List AddressFamily → List SocketAddr → Except TransportError (List (AddressFamily × PeerAddr))
  | _, [] => .ok []
  | seen, addr :: addrs =>
    let family := familyForSocketAddr addr
    if family ∈ seen then firstOfEachFamily peerId seen addrs
    else do
      let target ← resolvedPeerAddr addr peerId
      let targets ← firstOfEachFamily peerId (family :: seen) addrs
      return (family, target) :: targets

/-- One dial target for each family the address resolves to. The resolver belongs to the system,
not to a socket. -/
def dialTargets (addr : PeerAddr) : DualMethod W (List (AddressFamily × PeerAddr)) := do
  let addrs ← onSide .ipv4 (resolveDialSocketAddrs (net .ipv4) addr.transport "dial target")
  Prog.ofResult (firstOfEachFamily addr.peerId [] addrs)

/-- Dials one target. -/
def dialTarget (target : AddressFamily × PeerAddr) : DualMethod W ConnectionId := do
  let id ← onSide target.1 (dial (net target.1) fuel target.2)
  return externalId target.1 id

/-- Dials the first target, on the side of its family. -/
def dialDual (addr : PeerAddr) : DualMethod W ConnectionId := do
  match ← dialTargets net addr with
  | [] => throw (.invalidAddress "dial target" "no usable ipv4 or ipv6 dial target")
  | target :: _ => dialTarget net fuel target

/-- The loop of `dial_all`, with the last failure. -/
def dialEach : List (AddressFamily × PeerAddr) → Option TransportError →
    DualMethod W (List ConnectionId × Option TransportError)
  | [], lastError => return ([], lastError)
  | target :: targets, lastError => do
    match ← Prog.attempt (dialTarget net fuel target) with
    | .ok id =>
      let (ids, lastError) ← dialEach targets lastError
      return (id :: ids, lastError)
    | .error e => dialEach targets (some e)

/-- Dials every family the address resolves to; one that works is enough. -/
def dialAll (addr : PeerAddr) : DualMethod W (List ConnectionId) := do
  let targets ← dialTargets net addr
  let (ids, lastError) ← dialEach net fuel targets none
  if ids.isEmpty then
    throw (lastError.getD
      (.invalidAddress "dial target" "no usable ipv4 or ipv6 dial target"))
  else return ids

/-- Dials the first target of a family. -/
def dialFamily (addr : PeerAddr) (family : AddressFamily) : DualMethod W ConnectionId := do
  let targets ← dialTargets net addr
  match targets.find? (·.1 = family) with
  | none => throw (.invalidAddress "dial target" s!"no {family.name} target resolved")
  | some target => dialTarget net fuel (family, target.2)

/-- Listens on the side of the address. -/
def listenDual (addr : Multiaddr) : DualMethod W Multiaddr :=
  onSide (familyForAddr addr) (listen (net (familyForAddr addr)) addr)

/-- Sends a raw UDP packet on the side its target resolves to. -/
def sendRawUdpDual (target : Multiaddr) (payload : Bytes) : DualMethod W Unit := do
  let addr ← onSide .ipv4 (resolveDialSocketAddr (net .ipv4) target "raw udp target")
  let family := familyForSocketAddr addr
  onSide family (sendRawUdp (net family) (socketAddrToMultiaddr addr) payload)

/-- Runs a method of the side that an id belongs to. -/
def onInternal {α : Type} (id : ConnectionId)
    (method : AddressFamily → ConnectionId → HostMethod W α) : DualMethod W α :=
  onSide (internalId id).1 (method (internalId id).1 (internalId id).2)

/-- Opens a stream on the side of the connection. -/
def openStreamDual (id : ConnectionId) : DualMethod W StreamId :=
  onInternal id fun family id => openStreamOn (net family) id

/-- Sends on the side of the connection. -/
def sendStreamDual (id : ConnectionId) (streamId : StreamId) (data : Bytes) : DualMethod W Unit :=
  onInternal id fun family id => sendStreamOn (net family) fuel id streamId data

/-- Closes a stream on the side of the connection. -/
def closeStreamWriteDual (id : ConnectionId) (streamId : StreamId) : DualMethod W Unit :=
  onInternal id fun family id => closeStreamWriteOn (net family) fuel id streamId

/-- Resets a stream on the side of the connection. -/
def resetStreamDual (id : ConnectionId) (streamId : StreamId) : DualMethod W Unit :=
  onInternal id fun family id => resetStreamOn (net family) id streamId

/-- Closes a connection on its side. -/
def closeDual (id : ConnectionId) : DualMethod W Unit :=
  onInternal id fun family id => closeOn (net family) fuel id

variable [MultihashCodec] (verifyLibp2pCertificate : Bytes → Except String PeerId)

/-- Polls IPv4, then IPv6. -/
def pollDual : DualMethod W (List TransportEvent) := do
  modify (·.forgetVectors)
  let ipv4 ← onSide .ipv4 (poll (net .ipv4) fuel verifyLibp2pCertificate)
  let ipv6 ← onSide .ipv6 (poll (net .ipv6) fuel verifyLibp2pCertificate)
  return ipv4.map (mapEvent .ipv4) ++ ipv6.map (mapEvent .ipv6)

end Methods

end Minip2p.Quic
