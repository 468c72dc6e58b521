import Minip2p.Lib.MultiMap
import Minip2p.Quic.Address
import Minip2p.Quic.Connection

/-!
# The QUIC transport

`QuicTransport` of `transports/quic/src/lib.rs`: the table of connections with its two indexes, by
QUIC connection id and by peer. What is outside the repository (quiche, the UDP socket, the source
of random ids, name resolution, the iteration order of a `HashMap`) is `Net W`, oracles over a
world `W` as in `Quic.Connection`. A quiche connection lives in the world under a number, which the
table keeps in the place of the value itself.

A method is a program over a `Host`. `poll` collects events in a vector of its own, which is the
field `events`; after a `poll` that failed it holds what that call had collected and dropped.
-/

namespace Minip2p.Quic

/-- An answer of `recv_from` on a non-blocking socket. -/
inductive Received
  | packet (bytes : Bytes) (source : SocketAddr)
  | wouldBlock
  | error (text : String)
deriving DecidableEq, Repr

/-- What a packet's header says, as far as the transport looks at it. -/
structure Header where
  isInitial : Bool
  dcid : Bytes
deriving DecidableEq, Repr

/-- quiche, the socket, randomness, name resolution and iteration order, as oracles over a
world. -/
structure Net (W : Type) where
  /-- The quiche connection with a number. -/
  quiche : Nat → Quiche W
  sourceId : Nat → W → Bytes × W
  isClosed : Nat → W → Bool × W
  /-- `quiche::Header::from_slice`. -/
  header : Bytes → Option Header
  connect : Bytes → SocketAddr → SocketAddr → W → Except QuicheError Nat × W
  accept : Bytes → SocketAddr → SocketAddr → W → Except QuicheError Nat × W
  generateScid : W → Except String Bytes × W
  localAddr : W → Except String SocketAddr × W
  recvFrom : W → Received × W
  /-- A packet that is not quiche's. -/
  sendTo : Bytes → SocketAddr → W → Except String Unit × W
  toSocketAddrs : String → W → Except String (List SocketAddr) × W
  keyOrder : List ConnectionId → W → List ConnectionId × W
  keyOrder_perm : ∀ keys w, (keyOrder keys w).1.Perm keys

/-- A connection in the table: its number in the world, the remote's socket address and the
adapter's own state. -/
structure Entry where
  quiche : Nat
  peerAddr : SocketAddr
  conn : QuicConnection

namespace Entry

/-- The endpoint of an entry. -/
def endpoint (entry : Entry) : ConnectionEndpoint := entry.conn.endpoint

/-- The entry is for this remote address. -/
def matchesPeer (entry : Entry) (addr : SocketAddr) : Bool := entry.peerAddr = addr

/-- The entry with another peer id. -/
def setPeerId (entry : Entry) (peerId : PeerId) : Entry :=
  { entry with conn := { entry.conn with endpoint := { entry.conn.endpoint with
      peerId := some peerId } } }

end Entry

/-- The transport without its socket and its configuration. -/
structure QuicTransport where
  connections : BTreeMap ConnectionId Entry
  /-- QUIC connection-id bytes to logical connection ids, for packet routing. -/
  cidToConnection : BTreeMap Bytes ConnectionId
  peerConnections : MultiMap PeerId ConnectionId
  pendingEvents : List TransportEvent
  listenAddr : Option SocketAddr
  nextConnectionId : UInt64

namespace QuicTransport

/-- A transport on a socket that was just bound. -/
def new : QuicTransport where
  connections := ∅
  cidToConnection := ∅
  peerConnections := ∅
  pendingEvents := []
  listenAddr := none
  nextConnectionId := 1

/-- Files a connection. -/
def insertConnection (t : QuicTransport) (id : ConnectionId) (entry : Entry) : QuicTransport :=
  { t with connections := t.connections.insert id entry }

/-- Files a connection under an id of its packets. -/
def insertCid (t : QuicTransport) (cid : Bytes) (id : ConnectionId) : QuicTransport :=
  { t with cidToConnection := t.cidToConnection.insert cid id }

/-- Adds a connection to the peer-to-connections index. -/
def indexPeerConnection (t : QuicTransport) (peerId : PeerId) (id : ConnectionId) :
    QuicTransport :=
  { t with peerConnections := t.peerConnections.add peerId id }

/-- Removes a connection from the peer-to-connections index, cleaning up empty entries. -/
def removePeerConnection (t : QuicTransport) (peerId : PeerId) (id : ConnectionId) :
    QuicTransport :=
  { t with peerConnections := t.peerConnections.remove peerId id }

/-- `removePeerConnection` for a peer that may not be known. -/
def removePeerConnection? (t : QuicTransport) (peerId : Option PeerId) (id : ConnectionId) :
    QuicTransport :=
  match peerId with
  | none => t
  | some peerId => t.removePeerConnection peerId id

section

variable (t : QuicTransport) (peerId : Option PeerId) (id : ConnectionId)

-- only the index of peers is touched

theorem connections_removePeerConnection? :
    (t.removePeerConnection? peerId id).connections = t.connections := by
  cases peerId <;> rfl

theorem cidToConnection_removePeerConnection? :
    (t.removePeerConnection? peerId id).cidToConnection = t.cidToConnection := by
  cases peerId <;> rfl

theorem pendingEvents_removePeerConnection? :
    (t.removePeerConnection? peerId id).pendingEvents = t.pendingEvents := by
  cases peerId <;> rfl

end

/-- Removes all index entries for a connection. -/
def unindexConnection (t : QuicTransport) (id : ConnectionId) (peerId : Option PeerId) :
    QuicTransport :=
  { t with cidToConnection := t.cidToConnection.filter fun _ mapped => mapped != id
    }.removePeerConnection? peerId id

/-- All active connection ids for a peer. -/
def connectionIdsForPeer (t : QuicTransport) (peerId : PeerId) : List ConnectionId :=
  (t.peerConnections[peerId]?.getD ∅).toList

/-- The turns of `allocate_connection_id`; one more than `fuel` of them are left. -/
def allocateGo (t : QuicTransport) (start : UInt64) :
    Nat → UInt64 → Except TransportError ConnectionId × UInt64
  | fuel, raw =>
    -- the counter advances, wrapping, before the id is known to be free
    let next := raw + 1
    if raw ≠ 0 ∧ ¬ t.connections.contains ⟨raw⟩ then (.ok ⟨raw⟩, next)
    else if next = start then (.error (.resourceExhausted "connection ids"), next)
    else
      match fuel with
      | 0 => (.error (.resourceExhausted "connection ids"), next)
      | fuel + 1 => allocateGo t start fuel next

/-- Allocates the next unused connection id, skipping 0 and wrapping on overflow. The counter is
back at its start after `2 ^ 64` turns. -/
def allocateConnectionId (t : QuicTransport) :
    Except TransportError ConnectionId × QuicTransport :=
  let allocated := allocateGo t t.nextConnectionId (2 ^ 64 - 1) t.nextConnectionId
  (allocated.1, { t with nextConnectionId := allocated.2 })

end QuicTransport

/-- What a method of the transport works on. -/
structure Host (W : Type) where
  world : W
  transport : QuicTransport
  /-- The vector of the `poll` that is under way or came last. -/
  events : List TransportEvent

/-- A method of the transport. -/
abbrev HostMethod (W α : Type) := Prog (Host W) TransportError α

variable {W : Type}

/-- A vector that events are pushed to. -/
inductive Sink
  /-- `self.pending_events` -/
  | pending
  /-- the vector of `poll` -/
  | polled
deriving DecidableEq, Repr

namespace Host

/-- The events in a sink. -/
def vector (h : Host W) : Sink → List TransportEvent
  | .pending => h.transport.pendingEvents
  | .polled => h.events

/-- Other events in a sink. -/
def setVector (h : Host W) (events : List TransportEvent) : Sink → Host W
  | .pending => { h with transport := { h.transport with pendingEvents := events } }
  | .polled => { h with events }

/-- A change of the transport. -/
def modifyTransport (h : Host W) (f : QuicTransport → QuicTransport) : Host W :=
  { h with transport := f h.transport }

/-- One more event of the poll. -/
def push (h : Host W) (event : TransportEvent) : Host W :=
  { h with events := h.events ++ [event] }

/-- `self.pending_events.push(event)`. -/
def pushPending (h : Host W) (event : TransportEvent) : Host W :=
  h.modifyTransport fun t => { t with pendingEvents := t.pendingEvents ++ [event] }

/-- What a method of a connection is called with. -/
def session (h : Host W) (sink : Sink) (entry : Entry) : Session W :=
  ⟨h.world, entry.conn, h.vector sink, []⟩

/-- What is left when that method has returned or failed: it worked on the connection in the
table. -/
def restore (h : Host W) (sink : Sink) (id : ConnectionId) (entry : Entry) (s : Session W) :
    Host W :=
  { h with world := s.world }.modifyTransport
    (·.insertConnection id { entry with conn := s.conn }) |>.setVector s.events sink

/-- `std::mem::take` of the pending events. -/
def takePending (h : Host W) : Host W :=
  { h with
    events := h.transport.pendingEvents, transport := { h.transport with pendingEvents := [] } }

end Host

/-- One call into the world. -/
def ask {α : Type} (op : W → α × W) : HostMethod W α :=
  modifyGet fun h => ((op h.world).1, { h with world := (op h.world).2 })

/-- Changes the transport. -/
def modifyTransport (f : QuicTransport → QuicTransport) : HostMethod W Unit :=
  modify (·.modifyTransport f)

/-- `self.allocate_connection_id()?`. -/
def allocateConnectionId : HostMethod W ConnectionId := do
  let id ← modifyGet fun h => (h.transport.allocateConnectionId.1,
    { h with transport := h.transport.allocateConnectionId.2 })
  Prog.ofResult id

section Methods

variable (net : Net W) (fuel : Nat)

/-- Runs a method of the connection `entry`, which is in the table under `id`. -/
def onConnection {α : Type} (sink : Sink) (id : ConnectionId) (entry : Entry)
    (method : Quiche W → Method W α) : HostMethod W α :=
  Prog.zoom (fun h => h.session sink entry) (fun s h => h.restore sink id entry s)
    (method (net.quiche entry.quiche))

/-- Runs a method of the connection with an id, which has to be in the table. -/
def withConnection {α : Type} (id : ConnectionId) (method : Quiche W → Method W α) :
    HostMethod W α := do
  let h ← get
  match h.transport.connections[id]? with
  | none => throw (.connectionNotFound id)
  | some entry => onConnection net .pending id entry method

/-- The local socket address this transport is bound to. -/
def localAddr : HostMethod W SocketAddr := do
  match ← ask net.localAddr with
  | .ok addr => return addr
  | .error e => throw (.pollError s!"failed to get local addr: {e}")

/-- The address the socket is bound to. -/
def localMultiaddr : HostMethod W Multiaddr := do
  let addr ← localAddr net
  return socketAddrToMultiaddr addr

/-- The bound address, or none if the socket has none. -/
def localAddresses : HostMethod W (List Multiaddr) := do
  match ← Prog.attempt (localMultiaddr net) with
  | .ok addr => return [addr]
  | .error _ => return []

/-! ## Name resolution -/

/-- The addresses of `name` that pass `usable`; `kind` names them in the error. -/
def resolveName (name : String) (port : UInt16) (context kind : String)
    (usable : SocketAddr → Bool) : HostMethod W (List SocketAddr) := do
  let query := s!"{name}:{port}"
  match ← ask (net.toSocketAddrs query) with
  | .error e => throw (.invalidAddress context s!"dns resolution failed for {query}: {e}")
  | .ok addrs =>
    let resolved := addrs.filter usable
    if resolved.isEmpty then
      throw (.invalidAddress context s!"dns resolution returned no {kind} address for {query}")
    else return resolved

/-- Resolves a QUIC multiaddr to all usable socket addresses. -/
def resolveDialSocketAddrs (multiaddr : Multiaddr) (context : String) :
    HostMethod W (List SocketAddr) := do
  let (host, port) ← Prog.ofResult (extractQuicHostAndPort multiaddr context)
  match host with
  | .ip4 octets => return [.v4 octets port]
  | .ip6 octets => return [.v6 octets port 0 0]
  | .dns name => resolveName net name port context "usable" fun _ => true
  | .dns4 name => resolveName net name port context "ipv4" SocketAddr.isIpv4
  | .dns6 name => resolveName net name port context "ipv6" SocketAddr.isIpv6
  | _ => throw (.invalidAddress context "missing host component")

/-- Resolves a QUIC multiaddr to a socket address. -/
def resolveDialSocketAddr (multiaddr : Multiaddr) (context : String) :
    HostMethod W SocketAddr := do
  match ← resolveDialSocketAddrs net multiaddr context with
  | addr :: _ => return addr
  | [] => throw (.invalidAddress context "dial target resolved to no usable addresses")

/-! ## New connections -/

/-- Sends what a new quiche connection has to say; `label` names the send in the error. -/
def sendInitialGo (q : Quiche W) (label : String) (fail : String → TransportError) :
    Nat → HostMethod W Unit
  | 0 => Prog.diverge
  | fuel + 1 => do
    match ← ask q.send with
    | .error .done => return ()
    | .error (.other e) => throw (fail s!"{label} send error: {e}")
    | .ok packet =>
      match ← ask (q.sendTo packet) with
      | .error e => throw (fail s!"udp send error: {e}")
      | .ok () => sendInitialGo q label fail fuel

/-- `QuicConnection::new`. -/
def newConnection (id : ConnectionId) (quiche : Nat) (peerAddr : SocketAddr)
    (endpoint : ConnectionEndpoint) : HostMethod W Entry :=
  modifyGet fun h =>
    let s := Quic.new (net.quiche quiche) id endpoint.transport endpoint.peerId h.world
    (⟨quiche, peerAddr, s.conn⟩, { h with world := s.world })

/-- Dials an address under a new connection id. -/
def dial (addr : PeerAddr) : HostMethod W ConnectionId := do
  let id ← allocateConnectionId
  let peerSocket ← resolveDialSocketAddr net addr.transport "dial target"
  let localSocket ← localAddr net
  match ← ask net.generateScid with
  | .error e => throw (.dialFailed id s!"failed to generate connection id: {e}")
  | .ok scid =>
    match ← ask (net.connect scid localSocket peerSocket) with
    | .error e => throw (.dialFailed id s!"quiche connect error: {e.display}")
    | .ok quiche =>
      sendInitialGo (net.quiche quiche) "initial" (.dialFailed id) fuel
      let entry ← newConnection net id quiche peerSocket ⟨addr.transport, some addr.peerId⟩
      let sourceCid ← ask (net.sourceId quiche)
      modifyTransport fun t => t.insertConnection id entry
      modifyTransport fun t => t.insertCid sourceCid id
      modifyTransport fun t => t.indexPeerConnection addr.peerId id
      return id

/-- The answer to an Initial packet that no connection knows. -/
def acceptConnection (localSocket source : SocketAddr) : HostMethod W ConnectionId := do
  match ← ask net.generateScid with
  | .error e => throw (.pollError s!"failed to generate server connection id: {e}")
  | .ok scid =>
    match ← ask (net.accept scid localSocket source) with
    | .error e => throw (.pollError s!"quiche accept error: {e.display}")
    | .ok quiche =>
      sendInitialGo (net.quiche quiche) "accept" .pollError fuel
      let id ← allocateConnectionId
      let endpoint : ConnectionEndpoint := ⟨socketAddrToMultiaddr source, none⟩
      let entry ← newConnection net id quiche source endpoint
      let sourceCid ← ask (net.sourceId quiche)
      let h ← get
      modifyTransport fun t => t.insertConnection id entry
      if h.transport.connections.contains id then
        throw (.pollError s!"connection id collision for incoming connection {id.display}")
      else
        modifyTransport fun t => t.insertCid sourceCid id
        modify fun h => h.push (.incomingConnection id endpoint)
        return id

/-! ## Operations -/

/-- Listens on an address. -/
def listen (addr : Multiaddr) : HostMethod W Multiaddr := do
  let requested ← Prog.ofResult (extractListenSocketAddr addr "listen address")
  let bound ← localAddr net
  Prog.ofResult (ensureListenMatchesBoundSocket requested bound)
  let listenAddr := socketAddrToMultiaddr bound
  modifyTransport fun t => { t with listenAddr := some bound }
  modify fun h => h.pushPending (.listening listenAddr)
  return listenAddr

/-- Starts listening on the already-bound socket address. -/
def listenOnBoundAddr : HostMethod W Multiaddr := do
  let addr ← localAddr net
  listen net (socketAddrToMultiaddr addr)

/-- Sends a raw UDP packet, bypassing QUIC. -/
def sendRawUdp (target : Multiaddr) (payload : Bytes) : HostMethod W Unit := do
  let addr ← resolveDialSocketAddr net target "raw udp target"
  match ← ask (net.sendTo payload addr) with
  | .ok () => return ()
  | .error e => throw (.pollError s!"raw udp send to {addr.display} failed: {e}")

/-- `open_stream` of the transport. -/
def openStreamOn (id : ConnectionId) : HostMethod W StreamId := do
  let streamId ← withConnection net id fun _ => openStream
  modify fun h => h.pushPending (.streamOpened id streamId)
  return streamId

/-- `send_stream` of the transport. -/
def sendStreamOn (id : ConnectionId) (streamId : StreamId) (data : Bytes) : HostMethod W Unit :=
  withConnection net id fun q => sendStream q fuel streamId data

/-- `close_stream_write` of the transport. -/
def closeStreamWriteOn (id : ConnectionId) (streamId : StreamId) : HostMethod W Unit :=
  withConnection net id fun q => closeStreamWrite q fuel streamId

/-- `reset_stream` of the transport. -/
def resetStreamOn (id : ConnectionId) (streamId : StreamId) : HostMethod W Unit :=
  withConnection net id fun q => resetStream q streamId

/-- `close` of the transport. -/
def closeOn (id : ConnectionId) : HostMethod W Unit :=
  withConnection net id fun q => close q fuel

/-- The peer-to-connections index after the peer of a connection has changed. -/
def reindex (id : ConnectionId) (previousPeerId peerId : Option PeerId) : HostMethod W Unit := do
  modifyTransport fun t => t.removePeerConnection? previousPeerId id
  match peerId with
  | none => return ()
  | some peerId => modifyTransport fun t => t.indexPeerConnection peerId id

/-- Binds a peer identity to a connection. -/
def verifyConnectionPeerId (id : ConnectionId) (peerId : PeerId) : HostMethod W Unit := do
  let h ← get
  match h.transport.connections[id]? with
  | none => throw (.connectionNotFound id)
  | some entry =>
    let previousPeerId := entry.endpoint.peerId
    if previousPeerId = some peerId then return ()
    else
      let entry := entry.setPeerId peerId
      modifyTransport fun t => t.insertConnection id entry
      reindex id previousPeerId (some peerId)
      modify fun h => h.pushPending (.peerIdentityVerified id entry.endpoint previousPeerId)

/-! ## Polling -/

/-- The first connection, in the order of the `HashMap`, whose remote has an address. -/
def findByPeer (source : SocketAddr) : HostMethod W (Option ConnectionId) := do
  let h ← get
  let ids ← ask (net.keyOrder h.transport.connections.keys)
  return ids.find? fun id => (h.transport.connections[id]?).any (·.matchesPeer source)

/-- The connection a packet goes to, if any: by its connection id, by being the first packet of a
new connection, or by where it comes from. -/
def routePacket (packet : Bytes) (localSocket source : SocketAddr) :
    HostMethod W (Option ConnectionId) := do
  let h ← get
  let header := net.header packet
  match header.bind fun header => h.transport.cidToConnection[header.dcid]? with
  | some id => return some id
  | none =>
    if h.transport.listenAddr.isSome && header.any (·.isInitial) then
      let id ← acceptConnection net fuel localSocket source
      return some id
    else findByPeer net source

/-- The loop over the connections, with the source ids and the closed connections it found. -/
def pollConnections : List ConnectionId →
    HostMethod W (List (Bytes × ConnectionId) × List ConnectionId)
  | [] => return ([], [])
  | id :: ids => do
    let h ← get
    match h.transport.connections[id]? with
    | none => pollConnections ids
    | some entry =>
      onConnection net .polled id entry fun q => pollStreams q fuel
      let sourceCid ← ask (net.sourceId entry.quiche)
      let closed ← ask (net.isClosed entry.quiche)
      let (cidUpdates, toRemove) ← pollConnections ids
      return ((sourceCid, id) :: cidUpdates, if closed then id :: toRemove else toRemove)

/-- Takes a closed connection out of the table. -/
def removeConnection (id : ConnectionId) : HostMethod W Unit := do
  let h ← get
  match h.transport.connections[id]? with
  | none => modify fun h => h.push (.closed id)
  | some entry =>
    modifyTransport fun t =>
      { t with connections := t.connections.erase id }.unindexConnection id entry.endpoint.peerId
    modify fun h => h.push (.closed id)

variable [MultihashCodec] (verifyLibp2pCertificate : Bytes → Except String PeerId)

/-- Hands a packet to its connection and keeps the indexes up with what it did. -/
def deliver (id : ConnectionId) (packet : Bytes) : HostMethod W Unit := do
  let h ← get
  match h.transport.connections[id]? with
  | none => return ()
  | some entry =>
    let previousPeerId := entry.endpoint.peerId
    let endpoint ← onConnection net .polled id entry fun q => do
      recvPacket q fuel verifyLibp2pCertificate packet
      let s ← get
      return s.conn.endpoint
    let sourceCid ← ask (net.sourceId entry.quiche)
    modifyTransport fun t => t.insertCid sourceCid id
    if endpoint.peerId = previousPeerId then return ()
    else
      reindex id previousPeerId endpoint.peerId
      modify fun h => h.push (.peerIdentityVerified id endpoint previousPeerId)

/-- One packet of the receive loop. -/
def pollPacket (packet : Bytes) (source : SocketAddr) : HostMethod W Unit := do
  let localSocket ← localAddr net
  match ← routePacket net fuel packet localSocket source with
  | none => return ()
  | some id => deliver net fuel verifyLibp2pCertificate id packet

/-- The receive loop. -/
def pollPacketsGo : Nat → HostMethod W Unit
  | 0 => Prog.diverge
  | turns + 1 => do
    match ← ask net.recvFrom with
    | .wouldBlock => return ()
    | .error e => throw (.pollError s!"udp recv error: {e}")
    | .packet packet source =>
      pollPacket net fuel verifyLibp2pCertificate packet source
      pollPacketsGo turns

/-- Receives what has come, looks after every connection and returns the events. -/
def poll : HostMethod W (List TransportEvent) := do
  modify (·.takePending)
  pollPacketsGo net fuel verifyLibp2pCertificate fuel
  let h ← get
  let ids ← ask (net.keyOrder h.transport.connections.keys)
  let (cidUpdates, toRemove) ← pollConnections net fuel ids
  cidUpdates.forM fun (cid, id) => modifyTransport fun t => t.insertCid cid id
  toRemove.forM removeConnection
  let h ← get
  return h.events

end Methods

/-! ## Runs -/

/-- A call on the transport. -/
inductive HostCall
  | dial (addr : PeerAddr)
  | listen (addr : Multiaddr)
  | listenOnBoundAddr
  | sendRawUdp (target : Multiaddr) (payload : Bytes)
  | openStream (id : ConnectionId)
  | sendStream (id : ConnectionId) (streamId : StreamId) (data : Bytes)
  | closeStreamWrite (id : ConnectionId) (streamId : StreamId)
  | resetStream (id : ConnectionId) (streamId : StreamId)
  | close (id : ConnectionId)
  | verifyConnectionPeerId (id : ConnectionId) (peerId : PeerId)
  | poll
deriving DecidableEq, Repr

variable [MultihashCodec] (net : Net W) (fuel : Nat)
  (verifyLibp2pCertificate : Bytes → Except String PeerId)

/-- The method a call runs; the caller's use of what it returns is not part of the run. -/
def HostCall.method : HostCall → HostMethod W Unit
  | .dial addr => do
    let _ ← Quic.dial net fuel addr
  | .listen addr => do
    let _ ← Quic.listen net addr
  | .listenOnBoundAddr => do
    let _ ← Quic.listenOnBoundAddr net
  | .sendRawUdp target payload => Quic.sendRawUdp net target payload
  | .openStream id => do
    let _ ← openStreamOn net id
  | .sendStream id streamId data => sendStreamOn net fuel id streamId data
  | .closeStreamWrite id streamId => closeStreamWriteOn net fuel id streamId
  | .resetStream id streamId => resetStreamOn net id streamId
  | .close id => closeOn net fuel id
  | .verifyConnectionPeerId id peerId => Quic.verifyConnectionPeerId id peerId
  | .poll => do
    let _ ← Quic.poll net fuel verifyLibp2pCertificate

/-- A sequence of calls; a call that fails leaves what it did to the next one. -/
def runHost (h : Host W) : List HostCall → Option (Host W)
  | [] => some h
  | call :: calls =>
    match Prog.exec (call.method net fuel verifyLibp2pCertificate) h with
    | none => none
    | some (_, h) => runHost h calls

variable {net fuel verifyLibp2pCertificate}

/-- An invariant that every call keeps holds at the end of every run. -/
theorem runHost_invariant {I : Host W → Prop}
    (hstep : ∀ call : HostCall, Keeps I (call.method net fuel verifyLibp2pCertificate))
    {h h' : Host W} {calls : List HostCall} (hI : I h)
    (hrun : runHost net fuel verifyLibp2pCertificate h calls = some h') : I h' := by
  induction calls generalizing h with
  | nil =>
    cases hrun
    exact hI
  | cons call calls ih =>
    rw [runHost] at hrun
    split at hrun
    · cases hrun
    · next hexec => exact ih ((hstep call).of_exec hI hexec) hrun

/-! ## An idle network -/

/-- A quiche connection on which nothing happens. -/
def Quiche.idle (W : Type) : Quiche W where
  recv _ w := (.error .done, w)
  isEstablished w := (false, w)
  isServer w := (false, w)
  peerCert w := (none, w)
  close _ _ w := (.ok (), w)
  readable w := ([], w)
  streamRecv _ w := (.error .done, w)
  streamSend _ _ _ w := (.error .done, w)
  streamShutdown _ _ w := (.ok (), w)
  send w := (.error .done, w)
  sendTo _ w := (.ok (), w)
  keyOrder keys w := (keys, w)
  keyOrder_perm keys _ := .refl keys

/-- A network on which nothing arrives and every connection is idle. The socket is bound to
`bound`. -/
def Net.idle (W : Type) (bound : SocketAddr) : Net W where
  quiche _ := Quiche.idle W
  sourceId _ w := ([], w)
  isClosed _ w := (false, w)
  header _ := none
  connect _ _ _ w := (.ok 0, w)
  accept _ _ _ w := (.ok 0, w)
  generateScid w := (.ok [], w)
  localAddr w := (.ok bound, w)
  recvFrom w := (.wouldBlock, w)
  sendTo _ _ w := (.ok (), w)
  toSocketAddrs _ w := (.ok [], w)
  keyOrder keys w := (keys, w)
  keyOrder_perm keys _ := .refl keys

/-- The address 10.0.0.1:4001 of `somePeer`. -/
def somePeerAddr : PeerAddr where
  transport := ⟨[.ip4 #v[10, 0, 0, 1], .udp 4001, .quicV1]⟩
  peerId := somePeer
  noPeerId := rfl
  nonempty := rfl

end Minip2p.Quic
