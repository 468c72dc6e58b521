import Minip2p.Multistream.Select
import Minip2p.Ping.Protocol
import Minip2p.Swarm.Events

/-!
# Swarm core

`SwarmCore` of `crates/swarm/src/core.rs`: the state machine that ties connections to peers,
negotiates a protocol on every stream and routes stream events to ping, identify or the
application. Every method returns the state after it; the methods of the application return
their result as well. A pair `(ConnectionId, StreamId)` is a `StreamKey`.

The loops that poll a negotiator or a protocol handler until it is idle run over a snapshot of
its outputs: nothing in their bodies feeds it again.

`debugAssertFailed` is not a field of the source: it records whether the `debug_assert_eq` of
`queue_open_protocol_stream` has failed so far.
-/

namespace Minip2p.Swarm

open Identify (IdentifyConfig IdentifyProtocol IdentifyMessage IdentifyInput IdentifyOutput
  IdentifyAction IdentifyEvent identifyProtocolId)
open Multistream (MultistreamSelect MultistreamInput MultistreamOutput)
open Ping (PingConfig PingProtocol PingInput PingOutput PingAction PingEvent Payload
  pingProtocolId)

/-- Identifies which protocol owns a negotiated stream. -/
inductive ProtocolKind
  | ping
  | identifyResponder
  | identifyInitiator
  | user (protocolId : String)
deriving DecidableEq, Repr

/-- A protocol of the application. -/
def ProtocolKind.isUser : ProtocolKind → Bool
  | .user _ => true
  | _ => false

/-- A pending outbound stream that is still negotiating multistream-select. -/
structure PendingOutbound where
  negotiator : MultistreamSelect
  target : ProtocolKind
deriving DecidableEq

/-- Metadata of an outstanding OpenStream request. -/
structure PendingOpen where
  connId : ConnectionId
  protocol : String
  target : ProtocolKind
deriving DecidableEq, Repr

/-- The swarm state machine. -/
structure SwarmCore where
  ping : PingProtocol
  identify : IdentifyProtocol
  connToPeer : BTreeMap ConnectionId PeerId := ∅
  peerToConn : BTreeMap PeerId ConnectionId := ∅
  activeConnections : BTreeMap ConnectionId Bool := ∅
  connToRemoteAddr : BTreeMap ConnectionId Multiaddr := ∅
  inboundNegotiators : BTreeMap StreamKey MultistreamSelect := ∅
  outboundNegotiators : BTreeMap StreamKey PendingOutbound := ∅
  streamOwner : BTreeMap StreamKey ProtocolKind := ∅
  pendingOpens : BTreeMap OpenStreamToken PendingOpen := ∅
  nextOpenToken : UInt64 := 1
  supportedProtocols : List String := [identifyProtocolId, pingProtocolId]
  userProtocols : List String := []
  pendingPings : BTreeMap PeerId Payload := ∅
  localAddresses : List Multiaddr := []
  peerInfo : BTreeMap PeerId IdentifyMessage := ∅
  readyPeers : BTreeSet PeerId := ∅
  establishedPeers : BTreeSet PeerId := ∅
  events : List SwarmEvent := []
  actions : List SwarmAction := []
  debugAssertFailed : Bool := false
deriving DecidableEq

namespace SwarmCore

variable [Sha256] [MultihashCodec]

/-- Creates a new core with the given identify and ping configs. -/
def new (identifyConfig : IdentifyConfig) (pingConfig : PingConfig) : SwarmCore where
  ping := PingProtocol.new pingConfig
  identify := IdentifyProtocol.new identifyConfig

/-- Updates the snapshot of the transport's local listening addresses. -/
def setLocalAddresses (core : SwarmCore) (addrs : List Multiaddr) : SwarmCore :=
  { core with localAddresses := addrs }

/-- Registers a user protocol id. -/
def addUserProtocol (core : SwarmCore) (id : String) : SwarmCore :=
  { core with
    userProtocols :=
      if core.userProtocols.contains id then core.userProtocols else core.userProtocols ++ [id]
    supportedProtocols :=
      if core.supportedProtocols.contains id then core.supportedProtocols
      else core.supportedProtocols ++ [id]
    identify := core.identify.addProtocol id }

/-- Returns the next core output, actions first. -/
def pollOutput (core : SwarmCore) : SwarmCore × Option SwarmOutput :=
  match core.actions with
  | action :: actions => ({ core with actions := actions }, some (.action action))
  | [] =>
    match core.events with
    | event :: events => ({ core with events := events }, some (.event event))
    | [] => (core, none)

/-! ## State helpers -/

/-- `self.events.push_back`. -/
def pushEvent (core : SwarmCore) (event : SwarmEvent) : SwarmCore :=
  { core with events := core.events ++ [event] }

/-- `self.actions.push_back`. -/
def pushAction (core : SwarmCore) (action : SwarmAction) : SwarmCore :=
  { core with actions := core.actions ++ [action] }

/-- Emits a runtime error. -/
def emitError (core : SwarmCore) (kind : SwarmErrorKind) (peerId : Option PeerId)
    (connId : Option ConnectionId) (detail : String) : SwarmCore :=
  core.pushEvent (.error { kind, peerId, connId, detail })

/-- The connection of a peer, or an error. -/
def requireConn (core : SwarmCore) (peerId : PeerId) : Except SwarmError ConnectionId :=
  match core.peerToConn[peerId]? with
  | some connId => .ok connId
  | none => .error (.notConnected peerId)

/-- The connection of the first user stream `streamId` of `peerId`. -/
def requireUserStreamConn (core : SwarmCore) (peerId : PeerId) (streamId : StreamId) :
    Except SwarmError ConnectionId :=
  let found := BTreeMap.findMap core.streamOwner fun key protocol =>
    if key.stream = streamId ∧ protocol.isUser ∧
        core.connToPeer[key.conn]? = some peerId then some key.conn
    else none
  match found with
  | some connId => .ok connId
  | none => .error (.userStreamNotFound peerId streamId)

/-- The connection of the first stream `streamId` of `peerId` that `expected` owns. -/
def connForOwnedStream (core : SwarmCore) (peerId : PeerId) (streamId : StreamId)
    (expected : ProtocolKind) : Option ConnectionId :=
  BTreeMap.findMap core.streamOwner fun key protocol =>
    if key.stream = streamId ∧ protocol = expected ∧ core.connToPeer[key.conn]? = some peerId then
      some key.conn
    else none

/-- The peer of a connection, if it has been surfaced as connected. -/
def establishedPeerForConn (core : SwarmCore) (connId : ConnectionId) : Option PeerId :=
  match core.connToPeer[connId]? with
  | some peerId => if core.establishedPeers.contains peerId then some peerId else none
  | none => none

/-- Emits `PeerReady` once identify has answered for a connected peer. -/
def tryEmitPeerReady (core : SwarmCore) (peerId : PeerId) : SwarmCore :=
  if core.readyPeers.contains peerId then core
  else
    match core.peerInfo[peerId]? with
    | none => core
    | some info =>
      if core.peerToConn.contains peerId then
        { core with readyPeers := core.readyPeers.insert peerId }.pushEvent
          (.peerReady peerId info.protocols)
      else core

/-- The outbound ping stream of a peer. -/
def findNegotiatedPingStream (core : SwarmCore) (peerId : PeerId) : Option StreamId :=
  core.ping.outboundStream peerId

/-- A ping stream to a peer is being opened or negotiated. -/
def hasPendingPingStream (core : SwarmCore) (peerId : PeerId) : Bool :=
  match core.peerToConn[peerId]? with
  | none => false
  | some conn =>
    BTreeMap.anyEntry core.outboundNegotiators
      (fun key pending => key.conn = conn ∧ pending.target = .ping) ||
    BTreeMap.anyEntry core.pendingOpens (fun _ open_ => open_.connId = conn ∧ open_.target = .ping)

/-- The next token, and the counter after it. Zero is skipped. -/
def takeOpenToken (nextOpenToken : UInt64) : OpenStreamToken × UInt64 :=
  if nextOpenToken ≠ 0 then (⟨nextOpenToken⟩, nextOpenToken + 1)
  else (⟨nextOpenToken + 1⟩, nextOpenToken + 2)

/-- Asks the driver for a stream to `peerId`. -/
def queueOpenProtocolStream (core : SwarmCore) (peerId : PeerId) (protocolId : String)
    (target : ProtocolKind) : SwarmCore × Except SwarmError Unit :=
  match core.requireConn peerId with
  | .error e => (core, .error e)
  | .ok connId =>
    let (token, nextOpenToken) := takeOpenToken core.nextOpenToken
    ({ core with
        debugAssertFailed :=
          -- the two maps disagree about the connection of the peer
          core.debugAssertFailed || core.connToPeer[connId]? ≠ some peerId
        nextOpenToken := nextOpenToken
        pendingOpens := core.pendingOpens.insert token ⟨connId, protocolId, target⟩
        actions := core.actions ++ [.openStream connId token] }, .ok ())

/-- The placeholder peer id of a connection whose identity is not known. -/
def syntheticPeerId (connId : ConnectionId) : PeerId :=
  PeerId.fromPublicKeyProtobuf (asBytes s!"minip2p-synthetic-conn-{connId.asU64}")

/-- Returns the peer id of a connection, creating a synthetic one if needed. -/
def ensurePeerIdForConn (core : SwarmCore) (connId : ConnectionId) : SwarmCore × PeerId :=
  match core.connToPeer[connId]? with
  | some peerId => (core, peerId)
  | none =>
    let peerId := syntheticPeerId connId
    ({ core with
        connToPeer := core.connToPeer.insert connId peerId
        peerToConn := core.peerToConn.insert peerId connId }, peerId)

/-! ## Protocol handlers -/

/-- Does what ping asks for. -/
def executePingAction (core : SwarmCore) : PingAction → SwarmCore
  | .send peerId streamId data =>
    -- an action for a stream that is gone is dropped
    match core.connForOwnedStream peerId streamId .ping with
    | some connId => core.pushAction (.sendStream connId streamId data.toList)
    | none => core
  | .closeStreamWrite peerId streamId =>
    match core.connForOwnedStream peerId streamId .ping with
    | some connId => core.pushAction (.closeStreamWrite connId streamId)
    | none => core
  | .resetStream peerId streamId =>
    match core.connForOwnedStream peerId streamId .ping with
    | some connId => core.pushAction (.resetStream connId streamId)
    | none => core

/-- Does what identify asks for. -/
def executeIdentifyAction (core : SwarmCore) : IdentifyAction → SwarmCore
  | .send peerId streamId data =>
    -- unlike ping, identify does not look for the owner of the stream
    match core.peerToConn[peerId]? with
    | some connId => core.pushAction (.sendStream connId streamId data)
    | none => core
  | .closeStreamWrite peerId streamId =>
    match core.peerToConn[peerId]? with
    | some connId => core.pushAction (.closeStreamWrite connId streamId)
    | none => core

/-- Reports what ping has found out. -/
def handlePingEvent (core : SwarmCore) : PingEvent → SwarmCore
  | .rttMeasured peerId _ rttMs => core.pushEvent (.pingRttMeasured peerId rttMs)
  | .timeout peerId _ _ => core.pushEvent (.pingTimeout peerId)
  | .protocolViolation peerId _ reason =>
    core.emitError .ping (some peerId) core.peerToConn[peerId]?
      s!"ping protocol violation from {peerId.toBase58}: {reason}"
  -- the other ping events are not surfaced
  | _ => core

/-- Files and reports what identify has found out. -/
def handleIdentifyEvent (core : SwarmCore) : IdentifyEvent → SwarmCore
  | .received peerId info =>
    let core := { core with peerInfo := core.peerInfo.insert peerId info }
    (core.pushEvent (.identifyReceived peerId info)).tryEmitPeerReady peerId
  | .error _ _ error => core.emitError .identify none none s!"identify error: {error}"

/-- An output of ping. -/
def handlePingOutput (core : SwarmCore) : PingOutput → SwarmCore
  | .action action => core.executePingAction action
  | .event event => core.handlePingEvent event

/-- An output of identify. -/
def handleIdentifyOutput (core : SwarmCore) : IdentifyOutput → SwarmCore
  | .action action => core.executeIdentifyAction action
  | .event event => core.handleIdentifyEvent event

/-- Handles all that ping has to hand out. -/
def drainPingOutputs (core : SwarmCore) : SwarmCore :=
  let (outputs, ping) := core.ping.drainOutputs
  outputs.foldl handlePingOutput { core with ping := ping }

/-- Handles all that identify has to hand out. -/
def drainIdentifyOutputs (core : SwarmCore) : SwarmCore :=
  let (outputs, identify) := core.identify.drainOutputs
  outputs.foldl handleIdentifyOutput { core with identify := identify }

/-- `let _ = self.ping.handle_input(..)`, then `drain_ping_outputs`. -/
def feedPing (core : SwarmCore) (input : PingInput) : SwarmCore :=
  { core with ping := (core.ping.handleInput input).1 }.drainPingOutputs

/-- `let _ = self.identify.handle_input(..)`, then `drain_identify_outputs`. -/
def feedIdentify (core : SwarmCore) (input : IdentifyInput) : SwarmCore :=
  { core with identify := (core.identify.handleInput input).1 }.drainIdentifyOutputs

/-! ## Connections -/

/-- Forgets the streams and pending opens of a connection. -/
def retainOtherStreams (core : SwarmCore) (connId : ConnectionId) : SwarmCore :=
  { core with
    streamOwner := core.streamOwner.filter fun key _ => key.conn ≠ connId
    inboundNegotiators := core.inboundNegotiators.filter fun key _ => key.conn ≠ connId
    outboundNegotiators := core.outboundNegotiators.filter fun key _ => key.conn ≠ connId
    pendingOpens := core.pendingOpens.filter fun _ pending => pending.connId ≠ connId }

/-- Removes a peer from ping and identify. -/
def removeFromHandlers (core : SwarmCore) (peerId : PeerId) : SwarmCore :=
  let core := { core with
    ping := (core.ping.handleInput (.removePeer peerId)).1
    identify := (core.identify.handleInput (.removePeer peerId)).1 }
  core.drainPingOutputs.drainIdentifyOutputs

/-- The part of `supersede_connection` for a connection that has a peer. A pending ping outlives
the connection. -/
def supersedePeer (core : SwarmCore) (peerId : PeerId) : SwarmCore :=
  -- the payload is set aside and put back
  let pendingPing := core.pendingPings[peerId]?
  let core := { core with pendingPings := core.pendingPings.erase peerId }
  let core := core.removeFromHandlers peerId
  { core with
    pendingPings :=
      match pendingPing with
      | some payload => core.pendingPings.insert peerId payload
      | none => core.pendingPings
    peerInfo := core.peerInfo.erase peerId
    readyPeers := core.readyPeers.erase peerId
    establishedPeers := core.establishedPeers.erase peerId }

/-- Closes a connection whose peer has a new one, and forgets its streams. -/
def supersedeConnection (core : SwarmCore) (oldId : ConnectionId) : SwarmCore :=
  let core :=
    match core.connToPeer[oldId]? with
    | some peerId =>
      { core with connToPeer := core.connToPeer.erase oldId }.supersedePeer peerId
    | none => core
  let core := { core with
    activeConnections := core.activeConnections.erase oldId
    connToRemoteAddr := core.connToRemoteAddr.erase oldId }
  (core.retainOtherStreams oldId).pushAction (.closeConnection oldId)

/-- `queue_open_protocol_stream` with its failure reported as a runtime error. -/
def openOrReport (core : SwarmCore) (peerId : PeerId) (connId : ConnectionId) (protocolId : String)
    (target : ProtocolKind) (kind : SwarmErrorKind) (detail : SwarmError → String) : SwarmCore :=
  match core.queueOpenProtocolStream peerId protocolId target with
  | (core, .ok ()) => core
  | (core, .error e) => core.emitError kind (some peerId) (some connId) (detail e)

/-- The end of `register_connection` for a connection that was not tracked before. -/
def announceConnection (core : SwarmCore) (id : ConnectionId) (peerId : PeerId) : SwarmCore :=
  let core := { core with establishedPeers := core.establishedPeers.insert peerId }
  let core := core.pushEvent (.connectionEstablished peerId)
  -- identify runs on every new connection
  let core := core.openOrReport peerId id identifyProtocolId .identifyInitiator .identify
    fun e => s!"failed to queue identify stream to {peerId.toBase58}: {e.display}"
  -- a ping that outlived a superseded connection needs a stream on this one
  if core.pendingPings.contains peerId ∧ (core.findNegotiatedPingStream peerId).isNone ∧
      ¬ core.hasPendingPingStream peerId then
    core.openOrReport peerId id pingProtocolId .ping .ping
      fun e => s!"failed to requeue pending ping stream to {peerId.toBase58}: {e.display}"
  else core

/-- Supersedes the connection that `peerId` has, if it is not `id`. -/
def supersedeOther (core : SwarmCore) (id : ConnectionId) (peerId : PeerId) : SwarmCore :=
  match core.peerToConn[peerId]? with
  | some existingId => if existingId ≠ id then core.supersedeConnection existingId else core
  | none => core

/-- Files a connection under its peer, and announces it if it is new. -/
def registerConnection (core : SwarmCore) (id : ConnectionId) (peerId : PeerId) : SwarmCore :=
  let isNew := !core.connToPeer.contains id
  -- last connection wins
  let core := core.supersedeOther id peerId
  let core := { core with
    connToPeer := core.connToPeer.insert id peerId
    peerToConn := core.peerToConn.insert peerId id }
  if isNew then core.announceConnection id peerId else core

/-- Renames a peer in the events that wait. -/
def migrateBufferedEvents (core : SwarmCore) (old new : PeerId) : SwarmCore :=
  { core with events := core.events.map (SwarmEvent.migrate old new) }

/-- The part of `upgrade_connection_identity` that moves what is filed under `stale`. -/
def migrateIdentity (core : SwarmCore) (stale new : PeerId) : SwarmCore :=
  let core := { core with
    peerToConn := core.peerToConn.erase stale
    ping := (core.ping.handleInput (.migratePeer stale new)).1
    identify := (core.identify.handleInput (.migratePeer stale new)).1 }
  let core := core.drainPingOutputs.drainIdentifyOutputs
  let core := { core with
    pendingPings :=
      match core.pendingPings[stale]? with
      | some payload => (core.pendingPings.erase stale).insert new payload
      | none => core.pendingPings
    peerInfo :=
      match core.peerInfo[stale]? with
      | some info => (core.peerInfo.erase stale).insert new info
      | none => core.peerInfo
    readyPeers :=
      if core.readyPeers.contains stale then (core.readyPeers.erase stale).insert new
      else core.readyPeers
    establishedPeers :=
      if core.establishedPeers.contains stale then (core.establishedPeers.erase stale).insert new
      else core.establishedPeers }
  core.migrateBufferedEvents stale new

/-- The end of `upgrade_connection_identity`: files the connection under its peer. -/
def bindIdentity (core : SwarmCore) (connId : ConnectionId) (newPeerId : PeerId) : SwarmCore :=
  let core := { core with
    connToPeer := core.connToPeer.insert connId newPeerId
    peerToConn := core.peerToConn.insert newPeerId connId
    establishedPeers := core.establishedPeers.insert newPeerId }
  let core := core.pushEvent (.connectionEstablished newPeerId)
  -- identify may have answered while the peer had its placeholder name
  let core := core.tryEmitPeerReady newPeerId
  core.openOrReport newPeerId connId identifyProtocolId .identifyInitiator .identify fun e =>
    s!"failed to queue identify stream to {newPeerId.toBase58} after identity upgrade: {e.display}"

/-- Gives a connection the identity that was verified. -/
def upgradeConnectionIdentity (core : SwarmCore) (connId : ConnectionId) (newPeerId : PeerId) :
    SwarmCore :=
  match core.connToPeer[connId]? with
  | some current =>
    if current = newPeerId then core
    else (core.migrateIdentity current newPeerId).bindIdentity connId newPeerId
  | none => core.bindIdentity connId newPeerId

/-- The part of `handle_connection_closed` for a peer whose primary connection closed. -/
def closePeer (core : SwarmCore) (peerId : PeerId) : SwarmCore :=
  let core := { core with peerToConn := core.peerToConn.erase peerId }
  let core := core.removeFromHandlers peerId
  { core with
    pendingPings := core.pendingPings.erase peerId
    peerInfo := core.peerInfo.erase peerId
    readyPeers := core.readyPeers.erase peerId
    establishedPeers := core.establishedPeers.erase peerId }.pushEvent (.connectionClosed peerId)

/-- Forgets a connection. -/
def handleConnectionClosed (core : SwarmCore) (connId : ConnectionId) : SwarmCore :=
  let core := { core with
    activeConnections := core.activeConnections.erase connId
    connToRemoteAddr := core.connToRemoteAddr.erase connId }
  let core :=
    match core.connToPeer[connId]? with
    | some peerId =>
      let core := { core with connToPeer := core.connToPeer.erase connId }
      -- the peer goes only with its primary connection
      if core.peerToConn[peerId]? = some connId then core.closePeer peerId else core
    | none => core
  core.retainOtherStreams connId

/-! ## Streams -/

/-- Hands data or the end of a stream to the protocol that owns it. -/
def dispatchProtocolData (core : SwarmCore) (key : StreamKey) (data : Bytes) (nowMs : UInt64) :
    SwarmCore :=
  match core.streamOwner[key]? with
  | none => core
  | some protocol =>
    let (core, peerId) := core.ensurePeerIdForConn key.conn
    match protocol with
    | .ping => core.feedPing (.streamData peerId key.stream data nowMs)
    | .identifyInitiator => core.feedIdentify (.streamData peerId key.stream data)
    | .identifyResponder => core
    | .user _ => core.pushEvent (.userStreamData peerId key.stream data)

/-- The remote has ended its side of a stream. -/
def handleStreamRemoteWriteClosed (core : SwarmCore) (key : StreamKey) : SwarmCore :=
  match core.streamOwner[key]? with
  | none => core
  | some protocol =>
    let (core, peerId) := core.ensurePeerIdForConn key.conn
    match protocol with
    | .ping => core.feedPing (.streamRemoteWriteClosed peerId key.stream)
    | .identifyInitiator => core.feedIdentify (.streamRemoteWriteClosed peerId key.stream)
    | .identifyResponder => core
    | .user _ => core.pushEvent (.userStreamRemoteWriteClosed peerId key.stream)

/-- Tells the protocol that owned a stream of `peerId` that it closed. -/
def notifyStreamClosed (core : SwarmCore) (protocol : ProtocolKind) (peerId : PeerId)
    (streamId : StreamId) : SwarmCore :=
  match protocol with
  | .ping => core.feedPing (.streamClosed peerId streamId)
  | .identifyInitiator => core.feedIdentify (.streamClosed peerId streamId)
  | .identifyResponder => core.feedIdentify (.streamClosed peerId streamId)
  | .user _ => core.pushEvent (.userStreamClosed peerId streamId)

/-- A stream has ended. -/
def handleStreamClosed (core : SwarmCore) (key : StreamKey) : SwarmCore :=
  let owner := core.streamOwner[key]?
  let core := { core with streamOwner := core.streamOwner.erase key }
  let core :=
    -- no placeholder is made for a stream that closes
    match owner, core.connToPeer[key.conn]? with
    | some protocol, some peerId => core.notifyStreamClosed protocol peerId key.stream
    | _, _ => core
  { core with
    inboundNegotiators := core.inboundNegotiators.erase key
    outboundNegotiators := core.outboundNegotiators.erase key }

/-! ## Negotiation -/

/-- Handles one output of a negotiator. Returns the protocol negotiated so far and whether the
negotiation failed. -/
def handleMultistreamOutput (core : SwarmCore) (key : StreamKey) (output : MultistreamOutput)
    (negotiated : Option String) : SwarmCore × Option String × Bool :=
  match output with
  | .outboundData bytes =>
    (core.pushAction (.sendStream key.conn key.stream bytes), negotiated, false)
  | .negotiated protocol => (core, some protocol, false)
  | .notAvailable => (core, negotiated, true)
  | .protocolError reason =>
    (core.emitError .multistream (core.establishedPeerForConn key.conn) (some key.conn)
      s!"multistream error on stream {key.stream.display}: {reason}", negotiated, true)

/-- The polling loop of `feed_inbound_negotiator`, which stops at the first failure. -/
def pollInbound (key : StreamKey) :
    List MultistreamOutput → SwarmCore → Option String → SwarmCore × Option String × Bool
  | [], core, negotiated => (core, negotiated, false)
  | output :: outputs, core, negotiated =>
    match core.handleMultistreamOutput key output negotiated with
    | (core, negotiated, true) => (core, negotiated, true)
    | (core, negotiated, false) => pollInbound key outputs core negotiated

/-- The polling loop of `feed_outbound_negotiator`: whether a protocol was negotiated and whether
the negotiation failed. -/
def pollOutbound (key : StreamKey) :
    List MultistreamOutput → SwarmCore → Bool → SwarmCore × Bool × Bool
  | [], core, negotiated => (core, negotiated, false)
  | .negotiated _ :: outputs, core, _ => pollOutbound key outputs core true
  -- the dialer says which stream the remote declined
  | .notAvailable :: _, core, negotiated =>
    (core.emitError .unsupportedProtocol (core.establishedPeerForConn key.conn) (some key.conn)
      s!"remote peer does not support protocol for stream {key.stream.display}", negotiated, true)
  | output :: outputs, core, negotiated =>
    match core.handleMultistreamOutput key output none with
    | (core, _, true) => (core, negotiated, true)
    | (core, _, false) => pollOutbound key outputs core negotiated

/-- The polling loop after a negotiator started. -/
def pollStart (key : StreamKey) (outputs : List MultistreamOutput) (core : SwarmCore) : SwarmCore :=
  outputs.foldl (fun core output => (core.handleMultistreamOutput key output none).1) core

/-- `self.actions.push_back(SwarmAction::ResetStream { .. })`. -/
def resetStream (core : SwarmCore) (key : StreamKey) : SwarmCore :=
  core.pushAction (.resetStream key.conn key.stream)

/-- Answers an identify request, unless a responder stream of the peer is open. -/
def respondIdentify (core : SwarmCore) (key : StreamKey) (peerId : PeerId) : SwarmCore :=
  let observedAddr := core.connToRemoteAddr[key.conn]?
  match core.identify.handleInput
      (.registerOutboundStream peerId key.stream observedAddr core.localAddresses) with
  | (identify, .ok ()) =>
    { core with
      identify := identify
      streamOwner := core.streamOwner.insert key .identifyResponder }.drainIdentifyOutputs
  | (identify, .error e) =>
    ({ core with identify := identify }.emitError .identifyStreamRejected (some peerId)
      (some key.conn) s!"identify responder error: {e.display}").resetStream key

/-- The remote has agreed on a protocol on its stream. -/
def onInboundNegotiated (core : SwarmCore) (key : StreamKey) (protocol : String) : SwarmCore :=
  let (core, peerId) := core.ensurePeerIdForConn key.conn
  if protocol = pingProtocolId then
    { core with streamOwner := core.streamOwner.insert key .ping }.feedPing
      (.registerInboundStream peerId key.stream)
  else if protocol = identifyProtocolId then core.respondIdentify key peerId
  else if core.userProtocols.contains protocol then
    { core with streamOwner := core.streamOwner.insert key (.user protocol) }.pushEvent
      (.userStreamReady peerId key.stream protocol false)
  else core

/-- Sends the ping that waited for the stream. -/
def sendDeferredPing (core : SwarmCore) (key : StreamKey) (peerId : PeerId) (nowMs : UInt64) :
    SwarmCore :=
  match core.pendingPings[peerId]? with
  | none => core
  | some payload =>
    match core.ping.handleInput (.sendPing peerId payload nowMs) with
    | (ping, .ok ()) =>
      { core with
        pendingPings := core.pendingPings.erase peerId
        ping := ping }.drainPingOutputs
    | (ping, .error e) =>
      { core with
        pendingPings := core.pendingPings.erase peerId
        ping := ping }.emitError .ping (some peerId) (some key.conn)
          s!"deferred ping send failed: {e.display}"

/-- The ping stream we opened is ready. -/
def startPing (core : SwarmCore) (key : StreamKey) (peerId : PeerId) (nowMs : UInt64) :
    SwarmCore :=
  match core.ping.handleInput (.registerOutboundStream peerId key.stream) with
  | (ping, .error e) =>
    let core := { core with ping := ping }.emitError .ping (some peerId) (some key.conn)
      s!"ping register error: {e.display}"
    -- the owner was filed before ping was asked
    { core with streamOwner := core.streamOwner.erase key }.resetStream key
  | (ping, .ok ()) =>
    { core with ping := ping }.drainPingOutputs.sendDeferredPing key peerId nowMs

/-- The remote has agreed on a protocol on our stream. -/
def onOutboundNegotiated (core : SwarmCore) (key : StreamKey) (target : ProtocolKind)
    (nowMs : UInt64) : SwarmCore :=
  let (core, peerId) := core.ensurePeerIdForConn key.conn
  let core := { core with streamOwner := core.streamOwner.insert key target }
  match target with
  | .ping => core.startPing key peerId nowMs
  | .identifyInitiator => core.feedIdentify (.registerInboundStream peerId key.stream)
  | .identifyResponder => core
  | .user protocolId => core.pushEvent (.userStreamReady peerId key.stream protocolId true)

/-- Hands over the bytes that followed the handshake, if there are any. -/
def dispatchRemaining (core : SwarmCore) (key : StreamKey) (remaining : Bytes) (nowMs : UInt64) :
    SwarmCore :=
  if remaining.isEmpty then core else core.dispatchProtocolData key remaining nowMs

/-- Bytes on a stream of the remote that is being negotiated. -/
def feedInboundNegotiator (core : SwarmCore) (key : StreamKey) (data : Bytes) (nowMs : UInt64) :
    SwarmCore :=
  match core.inboundNegotiators[key]? with
  | none => core
  | some negotiator =>
    match negotiator.handleInput (.data data) with
    | (_, .error e) =>
      let core := core.emitError .multistream (core.establishedPeerForConn key.conn)
        (some key.conn)
        s!"multistream input failed on inbound stream {key.stream.display}: {e.display}"
      { core with inboundNegotiators := core.inboundNegotiators.erase key }.resetStream key
    | (negotiator, .ok ()) =>
      let (outputs, negotiator) := negotiator.drainOutputs
      let core := { core with
        inboundNegotiators := core.inboundNegotiators.insert key negotiator }
      match pollInbound key outputs core none with
      | (core, _, true) =>
        { core with inboundNegotiators := core.inboundNegotiators.erase key }.resetStream key
      | (core, none, false) => core
      | (core, some protocol, false) =>
        let core := { core with inboundNegotiators := core.inboundNegotiators.erase key }
        (core.onInboundNegotiated key protocol).dispatchRemaining key
          negotiator.takeRemainingBuffer.1 nowMs

/-- Bytes on our stream that is being negotiated. -/
def feedOutboundNegotiator (core : SwarmCore) (key : StreamKey) (data : Bytes) (nowMs : UInt64) :
    SwarmCore :=
  match core.outboundNegotiators[key]? with
  | none => core
  | some pending =>
    match pending.negotiator.handleInput (.data data) with
    | (_, .error e) =>
      let core := core.emitError .multistream (core.establishedPeerForConn key.conn)
        (some key.conn)
        s!"multistream input failed on outbound stream {key.stream.display}: {e.display}"
      { core with outboundNegotiators := core.outboundNegotiators.erase key }.resetStream key
    | (negotiator, .ok ()) =>
      let (outputs, negotiator) := negotiator.drainOutputs
      let core := { core with
        outboundNegotiators := core.outboundNegotiators.insert key { pending with negotiator } }
      match pollOutbound key outputs core false with
      | (core, _, true) =>
        { core with outboundNegotiators := core.outboundNegotiators.erase key }.resetStream key
      | (core, false, false) => core
      | (core, true, false) =>
        let core := { core with outboundNegotiators := core.outboundNegotiators.erase key }
        (core.onOutboundNegotiated key pending.target nowMs).dispatchRemaining key
          negotiator.takeRemainingBuffer.1 nowMs

/-- The remote has opened a stream. -/
def handleIncomingStream (core : SwarmCore) (key : StreamKey) : SwarmCore :=
  let (listener, result) := (MultistreamSelect.listener core.supportedProtocols).handleInput .start
  let core :=
    match result with
    | .ok () => core
    | .error e =>
      core.emitError .multistream (core.establishedPeerForConn key.conn) (some key.conn)
        s!"multistream start failed on inbound stream {key.stream.display}: {e.display}"
  let (outputs, listener) := listener.drainOutputs
  pollStart key outputs
    { core with inboundNegotiators := core.inboundNegotiators.insert key listener }

/-- Bytes on a stream. -/
def handleStreamData (core : SwarmCore) (key : StreamKey) (data : Bytes) (nowMs : UInt64) :
    SwarmCore :=
  if core.inboundNegotiators.contains key then core.feedInboundNegotiator key data nowMs
  else if core.outboundNegotiators.contains key then core.feedOutboundNegotiator key data nowMs
  else core.dispatchProtocolData key data nowMs

/-- Starts the negotiation on a stream the driver opened for `pending`. -/
def startOutbound (core : SwarmCore) (key : StreamKey) (pending : PendingOpen) : SwarmCore :=
  let (negotiator, result) := (MultistreamSelect.dialer pending.protocol).handleInput .start
  let core :=
    match result with
    | .ok () => core
    | .error e =>
      core.emitError .multistream (core.establishedPeerForConn key.conn) (some key.conn)
        s!"multistream start failed on outbound stream {key.stream.display}: {e.display}"
  let (outputs, negotiator) := negotiator.drainOutputs
  -- on this side the negotiator is filed after its first outputs
  let core := pollStart key outputs core
  { core with
    outboundNegotiators :=
      core.outboundNegotiators.insert key { negotiator, target := pending.target } }

/-- A stream that was asked for is open. -/
def handleStreamOpened (core : SwarmCore) (key : StreamKey) (token : OpenStreamToken) :
    SwarmCore :=
  match core.pendingOpens[token]? with
  | none =>
    core.emitError .driver none none s!"unknown OpenStream token {token.raw} reported by driver"
  | some pending =>
    -- the token is spent even when the driver names another connection
    let core := { core with pendingOpens := core.pendingOpens.erase token }
    if pending.connId ≠ key.conn then
      core.emitError .driver (core.establishedPeerForConn key.conn) (some key.conn)
        (s!"driver opened stream on connection {key.conn.display} but core requested " ++
          pending.connId.display)
    else core.startOutbound key pending

/-- A stream that was asked for could not be opened. -/
def handleOpenStreamFailed (core : SwarmCore) (token : OpenStreamToken) (reason : String) :
    SwarmCore :=
  match core.pendingOpens[token]? with
  | some p =>
    let core := { core with pendingOpens := core.pendingOpens.erase token }
    core.emitError .openStreamFailed (core.establishedPeerForConn p.connId) (some p.connId)
      s!"open_stream for protocol '{p.protocol}' on connection {p.connId.display} failed: {reason}"
  | none =>
    core.emitError .openStreamFailed none none s!"open_stream failed (unknown token): {reason}"

/-! ## Ingress -/

/-- An event of the transport. -/
def handleTransportEvent (core : SwarmCore) (event : TransportEvent) (nowMs : UInt64) :
    SwarmCore :=
  match event with
  | .connected id endpoint =>
    let core := { core with
      activeConnections := core.activeConnections.insert id true
      connToRemoteAddr := core.connToRemoteAddr.insert id endpoint.transport }
    match endpoint.peerId with
    | some peerId => core.registerConnection id peerId
    | none => (core.ensurePeerIdForConn id).1
  | .peerIdentityVerified id endpoint _ =>
    let core := { core with
      connToRemoteAddr := core.connToRemoteAddr.insert id endpoint.transport }
    match endpoint.peerId with
    | some peerId => core.upgradeConnectionIdentity id peerId
    | none => core
  | .incomingConnection id endpoint =>
    { core with
      activeConnections := core.activeConnections.insert id false
      connToRemoteAddr := core.connToRemoteAddr.insert id endpoint.transport }
  | .incomingStream id streamId => core.handleIncomingStream ⟨id, streamId⟩
  -- opens are tracked through the reply of the driver instead
  | .streamOpened _ _ => core
  | .streamData id streamId data => core.handleStreamData ⟨id, streamId⟩ data nowMs
  | .streamRemoteWriteClosed id streamId => core.handleStreamRemoteWriteClosed ⟨id, streamId⟩
  | .streamClosed id streamId => core.handleStreamClosed ⟨id, streamId⟩
  | .closed id => core.handleConnectionClosed id
  | .listening _ => core
  | .error id message =>
    core.emitError .transport (core.establishedPeerForConn id) (some id)
      s!"transport error on connection {id.display}: {message}"

/-- Time has passed. -/
def handleTick (core : SwarmCore) (nowMs : UInt64) : SwarmCore :=
  (core.feedPing (.tick nowMs)).drainIdentifyOutputs

/-- Feeds one external input into the core. -/
def handleInput (core : SwarmCore) : SwarmInput → SwarmCore
  | .transport event nowMs => core.handleTransportEvent event nowMs
  | .tick nowMs => core.handleTick nowMs
  | .streamOpened connId streamId token _ => core.handleStreamOpened ⟨connId, streamId⟩ token
  | .openStreamFailed token reason _ => core.handleOpenStreamFailed token reason
  | .runtimeError error => core.pushEvent (.error error)

/-! ## Application-facing intents -/

/-- Queues a ping to `peerId`. -/
def pingPeer (core : SwarmCore) (peerId : PeerId) (payload : Payload) (nowMs : UInt64) :
    SwarmCore × Except SwarmError Unit :=
  if ¬ core.peerToConn.contains peerId then (core, .error (.notConnected peerId))
  else if (core.findNegotiatedPingStream peerId).isSome then
    match core.ping.handleInput (.sendPing peerId payload nowMs) with
    | (ping, .ok ()) => ({ core with ping := ping }.drainPingOutputs, .ok ())
    | (ping, .error e) => ({ core with ping := ping }, .error (.pingError e.display))
  else
    let negotiating := core.hasPendingPingStream peerId
    let core := { core with pendingPings := core.pendingPings.insert peerId payload }
    -- the stream under negotiation will carry the new payload
    if negotiating then (core, .ok ())
    else core.queueOpenProtocolStream peerId pingProtocolId .ping

/-- Opens a new outbound stream for a user protocol. -/
def openUserStream (core : SwarmCore) (peerId : PeerId) (protocolId : String) :
    SwarmCore × Except SwarmError Unit :=
  if ¬ core.userProtocols.contains protocolId then
    (core, .error (.protocolNotRegistered protocolId))
  else if ¬ core.peerToConn.contains peerId then (core, .error (.notConnected peerId))
  -- until the peer is ready its protocols are not known, and the open goes ahead
  else if core.readyPeers.contains peerId ∧
      ¬ (core.peerInfo[peerId]?.any fun info => info.protocols.contains protocolId) then
    (core, .error (.remoteDoesNotSupport peerId protocolId))
  else core.queueOpenProtocolStream peerId protocolId (.user protocolId)

/-- Queues an action on the connection of a user stream. -/
def userStreamAction (core : SwarmCore) (peerId : PeerId) (streamId : StreamId)
    (action : ConnectionId → SwarmAction) : SwarmCore × Except SwarmError Unit :=
  match core.requireUserStreamConn peerId streamId with
  | .ok connId => (core.pushAction (action connId), .ok ())
  | .error e => (core, .error e)

/-- Sends raw bytes on a negotiated user stream. -/
def sendUserStream (core : SwarmCore) (peerId : PeerId) (streamId : StreamId) (data : Bytes) :
    SwarmCore × Except SwarmError Unit :=
  core.userStreamAction peerId streamId (.sendStream · streamId data)

/-- Half-closes our write side of a user stream. -/
def closeUserStreamWrite (core : SwarmCore) (peerId : PeerId) (streamId : StreamId) :
    SwarmCore × Except SwarmError Unit :=
  core.userStreamAction peerId streamId (.closeStreamWrite · streamId)

/-- Resets a user stream. -/
def resetUserStream (core : SwarmCore) (peerId : PeerId) (streamId : StreamId) :
    SwarmCore × Except SwarmError Unit :=
  core.userStreamAction peerId streamId (.resetStream · streamId)

/-- Closes the connection to `peerId`. -/
def disconnect (core : SwarmCore) (peerId : PeerId) : SwarmCore × Except SwarmError Unit :=
  match core.requireConn peerId with
  | .ok connId => (core.pushAction (.closeConnection connId), .ok ())
  | .error e => (core, .error e)

/-- The peers that have been surfaced to the application as connected. -/
def connectedPeers (core : SwarmCore) : List PeerId := core.establishedPeers.toList

/-- Whether a peer has reached the application-ready state. -/
def isPeerReady (core : SwarmCore) (peerId : PeerId) : Bool := core.readyPeers.contains peerId

end SwarmCore

end Minip2p.Swarm
