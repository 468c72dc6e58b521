import Minip2p.Identify.Message
import Minip2p.Transport.Types

/-!
# Identify

The state machine of `crates/identify/src/lib.rs` for `/ipfs/id/1.0.0`. A responder sends our
message on a stream and closes its write side; an initiator buffers what it receives until the
remote closes its write side, then decodes it.
-/

namespace Minip2p.Identify

/-- The identify protocol identifier. -/
def identifyProtocolId : String := "/ipfs/id/1.0.0"

/-- Maximum size for an incoming identify message (8 KiB). -/
def maxMessageSize : Nat := 8192

/-- Configuration for the identify protocol. -/
structure IdentifyConfig where
  protocolVersion : String
  agentVersion : String
  protocols : List String
  publicKey : Bytes
deriving DecidableEq, Repr

/-- Commands the host must execute on behalf of the identify protocol. -/
inductive IdentifyAction
  | send (peerId : PeerId) (streamId : StreamId) (data : Bytes)
  | closeStreamWrite (peerId : PeerId) (streamId : StreamId)
deriving DecidableEq, Repr

/-- Events emitted by the identify protocol. -/
inductive IdentifyEvent
  | received (peerId : PeerId) (info : IdentifyMessage)
  | error (peerId : PeerId) (streamId : StreamId) (error : String)
deriving DecidableEq, Repr

/-- Inputs accepted by `IdentifyProtocol`. -/
inductive IdentifyInput
  | registerOutboundStream (peerId : PeerId) (streamId : StreamId)
      (observedAddr : Option Multiaddr) (listenAddrs : List Multiaddr)
  | registerInboundStream (peerId : PeerId) (streamId : StreamId)
  | streamData (peerId : PeerId) (streamId : StreamId) (data : Bytes)
  | streamRemoteWriteClosed (peerId : PeerId) (streamId : StreamId)
  | streamClosed (peerId : PeerId) (streamId : StreamId)
  | removePeer (peerId : PeerId)
  | migratePeer (oldPeerId newPeerId : PeerId)
deriving DecidableEq, Repr

/-- Outputs produced by `IdentifyProtocol`. -/
inductive IdentifyOutput
  | action (action : IdentifyAction)
  | event (event : IdentifyEvent)
deriving DecidableEq, Repr

/-- Errors returned by identify protocol methods. -/
inductive IdentifyError
  | streamAlreadyRegistered (peerId : PeerId)
  | noOutboundStream (peerId : PeerId)
deriving DecidableEq, Repr

/-- The `Display` text. -/
def IdentifyError.display [MultihashCodec] : IdentifyError → String
  | streamAlreadyRegistered peerId =>
    s!"identify stream already registered for peer {peerId.toBase58}"
  | noOutboundStream peerId => s!"no outbound identify stream for peer {peerId.toBase58}"

/-- State for a single peer's identify exchange: the stream where we are the responder, and the
streams where we are the initiator with what they received so far. -/
structure PeerIdentifyState where
  outboundStream : Option StreamId := none
  inboundStreams : BTreeMap StreamId Bytes := ∅
deriving DecidableEq, Inhabited

/-- The identify protocol state machine. -/
structure IdentifyProtocol where
  peers : BTreeMap PeerId PeerIdentifyState
  events : List IdentifyEvent
  actions : List IdentifyAction
  config : IdentifyConfig
deriving DecidableEq

/-- An event under another peer id, if it names `old`. -/
def IdentifyEvent.migrate (old new : PeerId) : IdentifyEvent → IdentifyEvent
  | received peerId info => received (if peerId = old then new else peerId) info
  | error peerId streamId e => error (if peerId = old then new else peerId) streamId e

namespace IdentifyProtocol

/-- Creates a new identify protocol handler. -/
def new (config : IdentifyConfig) : IdentifyProtocol := ⟨∅, [], [], config⟩

/-- Adds a protocol id to future responses if not already advertised. -/
def addProtocol (identify : IdentifyProtocol) (id : String) : IdentifyProtocol :=
  if identify.config.protocols.contains id then identify
  else
    { identify with
      config := { identify.config with protocols := identify.config.protocols ++ [id] } }

/-- Stores the state of a peer. -/
def setPeer (identify : IdentifyProtocol) (peerId : PeerId) (state : PeerIdentifyState) :
    IdentifyProtocol :=
  { identify with peers := identify.peers.insert peerId state }

/-- Buffers an event. -/
def pushEvent (identify : IdentifyProtocol) (event : IdentifyEvent) : IdentifyProtocol :=
  { identify with events := identify.events ++ [event] }

/-- Buffers actions. -/
def pushActions (identify : IdentifyProtocol) (actions : List IdentifyAction) :
    IdentifyProtocol :=
  { identify with actions := identify.actions ++ actions }

/-- The message we answer with. -/
def localMessage [MultihashCodec] (config : IdentifyConfig) (observedAddr : Option Multiaddr)
    (listenAddrs : List Multiaddr) : IdentifyMessage where
  protocolVersion := some config.protocolVersion
  agentVersion := some config.agentVersion
  publicKey := some config.publicKey
  listenAddrs := listenAddrs.map (·.toBytes)
  observedAddr := observedAddr.map (·.toBytes)
  protocols := config.protocols

/-- Registers a stream where we are the responder. Sends our message and closes the write
side. -/
def registerOutboundStream [MultihashCodec] (identify : IdentifyProtocol) (peerId : PeerId)
    (streamId : StreamId) (observedAddr : Option Multiaddr) (listenAddrs : List Multiaddr) :
    IdentifyProtocol × Except IdentifyError (List IdentifyAction) :=
  let state := identify.peers[peerId]?.getD default
  if state.outboundStream.isSome then
    -- `entry(..).or_default()` has made the state by now
    (identify.setPeer peerId state, .error (.streamAlreadyRegistered peerId))
  else
    let msg := localMessage identify.config observedAddr listenAddrs
    (identify.setPeer peerId { state with outboundStream := some streamId },
      .ok [.send peerId streamId (encodeLengthPrefixed msg.encode),
        .closeStreamWrite peerId streamId])

/-- Registers a stream where we are the initiator. -/
def registerInboundStream (identify : IdentifyProtocol) (peerId : PeerId) (streamId : StreamId) :
    IdentifyProtocol :=
  let state := identify.peers[peerId]?.getD default
  -- a stream that is registered twice keeps what it has received
  let buf := state.inboundStreams[streamId]?.getD []
  identify.setPeer peerId
    { state with inboundStreams := state.inboundStreams.insert streamId buf }

/-- Feeds received stream data into the protocol. -/
def onStreamData (identify : IdentifyProtocol) (peerId : PeerId) (streamId : StreamId)
    (data : Bytes) : IdentifyProtocol × List IdentifyAction :=
  match identify.peers[peerId]? with
  | none => (identify, [])
  | some state =>
    match state.inboundStreams[streamId]? with
    | none => (identify, [])
    | some buf =>
      let buf := buf ++ data
      -- the stream is given up, and later data on it is ignored
      if buf.length > maxMessageSize then
        let identify := identify.setPeer peerId
          { state with inboundStreams := state.inboundStreams.erase streamId }
        (identify.pushEvent (.error peerId streamId
          s!"identify message exceeds maximum size ({buf.length} > {maxMessageSize})"), [])
      else
        (identify.setPeer peerId
          { state with inboundStreams := state.inboundStreams.insert streamId buf }, [])

/-- The event for a message that is complete. -/
def receivedEvent (peerId : PeerId) (streamId : StreamId) (buf : Bytes) : IdentifyEvent :=
  match decodeLengthPrefixed buf >>= IdentifyMessage.decode with
  | .ok info => .received peerId info
  | .error e => .error peerId streamId ("failed to decode identify message: " ++ e.display)

/-- Notifies that the remote peer closed its write side: the message of an initiator stream is
complete, and we close our own write side. -/
def onStreamRemoteWriteClosed (identify : IdentifyProtocol) (peerId : PeerId)
    (streamId : StreamId) : IdentifyProtocol × List IdentifyAction :=
  match identify.peers[peerId]? with
  | none => (identify, [])
  | some state =>
    match state.inboundStreams[streamId]? with
    | none => (identify, [])
    | some buf =>
      let identify := identify.setPeer peerId
        { state with inboundStreams := state.inboundStreams.erase streamId }
      (identify.pushEvent (receivedEvent peerId streamId buf),
        [.closeStreamWrite peerId streamId])

/-- Notifies that a stream was fully closed. -/
def onStreamClosed (identify : IdentifyProtocol) (peerId : PeerId) (streamId : StreamId) :
    IdentifyProtocol :=
  match identify.peers[peerId]? with
  | none => identify
  | some state =>
    let state : PeerIdentifyState :=
      { outboundStream :=
          if state.outboundStream = some streamId then none else state.outboundStream
        inboundStreams := state.inboundStreams.erase streamId }
    -- a peer without streams is dropped
    if state.outboundStream.isNone ∧ state.inboundStreams.isEmpty then
      { identify with peers := identify.peers.erase peerId }
    else identify.setPeer peerId state

/-- Removes all state for a peer. -/
def removePeer (identify : IdentifyProtocol) (peerId : PeerId) : IdentifyProtocol :=
  { identify with peers := identify.peers.erase peerId }

/-- Re-keys all state for `oldPeerId` to `newPeerId`. -/
def migratePeer (identify : IdentifyProtocol) (oldPeerId newPeerId : PeerId) : IdentifyProtocol :=
  if oldPeerId = newPeerId then identify
  else
    { identify with
      peers :=
        match identify.peers[oldPeerId]? with
        | some state => (identify.peers.erase oldPeerId).insert newPeerId state
        | none => identify.peers
      events := identify.events.map (IdentifyEvent.migrate oldPeerId newPeerId) }

/-- Buffers the actions of a call. -/
def extend (result : IdentifyProtocol × List IdentifyAction) :
    IdentifyProtocol × Except IdentifyError Unit :=
  (result.1.pushActions result.2, .ok ())

/-- Feeds one input into the machine. -/
def handleInput [MultihashCodec] (identify : IdentifyProtocol) :
    IdentifyInput → IdentifyProtocol × Except IdentifyError Unit
  | .registerOutboundStream peerId streamId observedAddr listenAddrs =>
    match identify.registerOutboundStream peerId streamId observedAddr listenAddrs with
    | (identify, .ok actions) => (identify.pushActions actions, .ok ())
    | (identify, .error e) => (identify, .error e)
  | .registerInboundStream peerId streamId =>
    (identify.registerInboundStream peerId streamId, .ok ())
  | .streamData peerId streamId data => extend (identify.onStreamData peerId streamId data)
  | .streamRemoteWriteClosed peerId streamId =>
    extend (identify.onStreamRemoteWriteClosed peerId streamId)
  | .streamClosed peerId streamId => (identify.onStreamClosed peerId streamId, .ok ())
  | .removePeer peerId => (identify.removePeer peerId, .ok ())
  | .migratePeer oldPeerId newPeerId => (identify.migratePeer oldPeerId newPeerId, .ok ())

/-- The next output: actions come before events. -/
def pollOutput (identify : IdentifyProtocol) : IdentifyProtocol × Option IdentifyOutput :=
  match identify.actions, identify.events with
  | action :: actions, _ => ({ identify with actions }, some (.action action))
  | [], event :: events => ({ identify with events }, some (.event event))
  | [], [] => (identify, none)

/-- What `poll_output` returns until it returns `None`, and the machine after that. -/
def drainOutputs (identify : IdentifyProtocol) : List IdentifyOutput × IdentifyProtocol :=
  -- actions come before events
  (identify.actions.map .action ++ identify.events.map .event,
    { identify with events := [], actions := [] })

/-- Draining is polling until nothing comes. -/
theorem drainOutputs_of_some {identify identify' : IdentifyProtocol} {output : IdentifyOutput}
    (h : identify.pollOutput = (identify', some output)) :
    identify.drainOutputs = (output :: identify'.drainOutputs.1, identify'.drainOutputs.2) := by
  obtain ⟨peers, events, actions, config⟩ := identify
  cases actions with
  | nil =>
    cases events with
    | nil => cases h
    | cons event events =>
      cases h
      rfl
  | cons action actions =>
    cases h
    rfl

/-- Nothing comes from a machine that has nothing queued, and it stays as it is. -/
theorem drainOutputs_of_none {identify identify' : IdentifyProtocol}
    (h : identify.pollOutput = (identify', none)) :
    identify.drainOutputs = ([], identify') ∧ identify' = identify := by
  obtain ⟨peers, events, actions, config⟩ := identify
  cases actions with
  | nil =>
    cases events with
    | nil =>
      cases h
      exact ⟨rfl, rfl⟩
    | cons event events => cases h
  | cons action actions => cases h

end IdentifyProtocol

end Minip2p.Identify
