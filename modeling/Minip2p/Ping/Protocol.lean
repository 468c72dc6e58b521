import Minip2p.Transport.Types

/-!
# Ping

The state machine of `crates/ping/src/lib.rs` for `/ipfs/ping/1.0.0`: one outbound stream a peer
on which we send payloads and time the echo, and up to two inbound streams a peer that we echo.
A call returns the machine after it; an input the machine rejects returns its error as well.
-/

namespace Minip2p.Ping

/-- The ping protocol identifier. -/
def pingProtocolId : String := "/ipfs/ping/1.0.0"

/-- Required ping payload size in bytes. -/
def pingPayloadLen : Nat := 32

/-- A `[u8; PING_PAYLOAD_LEN]`. -/
abbrev Payload := Vector UInt8 pingPayloadLen

/-- `u64::saturating_sub`. -/
def saturatingSub (a b : UInt64) : UInt64 := if a < b then 0 else a - b

/-- Configuration for the ping protocol. -/
structure PingConfig where
  requestTimeoutMs : UInt64
deriving DecidableEq, Repr

/-- `PingConfig::default()`. -/
instance : Inhabited PingConfig := ⟨⟨10000⟩⟩

/-- Commands the host must execute on behalf of the ping protocol. -/
inductive PingAction
  | send (peerId : PeerId) (streamId : StreamId) (data : Payload)
  | closeStreamWrite (peerId : PeerId) (streamId : StreamId)
  | resetStream (peerId : PeerId) (streamId : StreamId)
deriving DecidableEq, Repr

/-- Events emitted by the ping protocol. -/
inductive PingEvent
  | outboundStreamRegistered (peerId : PeerId) (streamId : StreamId)
  | inboundStreamAccepted (peerId : PeerId) (streamId : StreamId)
  | rttMeasured (peerId : PeerId) (streamId : StreamId) (rttMs : UInt64)
  | timeout (peerId : PeerId) (streamId : StreamId) (timeoutMs : UInt64)
  | outboundStreamClosed (peerId : PeerId) (streamId : StreamId)
  | streamLimitExceeded (peerId : PeerId) (streamId : StreamId) (limit : Nat)
  | protocolViolation (peerId : PeerId) (streamId : StreamId) (reason : String)
deriving DecidableEq, Repr

/-- Inputs accepted by `PingProtocol`. -/
inductive PingInput
  | registerOutboundStream (peerId : PeerId) (streamId : StreamId)
  | registerInboundStream (peerId : PeerId) (streamId : StreamId)
  | sendPing (peerId : PeerId) (payload : Payload) (nowMs : UInt64)
  | closeOutboundStreamWrite (peerId : PeerId)
  | streamData (peerId : PeerId) (streamId : StreamId) (data : Bytes) (nowMs : UInt64)
  | streamRemoteWriteClosed (peerId : PeerId) (streamId : StreamId)
  | streamClosed (peerId : PeerId) (streamId : StreamId)
  | removePeer (peerId : PeerId)
  | migratePeer (oldPeerId newPeerId : PeerId)
  | tick (nowMs : UInt64)
deriving DecidableEq, Repr

/-- Outputs produced by `PingProtocol`. -/
inductive PingOutput
  | action (action : PingAction)
  | event (event : PingEvent)
deriving DecidableEq, Repr

/-- Errors returned by ping protocol operations. -/
inductive PingError
  | outboundStreamExists (peerId : PeerId) (existingStream : StreamId)
  | outboundStreamMissing (peerId : PeerId)
  | pingAlreadyInFlight (peerId : PeerId) (streamId : StreamId)
  | invalidPayloadLength (actual : Nat)
deriving DecidableEq, Repr

/-- The `Display` text. -/
def PingError.display [MultihashCodec] : PingError → String
  | outboundStreamExists peerId existingStream =>
    s!"peer {peerId.toBase58} already has outbound ping stream {existingStream.display}"
  | outboundStreamMissing peerId => s!"peer {peerId.toBase58} has no outbound ping stream"
  | pingAlreadyInFlight peerId streamId =>
    s!"peer {peerId.toBase58} already has ping request in flight on stream {streamId.display}"
  | invalidPayloadLength actual =>
    s!"invalid ping payload length {actual}; expected {pingPayloadLen}"

/-- A ping request that has been sent and is awaiting a response. -/
structure PendingPing where
  payload : Payload
  sentAtMs : UInt64
deriving DecidableEq, Repr

/-- Per-peer state tracking for the ping protocol. -/
structure PeerPingState where
  outboundStream : Option StreamId := none
  inboundStreams : BTreeSet StreamId := ∅
  pendingPing : Option PendingPing := none
  recvBufs : BTreeMap StreamId Bytes := ∅
deriving DecidableEq, Inhabited

/-- The ping protocol state machine. -/
structure PingProtocol where
  peers : BTreeMap PeerId PeerPingState
  pendingEvents : List PingEvent
  pendingActions : List PingAction
  config : PingConfig
deriving DecidableEq

/-- An event under another peer id, if it names `old`. -/
def PingEvent.migrate (old new : PeerId) : PingEvent → PingEvent
  | outboundStreamRegistered peerId s =>
    outboundStreamRegistered (if peerId = old then new else peerId) s
  | inboundStreamAccepted peerId s => inboundStreamAccepted (if peerId = old then new else peerId) s
  | rttMeasured peerId s rttMs => rttMeasured (if peerId = old then new else peerId) s rttMs
  | timeout peerId s timeoutMs => timeout (if peerId = old then new else peerId) s timeoutMs
  | outboundStreamClosed peerId s => outboundStreamClosed (if peerId = old then new else peerId) s
  | streamLimitExceeded peerId s limit =>
    streamLimitExceeded (if peerId = old then new else peerId) s limit
  | protocolViolation peerId s reason =>
    protocolViolation (if peerId = old then new else peerId) s reason

namespace PingProtocol

/-- Creates a new ping protocol instance. -/
def new (config : PingConfig) : PingProtocol := ⟨∅, [], [], config⟩

/-- `self.peers.entry(peer_id).or_default()`. -/
def peerState (ping : PingProtocol) (peerId : PeerId) : PeerPingState :=
  ping.peers[peerId]?.getD default

/-- Stores the state of a peer. -/
def setPeer (ping : PingProtocol) (peerId : PeerId) (peer : PeerPingState) : PingProtocol :=
  { ping with peers := ping.peers.insert peerId peer }

/-- Buffers an event. -/
def pushEvent (ping : PingProtocol) (event : PingEvent) : PingProtocol :=
  { ping with pendingEvents := ping.pendingEvents ++ [event] }

/-- Buffers actions. -/
def pushActions (ping : PingProtocol) (actions : List PingAction) : PingProtocol :=
  { ping with pendingActions := ping.pendingActions ++ actions }

/-- Emits a `ProtocolViolation` event and returns a `ResetStream` action. -/
def protocolViolation (ping : PingProtocol) (peerId : PeerId) (streamId : StreamId)
    (reason : String) : PingProtocol × List PingAction :=
  (ping.pushEvent (.protocolViolation peerId streamId reason), [.resetStream peerId streamId])

/-- Registers a negotiated outbound stream for a peer. -/
def registerOutboundStream (ping : PingProtocol) (peerId : PeerId) (streamId : StreamId) :
    PingProtocol × Except PingError Unit :=
  let peer := ping.peerState peerId
  match peer.outboundStream with
  | some existing =>
    -- registering the same stream again is not an error
    if existing ≠ streamId then
      (ping.setPeer peerId peer, .error (.outboundStreamExists peerId existing))
    else (ping.setPeer peerId peer, .ok ())
  | none =>
    let ping := ping.setPeer peerId { peer with outboundStream := some streamId }
    (ping.pushEvent (.outboundStreamRegistered peerId streamId), .ok ())

/-- Returns the negotiated outbound ping stream for `peerId`, if any. -/
def outboundStream (ping : PingProtocol) (peerId : PeerId) : Option StreamId :=
  ping.peers[peerId]?.bind (·.outboundStream)

/-- Registers a negotiated inbound stream from a peer. -/
def registerInboundStream (ping : PingProtocol) (peerId : PeerId) (streamId : StreamId) :
    PingProtocol × List PingAction :=
  let peer := ping.peerState peerId
  if peer.inboundStreams.contains streamId then (ping.setPeer peerId peer, [])
  else if peer.inboundStreams.size ≥ 2 then
    let ping := ping.setPeer peerId peer
    (ping.pushEvent (.streamLimitExceeded peerId streamId 2), [.resetStream peerId streamId])
  else
    let ping :=
      ping.setPeer peerId { peer with inboundStreams := peer.inboundStreams.insert streamId }
    (ping.pushEvent (.inboundStreamAccepted peerId streamId), [])

/-- Sends a ping with the given payload. Returns the action to execute. -/
def sendPing (ping : PingProtocol) (peerId : PeerId) (payload : Bytes) (nowMs : UInt64) :
    PingProtocol × Except PingError PingAction :=
  if h : payload.length = pingPayloadLen then
    match ping.peers[peerId]? with
    | none => (ping, .error (.outboundStreamMissing peerId))
    | some peer =>
      match peer.outboundStream with
      | none => (ping, .error (.outboundStreamMissing peerId))
      | some streamId =>
        if peer.pendingPing.isSome then (ping, .error (.pingAlreadyInFlight peerId streamId))
        else
          let frame : Payload := ⟨payload.toArray, h⟩
          (ping.setPeer peerId { peer with pendingPing := some ⟨frame, nowMs⟩ },
            .ok (.send peerId streamId frame))
  else (ping, .error (.invalidPayloadLength payload.length))

/-- Half-closes the outbound stream. Fails if a ping is in flight. -/
def closeOutboundStreamWrite (ping : PingProtocol) (peerId : PeerId) :
    Except PingError PingAction :=
  match ping.peers[peerId]? with
  | none => .error (.outboundStreamMissing peerId)
  | some peer =>
    match peer.outboundStream with
    | none => .error (.outboundStreamMissing peerId)
    | some streamId =>
      if peer.pendingPing.isSome then .error (.pingAlreadyInFlight peerId streamId)
      else .ok (.closeStreamWrite peerId streamId)

/-- Handles a fully buffered payload on either an outbound or inbound stream. -/
def processCompletePayload (ping : PingProtocol) (peerId : PeerId) (peer : PeerPingState)
    (streamId : StreamId) (payload : Payload) (nowMs : UInt64) :
    PingProtocol × List PingAction :=
  if peer.outboundStream = some streamId then
    -- the request is taken before the response is looked at
    let taken := ping.setPeer peerId { peer with pendingPing := none }
    match peer.pendingPing with
    | none =>
      taken.protocolViolation peerId streamId "received ping response with no in-flight request"
    | some pending =>
      if pending.payload ≠ payload then
        taken.protocolViolation peerId streamId "ping response payload mismatch"
      else
        let rttMs := saturatingSub nowMs pending.sentAtMs
        (taken.pushEvent (.rttMeasured peerId streamId rttMs), [])
  else if peer.inboundStreams.contains streamId then (ping, [.send peerId streamId payload])
  else (ping, [])

/-- Feeds received stream data into the protocol. Returns actions to execute. -/
def onStreamData (ping : PingProtocol) (peerId : PeerId) (streamId : StreamId) (data : Bytes)
    (nowMs : UInt64) : PingProtocol × List PingAction :=
  match ping.peers[peerId]? with
  | none => ping.protocolViolation peerId streamId "ping data on unknown stream"
  | some peer =>
    if peer.outboundStream ≠ some streamId ∧ ¬ peer.inboundStreams.contains streamId then
      ping.protocolViolation peerId streamId "ping data on unknown stream"
    else
      let buf := peer.recvBufs[streamId]?.getD [] ++ data
      -- the buffer goes in every case but the short one
      let dropped := { peer with recvBufs := peer.recvBufs.erase streamId }
      if hgt : buf.length > pingPayloadLen then
        (ping.setPeer peerId dropped).protocolViolation peerId streamId
          s!"recv buffer {buf.length} bytes exceeds payload size {pingPayloadLen}"
      else if hlt : buf.length < pingPayloadLen then
        (ping.setPeer peerId { peer with recvBufs := peer.recvBufs.insert streamId buf }, [])
      else
        -- exactly one payload: extract it and drop the buffer
        let payload : Payload := ⟨buf.toArray, by rw [List.size_toArray]; omega⟩
        (ping.setPeer peerId dropped).processCompletePayload peerId dropped streamId payload nowMs

/-- Notifies the protocol that the remote peer closed its write side. -/
def onStreamRemoteWriteClosed (ping : PingProtocol) (peerId : PeerId) (streamId : StreamId) :
    PingProtocol × List PingAction :=
  match ping.peers[peerId]? with
  | none => (ping, [])
  | some peer =>
    if peer.inboundStreams.contains streamId then
      (ping.setPeer peerId { peer with
        inboundStreams := peer.inboundStreams.erase streamId
        recvBufs := peer.recvBufs.erase streamId }, [])
    else if peer.outboundStream = some streamId then
      let ping := ping.setPeer peerId { peer with
        outboundStream := none
        pendingPing := none
        recvBufs := peer.recvBufs.erase streamId }
      if peer.pendingPing.isSome then
        ping.protocolViolation peerId streamId "outbound stream closed before ping response"
      else (ping.pushEvent (.outboundStreamClosed peerId streamId), [])
    else (ping, [])

/-- Notifies the protocol that a stream was fully closed. -/
def onStreamClosed (ping : PingProtocol) (peerId : PeerId) (streamId : StreamId) : PingProtocol :=
  match ping.peers[peerId]? with
  | none => ping
  | some peer =>
    let peer := { peer with
      inboundStreams := peer.inboundStreams.erase streamId
      recvBufs := peer.recvBufs.erase streamId }
    if peer.outboundStream = some streamId then
      ping.setPeer peerId { peer with outboundStream := none, pendingPing := none }
    else ping.setPeer peerId peer

/-- Removes all state for a peer. -/
def removePeer (ping : PingProtocol) (peerId : PeerId) : PingProtocol :=
  { ping with peers := ping.peers.erase peerId }

/-- Re-keys all state for `oldPeerId` to `newPeerId`. -/
def migratePeer (ping : PingProtocol) (oldPeerId newPeerId : PeerId) : PingProtocol :=
  if oldPeerId = newPeerId then ping
  else
    { ping with
      peers :=
        match ping.peers[oldPeerId]? with
        | some state => (ping.peers.erase oldPeerId).insert newPeerId state
        | none => ping.peers
      pendingEvents := ping.pendingEvents.map (PingEvent.migrate oldPeerId newPeerId) }

/-- One turn of the loop of `on_tick`: the peer of `entry` and the machine so far. -/
def tickPeer (nowMs : UInt64) (state : PingProtocol × List PingAction)
    (entry : PeerId × PeerPingState) : PingProtocol × List PingAction :=
  let (ping, actions) := state
  let (peerId, peer) := entry
  match peer.outboundStream, peer.pendingPing with
  | some streamId, some pending =>
    let elapsed := saturatingSub nowMs pending.sentAtMs
    if elapsed > ping.config.requestTimeoutMs then
      let ping := ping.setPeer peerId { peer with
        outboundStream := none
        pendingPing := none
        recvBufs := peer.recvBufs.erase streamId }
      -- a timeout gives the stream up, and says so after the timeout
      let ping := ping.pushEvent (.timeout peerId streamId ping.config.requestTimeoutMs)
      let ping := ping.pushEvent (.outboundStreamClosed peerId streamId)
      (ping, actions ++ [.resetStream peerId streamId])
    else (ping, actions)
  | _, _ => (ping, actions)

/-- Checks for timed-out ping requests. -/
def onTick (ping : PingProtocol) (nowMs : UInt64) : PingProtocol × List PingAction :=
  ping.peers.toList.foldl (tickPeer nowMs) (ping, [])

/-- Buffers the actions of a call. -/
def extend (result : PingProtocol × List PingAction) : PingProtocol × Except PingError Unit :=
  (result.1.pushActions result.2, .ok ())

/-- Feeds one input into the machine. -/
def handleInput (ping : PingProtocol) : PingInput → PingProtocol × Except PingError Unit
  | .registerOutboundStream peerId streamId => ping.registerOutboundStream peerId streamId
  | .registerInboundStream peerId streamId => extend (ping.registerInboundStream peerId streamId)
  | .sendPing peerId payload nowMs =>
    match ping.sendPing peerId payload.toList nowMs with
    | (ping, .ok action) => (ping.pushActions [action], .ok ())
    | (ping, .error e) => (ping, .error e)
  | .closeOutboundStreamWrite peerId =>
    match ping.closeOutboundStreamWrite peerId with
    | .ok action => (ping.pushActions [action], .ok ())
    | .error e => (ping, .error e)
  | .streamData peerId streamId data nowMs =>
    extend (ping.onStreamData peerId streamId data nowMs)
  | .streamRemoteWriteClosed peerId streamId =>
    extend (ping.onStreamRemoteWriteClosed peerId streamId)
  | .streamClosed peerId streamId => (ping.onStreamClosed peerId streamId, .ok ())
  | .removePeer peerId => (ping.removePeer peerId, .ok ())
  | .migratePeer oldPeerId newPeerId => (ping.migratePeer oldPeerId newPeerId, .ok ())
  | .tick nowMs => extend (ping.onTick nowMs)

/-- Hands out the next output, the actions before the events. -/
def pollOutput (ping : PingProtocol) : PingProtocol × Option PingOutput :=
  match ping.pendingActions with
  | action :: actions => ({ ping with pendingActions := actions }, some (.action action))
  | [] =>
    match ping.pendingEvents with
    | [] => (ping, none)
    | event :: events => ({ ping with pendingEvents := events }, some (.event event))

/-- What `poll_output` returns until it returns `None`, and the machine after that. -/
def drainOutputs (ping : PingProtocol) : List PingOutput × PingProtocol :=
  (ping.pendingActions.map .action ++ ping.pendingEvents.map .event,
    { ping with pendingEvents := [], pendingActions := [] })

/-- Draining is polling until nothing comes. -/
theorem drainOutputs_of_some {ping ping' : PingProtocol} {output : PingOutput}
    (h : ping.pollOutput = (ping', some output)) :
    ping.drainOutputs = (output :: ping'.drainOutputs.1, ping'.drainOutputs.2) := by
  obtain ⟨peers, events, actions, config⟩ := ping
  cases actions with
  | nil =>
    cases events with
    | nil => cases h
    | cons event events =>
      cases h
      rfl
  | cons action actions =>
    cases h
    rfl

theorem drainOutputs_of_none {ping ping' : PingProtocol} (h : ping.pollOutput = (ping', none)) :
    ping.drainOutputs = ([], ping') := by
  obtain ⟨peers, events, actions, config⟩ := ping
  cases actions with
  | nil =>
    cases events with
    | nil =>
      cases h
      rfl
    | cons event events => cases h
  | cons action actions => cases h

end PingProtocol

end Minip2p.Ping
