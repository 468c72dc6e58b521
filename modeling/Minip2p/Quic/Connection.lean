import Minip2p.Lib.Hoare
import Minip2p.Transport.Types

/-!
# A QUIC connection of the transport adapter

`QuicConnection` of `transports/quic/src/connection.rs`. quiche, the UDP socket and the iteration
order of the `HashMap` are not part of the repository: `Quiche W` gives the answer to each call as
an arbitrary function of a world `W`, which every call may change. `SendInfo` goes from quiche to
the socket untouched and is part of the world, as is the packet's `RecvInfo`.

A method is a program over a `Session`: the connection, the world and the vector of events the
caller hands in. The loops take a bound on their turns; a call that exceeds it does not return.
-/

namespace Minip2p.Quic

/-- A quiche error: `Done`, or another one with its `Display` text. -/
inductive QuicheError
  | done
  | other (text : String)
deriving DecidableEq, Repr

/-- The `Display` text. -/
def QuicheError.display : QuicheError → String
  | done => "Done"
  | other text => text

/-- A direction of `stream_shutdown`. -/
inductive Shutdown
  | write
  | read
deriving DecidableEq, Repr

/-- quiche, the socket and the map's iteration order, as oracles over a world. -/
structure Quiche (W : Type) where
  recv : Bytes → W → Except QuicheError Unit × W
  isEstablished : W → Bool × W
  isServer : W → Bool × W
  peerCert : W → Option Bytes × W
  close : Nat → String → W → Except QuicheError Unit × W
  readable : W → List UInt64 × W
  streamRecv : UInt64 → W → Except QuicheError (Bytes × Bool) × W
  streamSend : UInt64 → Bytes → Bool → W → Except QuicheError Nat × W
  streamShutdown : UInt64 → Shutdown → W → Except QuicheError Unit × W
  send : W → Except QuicheError Bytes × W
  sendTo : Bytes → W → Except String Unit × W
  keyOrder : List UInt64 → W → List UInt64 × W
  keyOrder_perm : ∀ keys w, (keyOrder keys w).1.Perm keys

/-- A queued write operation for a QUIC stream. -/
structure PendingStreamWrite where
  bytes : Bytes
  offset : Nat
  fin : Bool
deriving DecidableEq, Repr

/-- Per-stream bookkeeping for half-close tracking and pending writes. -/
structure StreamRuntimeState where
  pendingWrites : List PendingStreamWrite
  localWriteClosed : Bool
  remoteWriteClosed : Bool
  incomingNotified : Bool
  closedNotified : Bool
deriving DecidableEq, Repr

namespace StreamRuntimeState

/-- A stream that is open on both sides. -/
def default : StreamRuntimeState := ⟨[], false, false, false, false⟩

/-- Both sides have closed their write side. -/
def isFullyClosed (state : StreamRuntimeState) : Bool :=
  state.localWriteClosed && state.remoteWriteClosed

end StreamRuntimeState

/-- The adapter's own state of a connection; quiche's is in the world. -/
structure QuicConnection where
  id : ConnectionId
  endpoint : ConnectionEndpoint
  state : ConnectionState
  streamStates : BTreeMap UInt64 StreamRuntimeState
  nextLocalBidiStreamId : UInt64

/-- What a method works on. `peerCerts` records the certificates that were verified. -/
structure Session (W : Type) where
  world : W
  conn : QuicConnection
  events : List TransportEvent
  peerCerts : List Bytes

/-- A method of the connection. -/
abbrev Method (W α : Type) := Prog (Session W) TransportError α

variable {W : Type}

namespace Session

/-- The session in another world. -/
def setWorld (s : Session W) (world : W) : Session W := { s with world }

/-- The session in another connection state. -/
def setState (s : Session W) (state : ConnectionState) : Session W :=
  { s with conn := { s.conn with state } }

/-- The session with another state of a stream. -/
def setStream (s : Session W) (raw : UInt64) (state : StreamRuntimeState) : Session W :=
  { s with conn := { s.conn with streamStates := s.conn.streamStates.insert raw state } }

/-- The session with another peer id. -/
def setPeerId (s : Session W) (peerId : PeerId) : Session W :=
  { s with conn := { s.conn with endpoint := { s.conn.endpoint with peerId := some peerId } } }

/-- The session with one more certificate read. -/
def recordCert (s : Session W) (der : Bytes) : Session W :=
  { s with peerCerts := s.peerCerts ++ [der] }

/-- The session with another next stream id. -/
def setNextStreamId (s : Session W) (raw : UInt64) : Session W :=
  { s with conn := { s.conn with nextLocalBidiStreamId := raw } }

/-- Removes stream state entries that are fully closed and drained. -/
def gcStreams (s : Session W) : Session W :=
  { s with conn := { s.conn with
    streamStates := s.conn.streamStates.filter fun _ state =>
      !(state.closedNotified && state.pendingWrites.isEmpty) } }

/-- The session with one more event. -/
def push (s : Session W) (event : TransportEvent) : Session W :=
  { s with events := s.events ++ [event] }

end Session

/-- One call of quiche or the socket. -/
def call {α : Type} (op : W → α × W) : Method W α :=
  modifyGet fun s => ((op s.world).1, s.setWorld (op s.world).2)

/-- `events.push(event)`. -/
def pushEvent (event : TransportEvent) : Method W Unit := modify (·.push event)

/-- Sets the connection state. -/
def setState (state : ConnectionState) : Method W Unit := modify (·.setState state)

/-- Writes back the state of a stream. -/
def setStream (raw : UInt64) (state : StreamRuntimeState) : Method W Unit :=
  modify (·.setStream raw state)

section Methods

variable (q : Quiche W) (fuel : Nat)

/-! ## Helpers -/

/-- Emits StreamClosed if both sides are closed and not yet notified. -/
def noteStreamClosedIfFinished (raw : UInt64) : Method W Unit := do
  let s ← get
  match s.conn.streamStates[raw]? with
  | none => return ()
  | some state =>
    if state.isFullyClosed && !state.closedNotified then
      setStream raw { state with closedNotified := true }
      pushEvent (.streamClosed s.conn.id ⟨raw⟩)

/-- Checks if a stream id was initiated by this side (QUIC parity bit check). -/
def isLocalInitiatedStream (raw : UInt64) : Method W Bool := do
  let isServer ← call q.isServer
  return (raw &&& 0x1) == (if isServer then 1 else 0)

/-- Sends all pending quiche output packets via the UDP socket. -/
def flushGo : Nat → Method W Unit
  | 0 => Prog.diverge
  | fuel + 1 => do
    let s ← get
    match ← call q.send with
    | .error .done => return ()
    | .error (.other e) => throw (.closeFailed s.conn.id s!"quiche send error: {e}")
    | .ok packet =>
      match ← call (q.sendTo packet) with
      | .error e => throw (.closeFailed s.conn.id s!"udp send error: {e}")
      | .ok () => flushGo fuel

/-- Sends what quiche has to send. -/
def flush : Method W Unit := flushGo q fuel

/-- The queue after quiche took `written` bytes of its front; `none` when quiche took nothing of
a data write. -/
def advanceWrites (pending : PendingStreamWrite) (rest : List PendingStreamWrite)
    (written : Nat) : Option (List PendingStreamWrite) :=
  if pending.fin && pending.bytes.isEmpty then some rest
  else if written = 0 then none
  else
    -- `saturating_add` of a `usize`
    let offset := min (pending.offset + written) (2 ^ 64 - 1)
    if offset ≥ pending.bytes.length then some rest
    else some ({ pending with offset } :: rest)

/-- The loop over the queued writes of one stream. -/
def drainStreamGo (raw : UInt64) : Nat → Method W Unit
  | 0 => Prog.diverge
  | fuel + 1 => do
    let s ← get
    match s.conn.streamStates[raw]? with
    | none => return ()
    | some state =>
      match state.pendingWrites with
      | [] => return ()
      | pending :: rest =>
        let payload := pending.bytes.drop pending.offset
        -- the FIN goes out alone, never with data
        let fin := pending.fin && payload.isEmpty
        match ← call (q.streamSend raw payload fin) with
        | .error .done => return ()
        | .error (.other e) =>
          throw (.streamSendFailed s.conn.id ⟨raw⟩ s!"stream_send error: {e}")
        | .ok written =>
          match advanceWrites pending rest written with
          | none => return ()
          | some pendingWrites =>
            setStream raw { state with pendingWrites }
            noteStreamClosedIfFinished raw
            drainStreamGo raw fuel

/-- Pushes queued stream writes into quiche, handling partial writes. -/
def drainSendQueue : Method W Unit := do
  let s ← get
  -- the keys are collected in the order of the `HashMap`
  let streamIds ← call (q.keyOrder s.conn.streamStates.keys)
  streamIds.forM fun raw => drainStreamGo q raw fuel

/-- Drains the send queues, then flushes. -/
def drainAndFlush : Method W Unit := do
  drainSendQueue q fuel
  flush q fuel

/-- Emits IncomingStream for remote-initiated streams not yet notified. -/
def ensureStreamDiscovered (raw : UInt64) : Method W Unit := do
  let isLocal ← isLocalInitiatedStream q raw
  let s ← get
  let state := (s.conn.streamStates[raw]?).getD .default
  if !isLocal && !state.incomingNotified then
    setStream raw { state with incomingNotified := true }
    pushEvent (.incomingStream s.conn.id ⟨raw⟩)
  -- `entry(..).or_default()` makes the entry even when nothing is reported
  else setStream raw state

/-- Forgets the streams that were reported as closed and have nothing left to write. -/
def gcClosedStreams : Method W Unit := modify (·.gcStreams)

/-- Returns the stream state, creating it for locally-initiated streams. -/
def getOrCreateLocalStreamState (streamId : StreamId) : Method W StreamRuntimeState := do
  let s ← get
  match s.conn.streamStates[streamId.asU64]? with
  | some state => return state
  | none =>
    if ← isLocalInitiatedStream q streamId.asU64 then
      setStream streamId.asU64 .default
      return .default
    else throw (.streamNotFound s.conn.id streamId)

/-! ## Methods -/

/-- The end of a connection whose peer failed the identity check. -/
def rejectPeer (message : String) (code : Nat) (reason : String) : Method W Unit := do
  let s ← get
  pushEvent (.error s.conn.id message)
  -- the result of the close is ignored
  let _ ← call (q.close code reason)
  setState .closing
  flush q fuel

/-- Records a certificate that `verify_libp2p_certificate` is called on. -/
def recordCert (der : Bytes) : Method W Unit := modify (·.recordCert der)

/-- Sets the peer id of the endpoint. -/
def setPeerId (peerId : PeerId) : Method W Unit := modify (·.setPeerId peerId)

variable [MultihashCodec] (verifyLibp2pCertificate : Bytes → Except String PeerId)

/-- The identity check of `recv_packet`, up to the Connected event. -/
def verifyPeer : Method W Unit := do
  match ← call q.peerCert with
  | none => rejectPeer q fuel "peer TLS certificate missing" 0x03 "peer certificate missing"
  | some der =>
    recordCert der
    match verifyLibp2pCertificate der with
    | .error e =>
      rejectPeer q fuel s!"peer TLS certificate verification failed: {e}" 0x02
        "certificate verification failed"
    | .ok verifiedPeerId =>
      let s ← get
      match s.conn.endpoint.peerId with
      | some expected =>
        if expected ≠ verifiedPeerId then
          rejectPeer q fuel
            (s!"peer id mismatch: dialed {expected.toBase58} " ++
              s!"but server certificate proves {verifiedPeerId.toBase58}")
            0x01 "peer id mismatch"
        else
          -- the endpoint gets its peer right before Connected reports it
          setPeerId verifiedPeerId
          let s ← get
          pushEvent (.connected s.conn.id s.conn.endpoint)
      | none =>
        setPeerId verifiedPeerId
        let s ← get
        pushEvent (.connected s.conn.id s.conn.endpoint)

/-- Whether the handshake has completed since the last packet. -/
def handshakeCompleted : Method W Bool := do
  let s ← get
  -- quiche is not asked once the connection has left Connecting
  if s.conn.state = .connecting then call q.isEstablished else return false

/-- Feeds a packet to quiche, and does what follows from it. -/
def recvPacket (buf : Bytes) : Method W Unit := do
  match ← call (q.recv buf) with
  | .error (.other e) =>
    let s ← get
    pushEvent (.error s.conn.id s!"recv error: {e}")
  | _ =>
    if ← handshakeCompleted q then
      -- the state is Connected before the certificate has been looked at
      setState .connected
      drainAndFlush q fuel
      verifyPeer q fuel verifyLibp2pCertificate
    else drainAndFlush q fuel

omit [MultihashCodec]

/-- Opens a bidirectional stream. -/
def openStream : Method W StreamId := do
  let s ← get
  if s.conn.state ≠ .connected then
    throw (.invalidState s.conn.id s.conn.state .connected)
  else
    let raw := s.conn.nextLocalBidiStreamId
    -- the counter advances, wrapping, before the id is known to be free
    modify (·.setNextStreamId (raw + 4))
    if s.conn.streamStates.contains raw then throw (.streamExists s.conn.id ⟨raw⟩)
    else
      setStream raw .default
      return ⟨raw⟩

/-- Queues data on a stream and sends what can be sent. -/
def sendStream (streamId : StreamId) (data : Bytes) : Method W Unit := do
  if data.isEmpty then return ()
  else
    let state ← getOrCreateLocalStreamState q streamId
    let s ← get
    if state.localWriteClosed then
      throw (.streamSendFailed s.conn.id streamId "local stream write side is already closed")
    else
      setStream streamId.asU64 { state with
        pendingWrites := state.pendingWrites ++ [⟨data, 0, false⟩] }
      drainAndFlush q fuel

/-- Ends the local side of a stream behind what is queued. -/
def closeStreamWrite (streamId : StreamId) : Method W Unit := do
  let state ← getOrCreateLocalStreamState q streamId
  let s ← get
  if state.localWriteClosed then
    throw (.streamCloseWriteFailed s.conn.id streamId "local stream write side is already closed")
  else
    setStream streamId.asU64 { state with
      localWriteClosed := true, pendingWrites := state.pendingWrites ++ [⟨[], 0, true⟩] }
    drainAndFlush q fuel

/-- One `stream_shutdown` of `reset_stream`; `side` names the direction in the error. -/
def shutdownStream (streamId : StreamId) (direction : Shutdown) (side : String) :
    Method W Unit := do
  let s ← get
  match ← call (q.streamShutdown streamId.asU64 direction) with
  | .ok () => return ()
  | .error e =>
    throw (.streamResetFailed s.conn.id streamId
      s!"failed to shutdown stream {side} side: {e.display}")

/-- Shuts a stream down on both sides. -/
def resetStream (streamId : StreamId) : Method W Unit := do
  let s ← get
  match s.conn.streamStates[streamId.asU64]? with
  | none => throw (.streamNotFound s.conn.id streamId)
  | some state =>
    shutdownStream q streamId .write "write"
    shutdownStream q streamId .read "read"
    setStream streamId.asU64 { state with
      localWriteClosed := true, remoteWriteClosed := true, closedNotified := true }
    if !state.closedNotified then pushEvent (.streamClosed s.conn.id streamId)

/-- Closes the connection; what its drain reports is dropped. -/
def close : Method W Unit := do
  let s ← get
  match ← call (q.close 0x00 "bye") with
  | .error (.other e) => throw (.closeFailed s.conn.id s!"close error: {e}")
  | _ =>
    setState .closing
    let drained ← Prog.attempt (drainSendQueue q fuel)
    -- the source drains into a vector of its own that nobody reads
    modify fun s' => { s' with events := s.events }
    match drained with
    | .error e => throw e
    | .ok () => flush q fuel

/-- Emits StreamData for the bytes of one read, if there are any. -/
def reportData (raw : UInt64) (data : Bytes) : Method W Unit := do
  let s ← get
  if data.isEmpty then return () else pushEvent (.streamData s.conn.id ⟨raw⟩ data)

/-- Records and reports that the remote side of a stream has ended. -/
def markRemoteWriteClosed (raw : UInt64) : Method W Unit := do
  let s ← get
  match s.conn.streamStates[raw]? with
  | none => return ()
  | some state => setStream raw { state with remoteWriteClosed := true }

/-- The read that carried the remote's FIN. -/
def finishRead (raw : UInt64) : Method W Unit := do
  markRemoteWriteClosed raw
  let s ← get
  pushEvent (.streamRemoteWriteClosed s.conn.id ⟨raw⟩)
  noteStreamClosedIfFinished raw

/-- The receive loop of one readable stream. -/
def pollStreamGo (raw : UInt64) : Nat → Method W Unit
  | 0 => Prog.diverge
  | fuel + 1 => do
    match ← call (q.streamRecv raw) with
    | .error .done => return ()
    | .error (.other e) =>
      let s ← get
      pushEvent (.error s.conn.id
        s!"stream_recv error on {(StreamId.mk raw).display}: {e}")
    | .ok (data, fin) =>
      reportData raw data
      if fin then finishRead raw else pollStreamGo raw fuel

/-- Discovers and reads one readable stream. -/
def pollStream (raw : UInt64) : Method W Unit := do
  ensureStreamDiscovered q raw
  pollStreamGo q raw fuel

/-- Reads the streams that are readable, and sends what can be sent. -/
def pollStreams : Method W Unit := do
  if ← call q.isEstablished then
    let readable ← call q.readable
    readable.forM (pollStream q fuel)
    drainAndFlush q fuel
    gcClosedStreams
  else return ()

end Methods

/-! ## Runs -/

/-- A connection as `new` makes it. `dialed` is the peer id of the dialed address, if any. -/
def new (q : Quiche W) (id : ConnectionId) (transport : Multiaddr) (dialed : Option PeerId)
    (world : W) : Session W where
  world := (q.isServer world).2
  conn :=
    { id
      endpoint := ⟨transport, dialed⟩
      state := .connecting
      streamStates := ∅
      nextLocalBidiStreamId := if (q.isServer world).1 then 1 else 0 }
  events := []
  peerCerts := []

/-- A call on a connection. -/
inductive Call
  | recvPacket (buf : Bytes)
  | pollStreams
  | openStream
  | sendStream (streamId : StreamId) (data : Bytes)
  | closeStreamWrite (streamId : StreamId)
  | resetStream (streamId : StreamId)
  | close
deriving DecidableEq, Repr

/-- The method a call runs; the caller's use of what it returns is not part of the run. -/
def Call.method [MultihashCodec] (q : Quiche W) (fuel : Nat)
    (verifyLibp2pCertificate : Bytes → Except String PeerId) : Call → Method W Unit
  | .recvPacket buf => Quic.recvPacket q fuel verifyLibp2pCertificate buf
  | .pollStreams => Quic.pollStreams q fuel
  | .openStream => do
    let _ ← Quic.openStream
  | .sendStream streamId data => Quic.sendStream q fuel streamId data
  | .closeStreamWrite streamId => Quic.closeStreamWrite q fuel streamId
  | .resetStream streamId => Quic.resetStream q streamId
  | .close => Quic.close q fuel

/-- A sequence of calls; a call that fails leaves its session to the next one. -/
def run [MultihashCodec] (q : Quiche W) (fuel : Nat)
    (verifyLibp2pCertificate : Bytes → Except String PeerId) (s : Session W) :
    List Call → Option (Session W)
  | [] => some s
  | call :: calls =>
    match Prog.exec (call.method q fuel verifyLibp2pCertificate) s with
    | none => none
    | some (_, s) => run q fuel verifyLibp2pCertificate s calls

/-- `guard` holds of the session before each call of the run. -/
def GuardedRun [MultihashCodec] (q : Quiche W) (fuel : Nat)
    (verifyLibp2pCertificate : Bytes → Except String PeerId) (guard : Session W → Call → Prop)
    (s : Session W) : List Call → Prop
  | [] => True
  | call :: calls => guard s call ∧
    ∀ r s', Prog.exec (call.method q fuel verifyLibp2pCertificate) s = some (r, s') →
      GuardedRun q fuel verifyLibp2pCertificate guard s' calls

/-- An invariant that every guarded call keeps holds at the end of every guarded run. -/
theorem run_invariant [MultihashCodec] {q : Quiche W} {fuel : Nat}
    {verifyLibp2pCertificate : Bytes → Except String PeerId} {guard : Session W → Call → Prop}
    {I : Session W → Prop}
    (hstep : ∀ s call r s', I s → guard s call →
      Prog.exec (call.method q fuel verifyLibp2pCertificate) s = some (r, s') → I s')
    {s s' : Session W} {calls : List Call} (hs : I s)
    (hguard : GuardedRun q fuel verifyLibp2pCertificate guard s calls)
    (hrun : run q fuel verifyLibp2pCertificate s calls = some s') : I s' := by
  induction calls generalizing s with
  | nil =>
    cases hrun
    exact hs
  | cons call calls ih =>
    obtain ⟨hcall, hrest⟩ := hguard
    rw [run] at hrun
    split at hrun
    · cases hrun
    · next r s₁ hexec => exact ih (hstep s call r s₁ hs hcall hexec) (hrest r s₁ hexec) hrun

/-! ## A small setting for concrete runs -/

/-- quiche on an established connection with a fixed answer to each call: the peer's certificate,
the next packet to send and the readable streams are given, streams take and yield nothing. -/
def constQuiche (cert : Option Bytes) (packet : Except QuicheError Bytes)
    (readable : List UInt64) : Quiche Unit where
  recv _ w := (.ok (), w)
  isEstablished w := (true, w)
  isServer w := (false, w)
  peerCert w := (cert, w)
  close _ _ w := (.ok (), w)
  readable w := (readable, w)
  streamRecv _ w := (.error .done, w)
  streamSend _ _ _ w := (.error .done, w)
  streamShutdown _ _ w := (.ok (), w)
  send w := (packet, w)
  sendTo _ w := (.ok (), w)
  keyOrder keys w := (keys, w)
  keyOrder_perm _ _ := List.Perm.refl _

theorem somePeer_digest_le : ([8, 1] : Bytes).length ≤ 64 := by decide

theorem otherPeer_digest_le : ([8, 2] : Bytes).length ≤ 64 := by decide

/-- A peer with an inlined key. -/
def somePeer : PeerId := ⟨⟨identityMultihashCode, [0x08, 0x01], somePeer_digest_le⟩⟩

/-- A peer that is not `somePeer`. -/
def otherPeer : PeerId := ⟨⟨identityMultihashCode, [0x08, 0x02], otherPeer_digest_le⟩⟩

/-- A dialed connection. -/
def dialedConnection (q : Quiche Unit) : Session Unit :=
  new q ⟨1⟩ ⟨[.quicV1]⟩ (some somePeer) ()

/-- A peer with a certificate; quiche has nothing to send. -/
def quietQuiche : Quiche Unit := constQuiche (some []) (.error .done) []

end Minip2p.Quic
