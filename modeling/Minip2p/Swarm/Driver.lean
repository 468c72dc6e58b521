import Minip2p.Core.PeerAddr
import Minip2p.Swarm.Session

/-!
# The driver

`Swarm` of `crates/swarm/src/driver.rs`, as `Driver`: it owns a transport and a `SwarmCore`, feeds
the one's events to the other and carries out the actions the core asks for. The transport, the
clocks and the random payloads are oracles over a world `W`, so a transport may answer anything at
any time.

The loops that drain the core run on fuel. `SwarmCore.load` of the core is enough for them: every
turn lowers it. `poll_next` and `run_until` may wait for ever; their result is `none` when they
have not returned within their fuel.
-/

namespace Minip2p.Swarm

open Ping (Payload)

/-- The `Transport` trait, as oracles over a world. -/
structure Transport (W : Type) where
  dial : PeerAddr → W → Except TransportError ConnectionId × W
  listen : Multiaddr → W → Except TransportError Multiaddr × W
  openStream : ConnectionId → W → Except TransportError StreamId × W
  sendStream : ConnectionId → StreamId → Bytes → W → Except TransportError Unit × W
  closeStreamWrite : ConnectionId → StreamId → W → Except TransportError Unit × W
  resetStream : ConnectionId → StreamId → W → Except TransportError Unit × W
  close : ConnectionId → W → Except TransportError Unit × W
  poll : W → Except TransportError (List TransportEvent) × W
  localAddresses : W → List Multiaddr × W

/-- A transport with what else the driver asks the system for. -/
structure Platform (W : Type) extends Transport W where
  /-- `Clock::now_ms`. -/
  nowMs : W → UInt64 × W
  randPingPayload : W → Payload × W
  /-- `Instant::now`. -/
  instantNow : W → Nat × W
  /-- `std::thread::sleep(POLL_IDLE_SLEEP)`. -/
  sleep : W → W

/-- The driver and its world. `calls` is not a field of the source: it records the calls made on
the core so far. -/
structure Driver (W : Type) where
  world : W
  core : SwarmCore
  localPeerId : PeerId
  /-- Events that were drained from the core and not handed out yet. -/
  eventBuffer : List SwarmEvent
  calls : List Call

/-- Bridges a `SwarmError` to the driver's public error type. -/
def swarmToTransportError [MultihashCodec] : SwarmError → TransportError
  | .notConnected peerId => .pollError s!"peer {peerId.toBase58} is not connected"
  | .protocolNotRegistered protocolId =>
    .invalidConfig s!"protocol '{protocolId}' is not registered; call add_user_protocol first"
  | .remoteDoesNotSupport peerId protocolId =>
    .pollError s!"peer {peerId.toBase58} does not support protocol '{protocolId}'"
  | .userStreamNotFound peerId streamId =>
    .pollError s!"user stream {streamId.display} for peer {peerId.toBase58} is not active"
  | .pingError reason => .pollError s!"ping error: {reason}"
  | .identifyError reason => .pollError s!"identify error: {reason}"

/-- The report of an action that the transport refused. -/
def runtimeError (kind : SwarmErrorKind) (connId : Option ConnectionId) (detail : String) :
    SwarmRuntimeError where
  kind := kind
  peerId := none
  connId := connId
  detail := detail

namespace SwarmAction

/-- How many turns of a drain an action can take: its own, that of a report, and for an open
request that of the header it leads to. -/
def load : SwarmAction → Nat
  | openStream _ _ => 3
  | _ => 2

end SwarmAction

namespace SwarmCore

/-- No action and no event is queued. -/
def isIdle (core : SwarmCore) : Bool := core.actions.isEmpty && core.events.isEmpty

/-- A bound on the turns it takes to drain the core. -/
def load (core : SwarmCore) : Nat := (core.actions.map SwarmAction.load).sum + core.events.length

end SwarmCore

namespace Driver

variable {W : Type}

/-- Creates a driver around a world. -/
def new (identifyConfig : Identify.IdentifyConfig) (pingConfig : Ping.PingConfig)
    (localPeerId : PeerId) (world : W) : Driver W where
  world := world
  core := SwarmCore.new identifyConfig pingConfig
  localPeerId := localPeerId
  eventBuffer := []
  calls := []

/-- Takes the oldest event of the buffer. -/
def popFront (driver : Driver W) : Option SwarmEvent × Driver W :=
  (driver.eventBuffer.head?, { driver with eventBuffer := driver.eventBuffer.tail })

/-- Asks the world. -/
def ask {α : Type} (driver : Driver W) (question : W → α × W) : α × Driver W :=
  ((question driver.world).1, { driver with world := (question driver.world).2 })

variable (platform : Platform W)

/-! ## Addresses and dials -/

/-- Asks the transport to listen. -/
def listen (driver : Driver W) (addr : Multiaddr) : Except TransportError Multiaddr × Driver W :=
  driver.ask (platform.listen addr)

/-- Listens on an address and pairs what came of it with our own peer id. -/
def listenAsPeer (driver : Driver W) (addr : Multiaddr) :
    Except TransportError PeerAddr × Driver W :=
  match driver.listen platform addr with
  | (.error e, driver) => (.error e, driver)
  | (.ok addr, driver) =>
    match PeerAddr.new addr driver.localPeerId with
    | .error e => (.error (.invalidConfig s!"failed to build local PeerAddr: {e.display}"), driver)
    | .ok peerAddr => (.ok peerAddr, driver)

/-- The loop of `listen_on_bound_addrs`. -/
def listenOnAddrs : List Multiaddr → Driver W → List PeerAddr →
    Except TransportError (List PeerAddr) × Driver W
  | [], driver, resolved => (.ok resolved, driver)
  | addr :: addrs, driver, resolved =>
    match driver.listenAsPeer platform addr with
    | (.error e, driver) => (.error e, driver)
    | (.ok peerAddr, driver) => listenOnAddrs addrs driver (resolved ++ [peerAddr])

/-- The error when the transport does not say where it is bound. -/
def notBound : TransportError := .invalidConfig "transport does not expose a bound local address"

/-- Listens on all of the transport's bound addresses. -/
def listenOnBoundAddrs (driver : Driver W) : Except TransportError (List PeerAddr) × Driver W :=
  let (addrs, driver) := driver.ask platform.localAddresses
  if addrs.isEmpty then (.error notBound, driver) else listenOnAddrs platform addrs driver []

/-- Listens on the first of the transport's bound addresses. -/
def listenOnBoundAddr (driver : Driver W) : Except TransportError PeerAddr × Driver W :=
  match driver.ask platform.localAddresses with
  | ([], driver) => (.error notBound, driver)
  | (addr :: _, driver) => driver.listenAsPeer platform addr

/-- Dials a peer. The core keeps no record of a dial. -/
def dial (driver : Driver W) (addr : PeerAddr) : Except TransportError ConnectionId × Driver W :=
  driver.ask (platform.dial addr)

/-! ## Actions -/

variable [Sha256] [MultihashCodec]

/-- Makes a call on the core. -/
def onCore (driver : Driver W) (call : Call) : Driver W :=
  { driver with core := step driver.core call, calls := driver.calls ++ [call] }

/-- Reports an action that the transport refused. -/
def reportRefused (driver : Driver W) (connId : ConnectionId) (result : Except TransportError Unit)
    (detail : TransportError → String) : Driver W :=
  match result with
  | .ok () => driver
  | .error e =>
    driver.onCore (.input (.runtimeError (runtimeError .transport (some connId) (detail e))))

/-- Executes a single action against the transport and feeds any result back into the core. -/
def dispatchAction (driver : Driver W) (action : SwarmAction) (captured : Option StreamId) :
    Driver W × Option StreamId :=
  match action with
  | .openStream connId token =>
    match driver.ask (platform.openStream connId) with
    | (.ok streamId, driver) =>
      let (nowMs, driver) := driver.ask platform.nowMs
      (driver.onCore (.input (.streamOpened connId streamId token nowMs)), some streamId)
    | (.error e, driver) =>
      let (nowMs, driver) := driver.ask platform.nowMs
      (driver.onCore (.input (.openStreamFailed token e.display nowMs)), captured)
  | .sendStream connId streamId data =>
    let (result, driver) := driver.ask (platform.sendStream connId streamId data)
    (driver.reportRefused connId result fun e =>
      s!"send_stream to connection {connId.display} stream {streamId.display} failed: {e.display}",
      captured)
  | .closeStreamWrite connId streamId =>
    let (result, driver) := driver.ask (platform.closeStreamWrite connId streamId)
    (driver.reportRefused connId result fun e =>
      s!"close_stream_write on connection {connId.display} stream {streamId.display} failed: " ++
        e.display, captured)
  | .resetStream connId streamId =>
    let (result, driver) := driver.ask (platform.resetStream connId streamId)
    (driver.reportRefused connId result fun e =>
      s!"reset_stream on connection {connId.display} stream {streamId.display} failed: " ++
        e.display, captured)
  | .closeConnection connId =>
    let (result, driver) := driver.ask (platform.close connId)
    (driver.reportRefused connId result fun e =>
      s!"close on connection {connId.display} failed: {e.display}", captured)

/-- The loop `while let Some(output) = self.core.poll_output()`: actions are executed, events go to
the end of `queue`. -/
def drainGo : Nat → Driver W → Option StreamId → List SwarmEvent →
    Driver W × Option StreamId × List SwarmEvent
  | 0, driver, captured, queue => (driver, captured, queue)
  | fuel + 1, driver, captured, queue =>
    match driver.core.pollOutput.2 with
    | none => (driver, captured, queue)
    | some (.action action) =>
      let (driver, captured) := dispatchAction platform (driver.onCore .pollOutput) action captured
      drainGo fuel driver captured queue
    | some (.event event) => drainGo fuel (driver.onCore .pollOutput) captured (queue ++ [event])

/-- Hands the actions of the core to the transport until nothing is left to poll, and puts the
events behind `queue`. -/
def drain (driver : Driver W) (queue : List SwarmEvent) :
    Driver W × Option StreamId × List SwarmEvent :=
  drainGo platform driver.core.load driver none queue

/-- The drain that leaves the events in the buffer, with the stream id it captured. -/
def drainToBuffer (driver : Driver W) : Driver W × Option StreamId :=
  let (driver, captured, queue) := driver.drain platform driver.eventBuffer
  ({ driver with eventBuffer := queue }, captured)

/-- Drains all actions from the core and dispatches each to the transport. -/
def flushActions (driver : Driver W) : Driver W := (driver.drainToBuffer platform).1

/-- Registers a user protocol id. -/
def addUserProtocol (driver : Driver W) (protocolId : String) : Driver W :=
  driver.onCore (.addUserProtocol protocolId)

/-! ## Requests -/

/-- The end of a request that the core answered with `result`: a refusal is returned, and otherwise
its actions are carried out. -/
def request (driver : Driver W) (call : Call) (result : Except SwarmError Unit) :
    Except TransportError Unit × Driver W :=
  let driver := driver.onCore call
  match result with
  | .error e => (.error (swarmToTransportError e), driver)
  | .ok () => (.ok (), driver.flushActions platform)

/-- Pings a peer with a random payload. -/
def ping (driver : Driver W) (peerId : PeerId) : Except TransportError Unit × Driver W :=
  let (payload, driver) := driver.ask platform.randPingPayload
  let (nowMs, driver) := driver.ask platform.nowMs
  driver.request platform (.ping peerId payload nowMs) (driver.core.pingPeer peerId payload nowMs).2

/-- Closes the connection to a peer. -/
def disconnect (driver : Driver W) (peerId : PeerId) : Except TransportError Unit × Driver W :=
  driver.request platform (.disconnect peerId) (driver.core.disconnect peerId).2

/-- Sends raw bytes on a negotiated user stream. -/
def sendUserStream (driver : Driver W) (peerId : PeerId) (streamId : StreamId) (data : Bytes) :
    Except TransportError Unit × Driver W :=
  driver.request platform (.sendUserStream peerId streamId data)
    (driver.core.sendUserStream peerId streamId data).2

/-- Half-closes the write side of a user stream. -/
def closeUserStreamWrite (driver : Driver W) (peerId : PeerId) (streamId : StreamId) :
    Except TransportError Unit × Driver W :=
  driver.request platform (.closeUserStreamWrite peerId streamId)
    (driver.core.closeUserStreamWrite peerId streamId).2

/-- Resets a user stream. -/
def resetUserStream (driver : Driver W) (peerId : PeerId) (streamId : StreamId) :
    Except TransportError Unit × Driver W :=
  driver.request platform (.resetUserStream peerId streamId)
    (driver.core.resetUserStream peerId streamId).2

/-- Opens a stream for a user protocol and returns its id. -/
def openUserStream (driver : Driver W) (peerId : PeerId) (protocolId : String) :
    Except TransportError StreamId × Driver W :=
  let result := (driver.core.openUserStream peerId protocolId).2
  let driver := driver.onCore (.openUserStream peerId protocolId)
  match result with
  | .error e => (.error (swarmToTransportError e), driver)
  | .ok () =>
    let (driver, allocated) := driver.drainToBuffer platform
    let driver := driver.flushActions platform
    match allocated with
    | some streamId => (.ok streamId, driver)
    | none =>
      (.error (.pollError "core did not allocate a stream id for open_user_stream"), driver)

/-! ## Polling -/

/-- Feeds the events of the transport to the core. -/
def feedEvents (driver : Driver W) (events : List TransportEvent) (nowMs : UInt64) : Driver W :=
  events.foldl (fun driver event => driver.onCore (.input (.transport event nowMs))) driver

/-- Takes the buffered events and those the core still has. -/
def takeEvents (driver : Driver W) : Driver W × List SwarmEvent :=
  let (emptied, _, events) := { driver with eventBuffer := [] }.drain platform driver.eventBuffer
  (emptied, events)

/-- Polls the transport, feeds its events to the core, carries out the actions and returns the
events for the application. -/
def poll (driver : Driver W) : Except TransportError (List SwarmEvent) × Driver W :=
  let (nowMs, driver) := driver.ask platform.nowMs
  let (addrs, driver) := driver.ask platform.localAddresses
  let driver := driver.onCore (.setLocalAddresses addrs)
  match driver.ask platform.poll with
  | (.error e, driver) => (.error e, driver)
  | (.ok events, driver) =>
    let driver := (driver.feedEvents events nowMs).onCore (.input (.tick nowMs))
    let (driver, events) := (driver.flushActions platform).takeEvents platform
    (.ok events, driver)

/-- Returns the next event, or `None` when the deadline passes first. -/
def pollNext (deadline : Nat) :
    Nat → Driver W → Option (Except TransportError (Option SwarmEvent) × Driver W)
  | 0, _ => none
  | fuel + 1, driver =>
    match driver.popFront with
    | (some event, driver) => some (.ok (some event), driver)
    | (none, driver) =>
      -- the transport is polled at least once, even after the deadline
      match driver.poll platform with
      | (.error e, driver) => some (.error e, driver)
      | (.ok events, driver) =>
        match { driver with eventBuffer := driver.eventBuffer ++ events }.popFront with
        | (some event, driver) => some (.ok (some event), driver)
        | (none, driver) =>
          let (now, driver) := driver.ask platform.instantNow
          if now ≥ deadline then some (.ok none, driver)
          else pollNext deadline fuel { driver with world := platform.sleep driver.world }

/-- The loop of `run_until`; `seen` are the events the predicate was shown so far. The predicate may
keep a state of its own in the world. -/
def runUntilGo (deadline : Nat) (predicate : SwarmEvent → W → Bool × W) (fuel : Nat) :
    Nat → Driver W → List SwarmEvent →
      Option (Except TransportError (Option SwarmEvent) × Driver W × List SwarmEvent)
  | 0, _, _ => none
  | turns + 1, driver, seen =>
    match pollNext platform deadline fuel driver with
    | none => none
    | some (.error e, driver) => some (.error e, driver, seen)
    | some (.ok none, driver) => some (.ok none, driver, seen)
    | some (.ok (some event), driver) =>
      let (found, driver) := driver.ask (predicate event)
      if found then some (.ok (some event), driver, seen ++ [event])
      else runUntilGo deadline predicate fuel turns driver (seen ++ [event])

/-- Polls events until the predicate holds of one. -/
def runUntil (deadline : Nat) (predicate : SwarmEvent → W → Bool × W) (fuel : Nat)
    (driver : Driver W) :
    Option (Except TransportError (Option SwarmEvent) × Driver W × List SwarmEvent) :=
  runUntilGo platform deadline predicate fuel fuel driver []

end Driver

/-! ## Runs -/

/-- The event that `poll_next` returned. -/
def returnedEvent : Except TransportError (Option SwarmEvent) → List SwarmEvent
  | .ok event => event.toList
  | .error _ => []

/-- A public call on the driver. -/
inductive DriverCall (W : Type)
  | transportMut (use : W → W)
  | addUserProtocol (protocolId : String)
  | listen (addr : Multiaddr)
  | listenOnBoundAddrs
  | listenOnBoundAddr
  | dial (addr : PeerAddr)
  | onDialed (id : ConnectionId)
  | ping (peerId : PeerId)
  | disconnect (peerId : PeerId)
  | openUserStream (peerId : PeerId) (protocolId : String)
  | sendUserStream (peerId : PeerId) (streamId : StreamId) (data : Bytes)
  | closeUserStreamWrite (peerId : PeerId) (streamId : StreamId)
  | resetUserStream (peerId : PeerId) (streamId : StreamId)
  | poll
  | pollNext (deadline : Nat)
  | runUntil (deadline : Nat) (predicate : SwarmEvent → W → Bool × W)

namespace Driver

variable {W : Type} [Sha256] [MultihashCodec] (platform : Platform W) (fuel : Nat)

/-- The events a call hands to the application, and the driver after it. -/
def perform (driver : Driver W) : DriverCall W → Option (List SwarmEvent × Driver W)
  | .transportMut use => some ([], { driver with world := use driver.world })
  | .addUserProtocol protocolId => some ([], driver.addUserProtocol protocolId)
  | .listen addr => some ([], (driver.listen platform addr).2)
  | .listenOnBoundAddrs => some ([], (driver.listenOnBoundAddrs platform).2)
  | .listenOnBoundAddr => some ([], (driver.listenOnBoundAddr platform).2)
  | .dial addr => some ([], (driver.dial platform addr).2)
  -- the core keeps no record of a dial
  | .onDialed _ => some ([], driver)
  | .ping peerId => some ([], (driver.ping platform peerId).2)
  | .disconnect peerId => some ([], (driver.disconnect platform peerId).2)
  | .openUserStream peerId protocolId =>
    some ([], (driver.openUserStream platform peerId protocolId).2)
  | .sendUserStream peerId streamId data =>
    some ([], (driver.sendUserStream platform peerId streamId data).2)
  | .closeUserStreamWrite peerId streamId =>
    some ([], (driver.closeUserStreamWrite platform peerId streamId).2)
  | .resetUserStream peerId streamId =>
    some ([], (driver.resetUserStream platform peerId streamId).2)
  | .poll =>
    match driver.poll platform with
    | (.ok events, driver) => some (events, driver)
    | (.error _, driver) => some ([], driver)
  | .pollNext deadline =>
    (pollNext platform deadline fuel driver).map fun p => (returnedEvent p.1, p.2)
  -- the predicate is shown every event that it does not return
  | .runUntil deadline predicate =>
    (runUntil platform deadline predicate fuel driver).map fun p => (p.2.2, p.2.1)

/-- A sequence of calls, with all the events they handed to the application. -/
def drive (driver : Driver W) : List (DriverCall W) → Option (List SwarmEvent × Driver W)
  | [] => some ([], driver)
  | call :: calls =>
    match driver.perform platform fuel call with
    | none => none
    | some (events, driver) => (drive driver calls).map fun p => (events ++ p.1, p.2)

end Driver

end Minip2p.Swarm
