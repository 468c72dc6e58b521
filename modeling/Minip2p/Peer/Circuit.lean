import Minip2p.Dcutr.Flows
import Minip2p.Peer.Script
import Minip2p.Relay.Flows

/-!
# Hole punching over a relay

Steps 2 to 4 of `run_dial` and steps 4 and 5 of `run_listen`: the dialer asks the relay for a
circuit, offers its addresses over it and sends SYNC once it has those of the listener; the listener
accepts the circuit, answers the offer with its own addresses and waits for SYNC. What either of
them returns are the addresses it dials.
-/

namespace Minip2p

/-! ## Texts -/

/-- The `Display` text. -/
def Relay.RelayMessageError.display : Relay.RelayMessageError → String
  | .varint error => s!"varint error: {error.display}"
  | .fieldOverflow offset length remaining =>
    s!"field at offset {offset} claims length {length} but only {remaining} bytes remain"
  | .unsupportedWireType wireType offset =>
    s!"unsupported wire type {wireType} at offset {offset}"
  | .missingType => "required `type` field missing"
  | .invalidMessageType value => s!"invalid message type value: {value}"

/-- The `Display` text. -/
def Relay.RelayError.display : Relay.RelayError → String
  | .messageTooLarge len =>
    s!"relay message exceeds maximum size ({len} > {Relay.maxMessageSize})"
  | .malformed error => s!"malformed relay message: {error.display}"
  | .unexpectedMessage reason => s!"unexpected message: {reason}"

/-- The `Debug` text. -/
def Relay.Status.debug : Relay.Status → String
  | .unused => "Unused"
  | .ok => "Ok"
  | .reservationRefused => "ReservationRefused"
  | .resourceLimitExceeded => "ResourceLimitExceeded"
  | .permissionDenied => "PermissionDenied"
  | .connectionFailed => "ConnectionFailed"
  | .noReservation => "NoReservation"
  | .malformedMessage => "MalformedMessage"
  | .unexpectedMessage => "UnexpectedMessage"

/-- The `Display` text. -/
def Dcutr.DcutrMessageError.display : Dcutr.DcutrMessageError → String
  | .varint error => s!"varint error: {error.display}"
  | .fieldOverflow offset length remaining =>
    s!"field at offset {offset} claims length {length} but only {remaining} bytes remain"
  | .unsupportedWireType wireType offset =>
    s!"unsupported wire type {wireType} at offset {offset}"
  | .missingType => "required `type` field missing"
  | .invalidType value => s!"invalid HolePunch type value: {value}"

/-- The `Display` text. -/
def Dcutr.DcutrError.display : Dcutr.DcutrError → String
  | .messageTooLarge len =>
    s!"DCUtR message exceeds maximum size ({len} > {Dcutr.maxMessageSize})"
  | .malformed error => s!"malformed DCUtR message: {error.display}"
  | .unexpectedMessage reason => s!"unexpected message: {reason}"

/-- The flow has come to its end. -/
def Dcutr.DcutrResponder.isDone (flow : Dcutr.DcutrResponder) : Bool := flow.state = .done

namespace Peer

open Prog
open Relay (HopConnect HopConnectOutput ConnectOutcome StopResponder StopResponderOutput
  StopConnectRequest)
open Dcutr (DcutrInitiator DcutrInitiatorOutput InitiatorOutcome DcutrResponder
  DcutrResponderOutput ResponderEvent)
open SansIoProtocol (handleInput pollOutput)

/-! ## The relay flows -/

/-- The bytes a connection attempt has for the relay. -/
def hopConnectFlush (flow : HopConnect) : Script (HopConnect × Bytes) :=
  flushWith .flush (fun | .outbound bytes => some bytes | _ => none) flow

/-- Bytes of the relay, and the outcome if they have brought it. -/
def hopConnectFeed (flow : HopConnect) (data : Bytes) :
    Script (HopConnect × Option ConnectOutcome) :=
  feed (fun e => s!"HOP decode: {e.display}") (fun | .outcome outcome => some outcome | _ => none)
    flow (.data data)

/-- What came behind the answer of the relay. -/
def hopConnectBridgeBytes (flow : HopConnect) : Bytes :=
  (pollFor (fun | .bridgeData bytes => some bytes | _ => none) flow).2.getD []

/-- Bytes of the relay, and the request if they have brought it. -/
def stopFeed (flow : StopResponder) (data : Bytes) :
    Script (StopResponder × Option StopConnectRequest) :=
  feed (fun e => s!"STOP decode: {e.display}") (fun | .request request => some request | _ => none)
    flow (.data data)

/-- Accepts the circuit; returns the bytes of the answer. -/
def stopAcceptFlush (flow : StopResponder) : Script (StopResponder × Bytes) := do
  let (flow, bytes) ← feed (fun e => s!"STOP accept: {e.display}")
    (fun | .outbound bytes => some bytes | _ => none) flow .accept
  return (flow, bytes.getD [])

/-- What came behind the request. -/
def stopBridgeBytes (flow : StopResponder) : Bytes :=
  (pollFor (fun | .bridgeData bytes => some bytes | _ => none) flow).2.getD []

/-! ## The DCUtR flows -/

variable [MultihashCodec]

/-- The bytes an initiator has for the remote. -/
def dcutrInitiatorFlush (flow : DcutrInitiator) : Script (DcutrInitiator × Bytes) :=
  flushWith .flush (fun | .outbound bytes => some bytes | _ => none) flow

/-- Bytes of the remote, and the outcome if they have brought it. -/
def dcutrInitiatorFeed (flow : DcutrInitiator) (bytes : Bytes) (rttMs : UInt64) :
    Script (DcutrInitiator × Option InitiatorOutcome) :=
  feed (fun e => s!"DCUtR decode: {e.display}") (fun | .outcome outcome => some outcome | _ => none)
    flow (.data bytes rttMs)

/-- Asks for the SYNC; returns its bytes. -/
def dcutrInitiatorSendSyncFlush (flow : DcutrInitiator) : Script (DcutrInitiator × Bytes) := do
  let flow ← give (fun e => s!"DCUtR send_sync: {e.display}") flow .sendSync
  dcutrInitiatorFlush flow

/-- Bytes of the remote. -/
def dcutrResponderFeed (flow : DcutrResponder) (data : Bytes) : Script DcutrResponder :=
  give (fun e => s!"DCUtR decode: {e.display}") flow (.data data)

/-- The addresses of the last CONNECT are kept. -/
def handleDcutrResponderEvent (captured : Option (List Multiaddr)) :
    ResponderEvent → Option (List Multiaddr)
  | .connectReceived remoteAddrs _ => some remoteAddrs
  | .syncReceived => captured

/-- The loop of `drain_dcutr_responder_outputs`. -/
def drainGo : ℕ → DcutrResponder → Option (List Multiaddr) → Bytes →
    Script (DcutrResponder × Option (List Multiaddr) × Bytes)
  | 0, _, _, _ => diverge
  | fuel + 1, flow, captured, outbound =>
    match pollOutput flow with
    | (flow, none) => return (flow, captured, outbound)
    | (flow, some (.outbound bytes)) => drainGo fuel flow captured (outbound ++ bytes)
    | (flow, some (.event event)) =>
      drainGo fuel flow (handleDcutrResponderEvent captured event) outbound

/-- Polls the responder until it has nothing left: its reply at first, then one event a poll. -/
def drainDcutrResponderOutputs (flow : DcutrResponder) (captured : Option (List Multiaddr)) :
    Script (DcutrResponder × Option (List Multiaddr) × Bytes) :=
  drainGo (flow.events.length + 2) flow captured []

/-! ## The dialer -/

/-- Step 2: HOP CONNECT to the target through the relay. Returns the bytes behind its answer. -/
def connectThroughRelay (target : PeerId) (stream : StreamId) : Script Bytes := do
  let (hop, request) ← hopConnectFlush (HopConnect.new target.toBytes)
  send request
  let (hop, outcome) ← awaitOutcome stream hopConnectFeed hop
  match outcome with
  | .refused status reason =>
    throw s!"relay refused CONNECT: status={status.debug} reason={reason}"
  | .bridged _ => return hopConnectBridgeBytes hop

/-- Feeds the initiator the bytes that came with the relay's answer, if any. -/
def feedPipelined (flow : DcutrInitiator) (bridgeBytes : Bytes) :
    Script (DcutrInitiator × Option InitiatorOutcome) :=
  if bridgeBytes.isEmpty then return (flow, none) else dcutrInitiatorFeed flow bridgeBytes 0

/-- Step 3: DCUtR initiator over the bridge. -/
def initiateDcutr (ourObserved : List Multiaddr) (stream : StreamId) (bridgeBytes : Bytes) :
    Script (DcutrInitiator × InitiatorOutcome) := do
  let sentAt ← now
  let (dcutr, offer) ← dcutrInitiatorFlush (DcutrInitiator.new ourObserved)
  send offer
  let (dcutr, pending) ← feedPipelined dcutr bridgeBytes
  match pending with
  | some outcome => return (dcutr, outcome)
  | none =>
    awaitOutcome stream (fun dcutr data => do dcutrInitiatorFeed dcutr data (← elapsedMs sentAt))
      dcutr

/-- Steps 2 to 4 of `run_dial`, up to the dials: the addresses of the listener and the round-trip
time. -/
def runDial (target : PeerId) (ourObserved : List Multiaddr) (stream : StreamId) :
    Script (List Multiaddr × UInt64) := do
  let bridgeBytes ← connectThroughRelay target stream
  let (dcutr, .dialNow remoteAddrs _ rttMs) ← initiateDcutr ourObserved stream bridgeBytes
  let (_, sync) ← dcutrInitiatorSendSyncFlush dcutr
  send sync
  return (remoteAddrs, rttMs)

/-! ## The listener -/

/-- Step 4: STOP responder. Returns the dialer's peer id and the bytes behind the CONNECT. -/
def acceptCircuit (stream : StreamId) : Script (PeerId × Bytes) := do
  let (stop, request) ← awaitOutcome stream stopFeed StopResponder.new
  match PeerId.fromBytes request.sourcePeerId with
  | .error e => throw s!"bad STOP source peer id: {e.display}"
  | .ok remotePeerId =>
    let (stop, status) ← stopAcceptFlush stop
    send status
    return (remotePeerId, stopBridgeBytes stop)

/-- One turn of the responder's loop. -/
def respondTurn (stream : StreamId) (standing : DcutrResponder × Option (List Multiaddr)) :
    Script (DcutrResponder × Option (List Multiaddr) ⊕ List Multiaddr) := do
  if standing.1.isDone then return .inr (standing.2.getD [])
  else
    let data ← waitUserStreamData stream
    let dcutr ← dcutrResponderFeed standing.1 data
    let (dcutr, captured, outbound) ← drainDcutrResponderOutputs dcutr standing.2
    send outbound
    if dcutr.isDone then return .inr (captured.getD []) else return .inl (dcutr, captured)

/-- Feeds the responder the bytes that came with the STOP CONNECT, if any. -/
def respondPipelined (flow : DcutrResponder) (bridgeBytes : Bytes) : Script DcutrResponder :=
  if bridgeBytes.isEmpty then return flow else dcutrResponderFeed flow bridgeBytes

/-- Step 5: DCUtR responder over the same stream. -/
def respondDcutr (ourObserved : List Multiaddr) (stream : StreamId) (bridgeBytes : Bytes) :
    Script (List Multiaddr) := do
  let dcutr ← respondPipelined (DcutrResponder.new ourObserved) bridgeBytes
  let (dcutr, captured, outbound) ← drainDcutrResponderOutputs dcutr none
  send outbound
  let circuit ← get
  -- a turn that goes on has taken an arrival
  iterate (respondTurn stream) (circuit.arrivals.length + 1) (dcutr, captured)

/-- Steps 4 and 5 of `run_listen`: the dialer's peer id and its addresses. -/
def runListen (ourObserved : List Multiaddr) (stream : StreamId) :
    Script (PeerId × List Multiaddr) := do
  let (remotePeerId, bridgeBytes) ← acceptCircuit stream
  let remoteAddrs ← respondDcutr ourObserved stream bridgeBytes
  return (remotePeerId, remoteAddrs)

end Peer

end Minip2p
