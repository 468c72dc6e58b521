import Minip2p.Core.SansIo
import Minip2p.Autonat.Message

/-!
# AutoNAT flows

The client and the server of `crates/autonat/src/lib.rs`. The client sends a DIAL and waits for
the result; the server hands the request to its host and sends what the host answers. Either takes
one frame at a time from the front of its receive buffer, and drains it even if it cannot be
decoded.
-/

namespace Minip2p.Autonat

/-- What a flow finds at the front of its receive buffer. -/
inductive Received
  | incomplete
  | failed (error : AutoNatError)
  | framed (decoded : Except AutoNatError Message) (recvBuf : Bytes)

/-- What `try_decode_response` and `try_decode_request` begin with: `enforce_max_size`,
`decode_frame`, the message decoder and the `drain` of the frame. -/
def receive (recvBuf : Bytes) : Exec Received := do
  if recvBuf.length > maxMessageSize then return .failed (.messageTooLarge recvBuf.length)
  else
    match ← decodeFrame recvBuf with
    | .incomplete => return .incomplete
    | .tooLarge len => return .failed (.frameTooLarge len)
    | .error e => return .failed (.varint e)
    | .complete payload consumed =>
      let decoded ← (Message.decode payload).run
      let recvBuf ← Exec.drain recvBuf consumed
      return .framed decoded recvBuf

variable [MultihashCodec]

/-- Decodes address bytes, dropping the entries that fail. -/
def decodeAddrs (raw : List Bytes) : Exec (List Multiaddr) :=
  raw.filterMapM fun bytes => do return (← (Multiaddr.fromBytes bytes).run).toOption

/-! ## AutoNatClient -/

/-- Reachability result emitted by the client. -/
inductive Reachability
  | isPublic (addrs : List Multiaddr) (rawAddrs : List Bytes)
  | isPrivate (status : ResponseStatus) (reason : String)
  | isUnknown (status : ResponseStatus) (reason : String)
deriving DecidableEq, Repr

/-- What the driver gives to a client. -/
inductive AutoNatClientInput
  | flush
  | data (bytes : Bytes)
deriving DecidableEq, Repr

/-- What a client gives to its driver. -/
inductive AutoNatClientOutput
  | outbound (bytes : Bytes)
  | outcome (outcome : Reachability)
deriving DecidableEq, Repr

/-- Where a client is. -/
inductive FlowState
  | pending
  | awaitingResponse
  | done
deriving DecidableEq, Repr

/-- Client-side AutoNAT probe. -/
structure AutoNatClient where
  outbound : Bytes
  recvBuf : Bytes
  state : FlowState
  outcome : Option Reachability
  emittedOutcome : Bool
deriving DecidableEq, Repr

namespace AutoNatClient

/-- Queues a DIAL request. -/
def new (peerId : PeerId) (addrs : List Multiaddr) : AutoNatClient :=
  let peer : PeerInfo := ⟨peerId.toBytes, addrs.map Multiaddr.toBytes⟩
  let msg : Message := ⟨.dial, some ⟨some peer⟩, none⟩
  ⟨encodeFrame msg.encode, [], .pending, none, false⟩

/-- Drains the pending outbound bytes. -/
def takeOutbound (flow : AutoNatClient) : AutoNatClient × Bytes :=
  let state := if flow.state = .pending then .awaitingResponse else flow.state
  ({ flow with state, outbound := [] }, flow.outbound)

/-- The outcome that a response reports. -/
def outcomeOf (response : DialResponse) : Exec Reachability := do
  let reason := response.statusText.getD ""
  match response.status with
  | .ok => return .isPublic (← decodeAddrs response.addrs) response.addrs
  | .dialError | .dialRefused => return .isPrivate response.status reason
  | .badRequest | .internalError => return .isUnknown response.status reason

/-- Reads the response, if all of it is there. -/
def tryDecodeResponse (flow : AutoNatClient) : Exec (AutoNatClient × Except AutoNatError Unit) := do
  match ← receive flow.recvBuf with
  | .incomplete => return (flow, .ok ())
  | .failed e => return (flow, .error e)
  | .framed decoded recvBuf =>
    let flow := { flow with recvBuf }
    match decoded with
    | .error e => return (flow, .error e)
    | .ok msg =>
      if msg.kind ≠ .dialResponse then
        return ({ flow with state := .done }, .error (.unexpectedMessage "expected DIAL_RESPONSE"))
      else
        match msg.dialResponse with
        | none => return (flow, .error (.missingField "dial_response"))
        | some response =>
          let outcome ← outcomeOf response
          return ({ flow with outcome := some outcome, state := .done }, .ok ())

/-- Feeds incoming bytes from the AutoNAT service stream. -/
def onData (flow : AutoNatClient) (data : Bytes) :
    Exec (AutoNatClient × Except AutoNatError Unit) :=
  if flow.state = .done then return (flow, .ok ())
  else tryDecodeResponse { flow with recvBuf := flow.recvBuf ++ data }

/-- One input of the driver. -/
def handleInput (flow : AutoNatClient) :
    AutoNatClientInput → Exec (AutoNatClient × Except AutoNatError Unit)
  | .flush => return (flow, .ok ())
  | .data bytes => flow.onData bytes

/-- The next output: the request first, then the outcome, once. -/
def pollOutput (flow : AutoNatClient) : AutoNatClient × Option AutoNatClientOutput :=
  let (flow, outbound) := flow.takeOutbound
  if !outbound.isEmpty then (flow, some (.outbound outbound))
  else
    match flow.emittedOutcome, flow.outcome with
    | false, some outcome => ({ flow with emittedOutcome := true }, some (.outcome outcome))
    | _, _ => (flow, none)

/-- Nothing is left to poll. -/
def isIdle (flow : AutoNatClient) : Bool :=
  flow.outbound.isEmpty && (flow.emittedOutcome || flow.outcome.isNone)

instance : SansIoProtocol AutoNatClient AutoNatClientInput AutoNatClientOutput AutoNatError :=
  ⟨handleInput, pollOutput⟩

end AutoNatClient

/-! ## AutoNatServer -/

/-- Dial-back request emitted by the server. -/
structure AutoNatRequest where
  peerId : PeerId
  addrs : List Multiaddr
  rawAddrs : List Bytes
deriving DecidableEq, Repr

/-- What the driver gives to a server. -/
inductive AutoNatServerInput
  | data (bytes : Bytes)
  | respondPublic (addrs : List Multiaddr)
  | respondError (status : ResponseStatus) (reason : String)
  | flush
deriving DecidableEq, Repr

/-- What a server gives to its driver. -/
inductive AutoNatServerOutput
  | request (request : AutoNatRequest)
  | outbound (bytes : Bytes)
deriving DecidableEq, Repr

/-- Where a server is. -/
inductive ServerState
  | awaitingRequest
  | requestReady
  | done
deriving DecidableEq, Repr

/-- Server-side AutoNAT request handler. -/
structure AutoNatServer where
  outbound : Bytes
  recvBuf : Bytes
  request : Option AutoNatRequest
  emittedRequest : Bool
  state : ServerState
deriving DecidableEq, Repr

namespace AutoNatServer

/-- Awaits one DIAL request. -/
def new : AutoNatServer := ⟨[], [], none, false, .awaitingRequest⟩

/-- The peer of a DIAL request. -/
def dialPeer (msg : Message) : Except AutoNatError PeerInfo :=
  match msg.dial with
  | none => .error (.missingField "dial")
  | some ⟨none⟩ => .error (.missingField "dial.peer")
  | some ⟨some peer⟩ => .ok peer

/-- The end of `tryDecodeRequest`, with the peer of the request. -/
def requestFrom (flow : AutoNatServer) (peer : PeerInfo) :
    Exec (AutoNatServer × Except AutoNatError Unit) :=
  match PeerId.fromBytes peer.id with
  | .error e => return (flow, .error (.invalidPeerId e.display))
  | .ok peerId => do
    let addrs ← decodeAddrs peer.addrs
    return ({ flow with
      request := some ⟨peerId, addrs, peer.addrs⟩
      emittedRequest := false
      state := .requestReady }, .ok ())

/-- Reads the request, if all of it is there. -/
def tryDecodeRequest (flow : AutoNatServer) : Exec (AutoNatServer × Except AutoNatError Unit) := do
  match ← receive flow.recvBuf with
  | .incomplete => return (flow, .ok ())
  | .failed e => return (flow, .error e)
  | .framed decoded recvBuf =>
    let flow := { flow with recvBuf }
    match decoded with
    | .error e => return (flow, .error e)
    | .ok msg =>
      if msg.kind ≠ .dial then
        return ({ flow with state := .done }, .error (.unexpectedMessage "expected DIAL"))
      else
        match dialPeer msg with
        | .error e => return (flow, .error e)
        | .ok peer => requestFrom flow peer

/-- Feeds incoming bytes from a requester. -/
def onData (flow : AutoNatServer) (data : Bytes) :
    Exec (AutoNatServer × Except AutoNatError Unit) :=
  if flow.state ≠ .awaitingRequest then return (flow, .ok ())
  else tryDecodeRequest { flow with recvBuf := flow.recvBuf ++ data }

/-- Drains the pending outbound bytes. -/
def takeOutbound (flow : AutoNatServer) : AutoNatServer × Bytes :=
  ({ flow with outbound := [] }, flow.outbound)

/-- Queues a DIAL_RESPONSE, whatever the state is. -/
def respond (flow : AutoNatServer) (status : ResponseStatus) (statusText : Option String)
    (addrs : List Multiaddr) : AutoNatServer :=
  let msg : Message :=
    ⟨.dialResponse, none, some ⟨status, statusText, addrs.map Multiaddr.toBytes⟩⟩
  { flow with outbound := encodeFrame msg.encode, state := .done }

/-- Queues a successful DIAL_RESPONSE with dialable addresses. -/
def respondPublic (flow : AutoNatServer) (addrs : List Multiaddr) : AutoNatServer :=
  flow.respond .ok none addrs

/-- Queues an unsuccessful DIAL_RESPONSE. -/
def respondError (flow : AutoNatServer) (status : ResponseStatus) (reason : String) :
    AutoNatServer :=
  flow.respond status (some reason) []

/-- One input of the driver. -/
def handleInput (flow : AutoNatServer) :
    AutoNatServerInput → Exec (AutoNatServer × Except AutoNatError Unit)
  | .data bytes => flow.onData bytes
  | .respondPublic addrs => return (flow.respondPublic addrs, .ok ())
  | .respondError status reason => return (flow.respondError status reason, .ok ())
  | .flush => return (flow, .ok ())

/-- The next output: the request, once, and then the response. -/
def pollOutput (flow : AutoNatServer) : AutoNatServer × Option AutoNatServerOutput :=
  match flow.emittedRequest, flow.request with
  | false, some request => ({ flow with emittedRequest := true }, some (.request request))
  | _, _ =>
    let (flow, outbound) := flow.takeOutbound
    if !outbound.isEmpty then (flow, some (.outbound outbound)) else (flow, none)

/-- Nothing is left to poll. -/
def isIdle (flow : AutoNatServer) : Bool :=
  flow.outbound.isEmpty && (flow.emittedRequest || flow.request.isNone)

instance : SansIoProtocol AutoNatServer AutoNatServerInput AutoNatServerOutput AutoNatError :=
  ⟨handleInput, pollOutput⟩

end AutoNatServer

end Minip2p.Autonat
