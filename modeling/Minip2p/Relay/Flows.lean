import Minip2p.Core.SansIo
import Minip2p.Relay.Message

/-!
# Circuit Relay v2 flows

The three client state machines of `crates/relay/src/lib.rs`: `HopReservation` and `HopConnect`
(client to relay) and `StopResponder` (relay to us). Each keeps the bytes received so far in
`recvBuf` and decodes one frame from it.
-/

namespace Minip2p.Relay

/-- Maximum size for a single incoming relay message (8 KiB). -/
def maxMessageSize : Nat := 8192

/-- Errors returned by relay state machines. -/
inductive RelayError
  | messageTooLarge (len : Nat)
  | malformed (error : RelayMessageError)
  | unexpectedMessage (reason : String)
deriving DecidableEq, Repr

/-- A HOP message at the front of the receive buffer. -/
def receiveHop (recvBuf : Bytes) : Exec (Wire.Received RelayError HopMessage) :=
  Wire.receive maxMessageSize .messageTooLarge .malformed HopMessage.decode recvBuf

/-- A STOP message at the front of the receive buffer. -/
def receiveStop (recvBuf : Bytes) : Exec (Wire.Received RelayError StopMessage) :=
  Wire.receive maxMessageSize .messageTooLarge .malformed StopMessage.decode recvBuf

/-- The text of the error for a HOP message of another type. -/
def unexpectedHopReason (actual : HopMessageType) (expected : String) : String :=
  s!"expected HOP message of type {expected} but got {actual.debug}"

/-- The text of the error for a STOP message of another type. -/
def unexpectedStopReason (actual : StopMessageType) (expected : String) : String :=
  s!"expected STOP message of type {expected} but got {actual.debug}"

/-- Common flow states for client-initiated request/response exchanges. -/
inductive FlowState
  | pending
  | awaitingResponse
  | done
deriving DecidableEq, Repr

/-- Inputs of the two HOP flows. -/
inductive HopInput
  | flush
  | data (bytes : Bytes)
  | remoteWriteClosed
deriving DecidableEq, Repr

/-! ## HopReservation -/

/-- Outcome of a RESERVE exchange with a relay. -/
inductive ReservationOutcome
  | accepted (reservation : Option Reservation) (limit : Option Limit)
  | refused (status : Status) (reason : String)
deriving DecidableEq, Repr

/-- What a reservation gives to its driver. -/
inductive HopReservationOutput
  | outbound (bytes : Bytes)
  | outcome (outcome : ReservationOutcome)
deriving DecidableEq, Repr

/-- Client-side state machine for the HOP RESERVE flow. -/
structure HopReservation where
  outbound : Bytes
  recvBuf : Bytes
  state : FlowState
  outcome : Option ReservationOutcome
  emittedOutcome : Bool
deriving DecidableEq, Repr

namespace HopReservation

/-- Queues the RESERVE message. -/
def new : HopReservation where
  outbound := encodeFrame (HopMessage.encode ⟨.reserve, none, none, none, none⟩)
  recvBuf := []
  state := .pending
  outcome := none
  emittedOutcome := false

/-- Drains the pending outbound bytes. -/
def takeOutbound (flow : HopReservation) : HopReservation × Bytes :=
  let state := if flow.state = .pending then .awaitingResponse else flow.state
  ({ flow with state, outbound := [] }, flow.outbound)

/-- Attempts to decode the response frame from the receive buffer. -/
def tryDecodeResponse (flow : HopReservation) :
    Exec (HopReservation × Except RelayError Unit) := do
  if flow.state = .done then return (flow, .ok ())
  else
    match ← receiveHop flow.recvBuf with
    | .incomplete => return (flow, .ok ())
    | .failed e => return ({ flow with state := .done }, .error e)
    | .message msg recvBuf =>
      let flow := { flow with recvBuf, state := .done }
      if msg.kind ≠ .status then
        return (flow, .error (.unexpectedMessage (unexpectedHopReason msg.kind "STATUS")))
      else
        let status := msg.status.getD .unused
        let outcome :=
          if status = .ok then .accepted msg.reservation msg.limit
          else .refused status (describeStatus status)
        return ({ flow with outcome := some outcome, emittedOutcome := false }, .ok ())

/-- Feeds incoming stream bytes from the relay. -/
def onData (flow : HopReservation) (data : Bytes) :
    Exec (HopReservation × Except RelayError Unit) :=
  if flow.state = .done then return (flow, .ok ())
  else tryDecodeResponse { flow with recvBuf := flow.recvBuf ++ data }

/-- One input of the driver. -/
def handleInput (flow : HopReservation) : HopInput → Exec (HopReservation × Except RelayError Unit)
  | .flush => return (flow, .ok ())
  | .data bytes => flow.onData bytes
  | .remoteWriteClosed => flow.tryDecodeResponse

/-- The next output: bytes for the relay first, then the outcome, once. -/
def pollOutput (flow : HopReservation) : HopReservation × Option HopReservationOutput :=
  let (flow, outbound) := flow.takeOutbound
  if !outbound.isEmpty then (flow, some (.outbound outbound))
  else
    match flow.emittedOutcome, flow.outcome with
    | false, some outcome => ({ flow with emittedOutcome := true }, some (.outcome outcome))
    | _, _ => (flow, none)

instance : SansIoProtocol HopReservation HopInput HopReservationOutput RelayError :=
  ⟨handleInput, pollOutput⟩

end HopReservation

/-! ## HopConnect -/

/-- Outcome of a CONNECT exchange with a relay. -/
inductive ConnectOutcome
  | bridged (limit : Option Limit)
  | refused (status : Status) (reason : String)
deriving DecidableEq, Repr

/-- What a connection attempt gives to its driver. -/
inductive HopConnectOutput
  | outbound (bytes : Bytes)
  | outcome (outcome : ConnectOutcome)
  | bridgeData (bytes : Bytes)
deriving DecidableEq, Repr

/-- Client-side state machine for the HOP CONNECT flow. -/
structure HopConnect where
  outbound : Bytes
  recvBuf : Bytes
  state : FlowState
  outcome : Option ConnectOutcome
  emittedOutcome : Bool
  bridgeBytes : Bytes
deriving DecidableEq, Repr

namespace HopConnect

/-- Queues the CONNECT message for the given peer id bytes. -/
def new (targetPeerId : Bytes) : HopConnect where
  outbound := encodeFrame (HopMessage.encode ⟨.connect, some ⟨targetPeerId, []⟩, none, none, none⟩)
  recvBuf := []
  state := .pending
  outcome := none
  emittedOutcome := false
  bridgeBytes := []

/-- Drains the pending outbound bytes. -/
def takeOutbound (flow : HopConnect) : HopConnect × Bytes :=
  let state := if flow.state = .pending then .awaitingResponse else flow.state
  ({ flow with state, outbound := [] }, flow.outbound)

/-- Attempts to decode the response from the receive buffer. -/
def tryDecodeResponse (flow : HopConnect) : Exec (HopConnect × Except RelayError Unit) := do
  if flow.state = .done then return (flow, .ok ())
  else
    match ← receiveHop flow.recvBuf with
    | .incomplete => return (flow, .ok ())
    | .failed e => return ({ flow with state := .done }, .error e)
    | .message msg recvBuf =>
      let flow := { flow with recvBuf, state := .done }
      if msg.kind ≠ .status then
        return (flow, .error (.unexpectedMessage (unexpectedHopReason msg.kind "STATUS")))
      else
        let status := msg.status.getD .unused
        if status = .ok then
          -- bytes after the STATUS frame belong to the bridged stream
          return ({ flow with
            bridgeBytes := flow.bridgeBytes ++ flow.recvBuf, recvBuf := []
            outcome := some (.bridged msg.limit), emittedOutcome := false }, .ok ())
        else
          return ({ flow with
            outcome := some (.refused status (describeStatus status))
            emittedOutcome := false }, .ok ())

/-- Feeds incoming stream bytes; after the flow is bridged they are relayed traffic. -/
def onData (flow : HopConnect) (data : Bytes) : Exec (HopConnect × Except RelayError Unit) :=
  if flow.state = .done then
    match flow.outcome with
    | some (.bridged _) => return ({ flow with bridgeBytes := flow.bridgeBytes ++ data }, .ok ())
    | _ => return (flow, .ok ())
  else tryDecodeResponse { flow with recvBuf := flow.recvBuf ++ data }

/-- One input of the driver. -/
def handleInput (flow : HopConnect) : HopInput → Exec (HopConnect × Except RelayError Unit)
  | .flush => return (flow, .ok ())
  | .data bytes => flow.onData bytes
  | .remoteWriteClosed => flow.tryDecodeResponse

/-- The next output: bytes for the relay, the outcome, and then the bytes of the bridge. -/
def pollOutput (flow : HopConnect) : HopConnect × Option HopConnectOutput :=
  let (flow, outbound) := flow.takeOutbound
  if !outbound.isEmpty then (flow, some (.outbound outbound))
  else
    match flow.emittedOutcome, flow.outcome with
    | false, some outcome => ({ flow with emittedOutcome := true }, some (.outcome outcome))
    | _, _ =>
      if !flow.bridgeBytes.isEmpty then
        ({ flow with bridgeBytes := [] }, some (.bridgeData flow.bridgeBytes))
      else (flow, none)

instance : SansIoProtocol HopConnect HopInput HopConnectOutput RelayError :=
  ⟨handleInput, pollOutput⟩

end HopConnect

/-! ## StopResponder -/

/-- A STOP CONNECT request from a relay, waiting for acceptance or rejection. -/
structure StopConnectRequest where
  sourcePeerId : Bytes
  limit : Option Limit
deriving DecidableEq, Repr

/-- What the driver gives to a STOP responder. -/
inductive StopResponderInput
  | flush
  | data (bytes : Bytes)
  | remoteWriteClosed
  | accept
  | reject (status : Status)
deriving DecidableEq, Repr

/-- What a STOP responder gives to its driver. -/
inductive StopResponderOutput
  | request (request : StopConnectRequest)
  | outbound (bytes : Bytes)
  | bridgeData (bytes : Bytes)
deriving DecidableEq, Repr

/-- State progression for a STOP responder flow. -/
inductive StopState
  | awaitingConnect
  | awaitingDecision
  | done
  | bridged
deriving DecidableEq, Repr

/-- The `Debug` text. -/
def StopState.debug : StopState → String
  | awaitingConnect => "AwaitingConnect"
  | awaitingDecision => "AwaitingDecision"
  | done => "Done"
  | bridged => "Bridged"

/-- Server-side state machine for the STOP protocol (we are the destination). -/
structure StopResponder where
  outbound : Bytes
  recvBuf : Bytes
  state : StopState
  request : Option StopConnectRequest
  emittedRequest : Bool
  bridgeBytes : Bytes
deriving DecidableEq, Repr

namespace StopResponder

/-- Waits for a CONNECT frame. -/
def new : StopResponder where
  outbound := []
  recvBuf := []
  state := .awaitingConnect
  request := none
  emittedRequest := false
  bridgeBytes := []

/-- Decodes the CONNECT request from the receive buffer. -/
def tryDecodeConnect (flow : StopResponder) : Exec (StopResponder × Except RelayError Unit) := do
  if flow.state ≠ .awaitingConnect then return (flow, .ok ())
  else
    match ← receiveStop flow.recvBuf with
    | .incomplete => return (flow, .ok ())
    | .failed e => return ({ flow with state := .done }, .error e)
    | .message msg recvBuf =>
      let flow := { flow with recvBuf }
      if msg.kind ≠ .connect then
        return ({ flow with state := .done },
          .error (.unexpectedMessage (unexpectedStopReason msg.kind "CONNECT")))
      else
        match msg.peer with
        | none =>
          return ({ flow with state := .done },
            .error (.unexpectedMessage "STOP CONNECT missing peer field"))
        | some peer =>
          return ({ flow with
            request := some ⟨peer.id, msg.limit⟩, emittedRequest := false
            state := .awaitingDecision }, .ok ())

/-- Feeds incoming stream bytes from the relay. -/
def onData (flow : StopResponder) (data : Bytes) :
    Exec (StopResponder × Except RelayError Unit) :=
  if flow.state = .bridged then
    return ({ flow with bridgeBytes := flow.bridgeBytes ++ data }, .ok ())
  else if flow.state = .done then return (flow, .ok ())
  else tryDecodeConnect { flow with recvBuf := flow.recvBuf ++ data }

/-- Queues a STATUS message with the given code. -/
def sendStatus (flow : StopResponder) (status : Status) (nextState : StopState) :
    StopResponder × Except RelayError Unit :=
  if flow.state ≠ .awaitingDecision then
    (flow, .error (.unexpectedMessage s!"cannot respond from state {flow.state.debug}"))
  else
    let response : StopMessage := ⟨.status, none, none, some status⟩
    ({ flow with
      outbound := flow.outbound ++ encodeFrame response.encode, state := nextState }, .ok ())

/-- Accepts the CONNECT request; bytes pipelined after it belong to the bridge. -/
def accept (flow : StopResponder) : StopResponder × Except RelayError Unit :=
  match flow.sendStatus .ok .bridged with
  | (flow, .error e) => (flow, .error e)
  | (flow, .ok ()) =>
    ({ flow with bridgeBytes := flow.bridgeBytes ++ flow.recvBuf, recvBuf := [] }, .ok ())

/-- Rejects the CONNECT request with the given status code. -/
def reject (flow : StopResponder) (status : Status) : StopResponder × Except RelayError Unit :=
  flow.sendStatus status .done

/-- One input of the driver. -/
def handleInput (flow : StopResponder) :
    StopResponderInput → Exec (StopResponder × Except RelayError Unit)
  | .flush => return (flow, .ok ())
  | .data bytes => flow.onData bytes
  | .remoteWriteClosed => flow.tryDecodeConnect
  | .accept => return flow.accept
  | .reject status => return flow.reject status

/-- The next output: the request, once, the answer, and then the bytes of the bridge. -/
def pollOutput (flow : StopResponder) : StopResponder × Option StopResponderOutput :=
  match flow.emittedRequest, flow.request with
  | false, some request => ({ flow with emittedRequest := true }, some (.request request))
  | _, _ =>
    if !flow.outbound.isEmpty then
      ({ flow with outbound := [] }, some (.outbound flow.outbound))
    else if !flow.bridgeBytes.isEmpty then
      ({ flow with bridgeBytes := [] }, some (.bridgeData flow.bridgeBytes))
    else (flow, none)

instance : SansIoProtocol StopResponder StopResponderInput StopResponderOutput RelayError :=
  ⟨handleInput, pollOutput⟩

end StopResponder

/-! ## When an input panics

Each flow decodes in some of its states only, and only a buffer within the size limit. -/

/-- The receive buffer passes the size guard and its declared length overflows. -/
def DecodeOverflows (recvBuf : Bytes) : Prop :=
  recvBuf.length ≤ maxMessageSize ∧ Wire.HugePrefix recvBuf

instance (recvBuf : Bytes) : Decidable (DecodeOverflows recvBuf) :=
  inferInstanceAs (Decidable (_ ∧ _))

theorem maxMessageSize_lt : maxMessageSize < 2 ^ 63 := by decide

/-- Receiving panics only on a length prefix that overflows. -/
theorem returns_receiveHop_iff {recvBuf : Bytes} :
    Exec.Returns (receiveHop recvBuf) ↔ ¬ DecodeOverflows recvBuf :=
  Wire.returns_receive_iff fun _ hlen =>
    (HopMessage.decode_safe (Nat.lt_of_le_of_lt hlen maxMessageSize_lt)).returns

/-- Receiving panics only on a length prefix that overflows. -/
theorem returns_receiveStop_iff {recvBuf : Bytes} :
    Exec.Returns (receiveStop recvBuf) ↔ ¬ DecodeOverflows recvBuf :=
  Wire.returns_receive_iff fun _ hlen =>
    (StopMessage.decode_safe (Nat.lt_of_le_of_lt hlen maxMessageSize_lt)).returns

namespace HopReservation

/-- No byte of the input completes a huge length prefix in the receive buffer while the flow is
still waiting for its response. -/
def Guard (flow : HopReservation) : HopInput → Prop
  | .flush => True
  | .data bytes => flow.state ≠ .done → ¬ DecodeOverflows (flow.recvBuf ++ bytes)
  | .remoteWriteClosed => flow.state ≠ .done → ¬ DecodeOverflows flow.recvBuf

/-- A reservation that has its answer decodes nothing. -/
theorem returns_tryDecodeResponse_iff (flow : HopReservation) :
    Exec.Returns flow.tryDecodeResponse ↔
      (flow.state ≠ .done → ¬ DecodeOverflows flow.recvBuf) := by
  unfold tryDecodeResponse
  rw [← returns_receiveHop_iff]
  refine Exec.returns_unless_iff ?_
  rintro (_ | e | ⟨msg, recvBuf⟩) -
  · exact Exec.returns_ok _
  · exact Exec.returns_ok _
  · dsimp only
    split <;> exact Exec.returns_ok _

/-- An input panics exactly when its guard fails. -/
theorem returns_handleInput_iff (flow : HopReservation) (input : HopInput) :
    Exec.Returns (flow.handleInput input) ↔ flow.Guard input := by
  cases input with
  | flush => exact ⟨fun _ => trivial, fun _ => Exec.returns_ok _⟩
  | remoteWriteClosed => exact returns_tryDecodeResponse_iff flow
  | data bytes =>
    simp only [handleInput, onData, Guard]
    split
    · next hdone => exact ⟨fun _ h => absurd hdone h, fun _ => Exec.returns_ok _⟩
    · exact returns_tryDecodeResponse_iff _

end HopReservation

namespace HopConnect

/-- The guard of `HopReservation`, for the CONNECT flow. -/
def Guard (flow : HopConnect) : HopInput → Prop
  | .flush => True
  | .data bytes => flow.state ≠ .done → ¬ DecodeOverflows (flow.recvBuf ++ bytes)
  | .remoteWriteClosed => flow.state ≠ .done → ¬ DecodeOverflows flow.recvBuf

/-- An attempt that has its answer decodes nothing. -/
theorem returns_tryDecodeResponse_iff (flow : HopConnect) :
    Exec.Returns flow.tryDecodeResponse ↔
      (flow.state ≠ .done → ¬ DecodeOverflows flow.recvBuf) := by
  unfold tryDecodeResponse
  rw [← returns_receiveHop_iff]
  refine Exec.returns_unless_iff ?_
  rintro (_ | e | ⟨msg, recvBuf⟩) -
  · exact Exec.returns_ok _
  · exact Exec.returns_ok _
  · dsimp only
    split
    · exact Exec.returns_ok _
    · split <;> exact Exec.returns_ok _

/-- An input panics exactly when its guard fails. -/
theorem returns_handleInput_iff (flow : HopConnect) (input : HopInput) :
    Exec.Returns (flow.handleInput input) ↔ flow.Guard input := by
  cases input with
  | flush => exact ⟨fun _ => trivial, fun _ => Exec.returns_ok _⟩
  | remoteWriteClosed => exact returns_tryDecodeResponse_iff flow
  | data bytes =>
    simp only [handleInput, onData, Guard]
    by_cases hdone : flow.state = .done
    · rw [if_pos hdone]
      refine ⟨fun _ h => absurd hdone h, fun _ => ?_⟩
      split <;> exact Exec.returns_ok _
    · rw [if_neg hdone]
      exact returns_tryDecodeResponse_iff _

end HopConnect

namespace StopResponder

/-- The guard of the STOP flow: it decodes while it waits for the CONNECT only. -/
def Guard (flow : StopResponder) : StopResponderInput → Prop
  | .data bytes => flow.state = .awaitingConnect → ¬ DecodeOverflows (flow.recvBuf ++ bytes)
  | .remoteWriteClosed => flow.state = .awaitingConnect → ¬ DecodeOverflows flow.recvBuf
  | _ => True

/-- A responder that has its request decodes nothing. -/
theorem returns_tryDecodeConnect_iff (flow : StopResponder) :
    Exec.Returns flow.tryDecodeConnect ↔
      (flow.state = .awaitingConnect → ¬ DecodeOverflows flow.recvBuf) := by
  unfold tryDecodeConnect
  rw [← returns_receiveStop_iff]
  refine (Exec.returns_unless_iff ?_).trans (imp_congr_left not_not)
  rintro (_ | e | ⟨msg, recvBuf⟩) -
  · exact Exec.returns_ok _
  · exact Exec.returns_ok _
  · dsimp only
    split
    · exact Exec.returns_ok _
    · split <;> exact Exec.returns_ok _

/-- An input panics exactly when its guard fails. -/
theorem returns_handleInput_iff (flow : StopResponder) (input : StopResponderInput) :
    Exec.Returns (flow.handleInput input) ↔ flow.Guard input := by
  cases input with
  | flush | accept | reject => exact ⟨fun _ => trivial, fun _ => Exec.returns_ok _⟩
  | remoteWriteClosed => exact returns_tryDecodeConnect_iff flow
  | data bytes =>
    simp only [handleInput, onData, Guard]
    split
    · next hstate =>
      exact ⟨fun _ h => StopState.noConfusion (hstate.symm.trans h), fun _ => Exec.returns_ok _⟩
    split
    · next hstate =>
      exact ⟨fun _ h => StopState.noConfusion (hstate.symm.trans h), fun _ => Exec.returns_ok _⟩
    · exact returns_tryDecodeConnect_iff _

end StopResponder

end Minip2p.Relay
