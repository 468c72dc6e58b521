import Minip2p.Core.Multiaddr
import Minip2p.Lib.BTreeMap

/-!
# multistream-select

The negotiation state machine of `crates/multistream-select/src/lib.rs`. A role carries what only
that role reads: the proposal of a dialer, the protocols a listener accepts.
-/

namespace Minip2p.Multistream

/-- The multistream-select protocol identifier. -/
def multistreamProtocolId : String := "/multistream/1.0.0"

/-- The "not available" response sent when a protocol is unsupported. -/
def notAvailable : String := "na"

/-- Maximum allowed message payload length in bytes. -/
def maxMessageLen : Nat := 1024

/-- Input accepted by the negotiation state machine. -/
inductive MultistreamInput
  | start
  | data (bytes : Bytes)
deriving DecidableEq, Repr

/-- Output produced by the negotiation state machine. -/
inductive MultistreamOutput
  | outboundData (bytes : Bytes)
  | negotiated (protocol : String)
  | notAvailable
  | protocolError (reason : String)
deriving DecidableEq, Repr

/-- Errors encountered during multistream-select framing or negotiation. -/
inductive MultistreamError
  | messageTooLong (len : Nat)
  | invalidVarint (error : VarintError)
  | nonUtf8
  | missingNewline
  | emptyProtocol
  | unexpectedHeader (actual : String)
  | unexpectedProtocolResponse (actual : String)
deriving DecidableEq, Repr

/-- The `Display` text. -/
def MultistreamError.display : MultistreamError → String
  | messageTooLong len => s!"message exceeds maximum length ({len} > {maxMessageLen})"
  | invalidVarint error => "invalid varint in message frame: " ++ error.display
  | nonUtf8 => "non-utf8 message payload"
  | missingNewline => "message missing trailing newline"
  | emptyProtocol => "empty protocol line"
  | unexpectedHeader actual => s!"unexpected multistream header: {actual}"
  | unexpectedProtocolResponse actual => s!"unexpected protocol response: {actual}"

/-- Whether this side initiated or accepted the negotiation. -/
inductive Role
  | dialer (desiredProtocol : String)
  | listener (supportedProtocols : BTreeSet String)
deriving DecidableEq

/-- Internal state machine states for the multistream-select handshake. -/
inductive State
  | waitingForRemoteHeader
  | waitingForProtocolRequest
  | waitingForProtocolResponse
  | done
deriving DecidableEq, Repr

/-- Multistream-select negotiation state machine. -/
structure MultistreamSelect where
  role : Role
  state : State
  recvBuf : Bytes
  started : Bool
  pendingOutputs : List MultistreamOutput
deriving DecidableEq

/-! ## Messages -/

/-- Encodes a protocol string as a varint-length-prefixed message with a trailing newline. -/
def encodeMessage (protocol : String) : Bytes :=
  let payload := asBytes protocol
  writeUvarint (UInt64.ofNat (payload.length + 1)) ++ payload ++ [0x0a]

/-- Result of attempting to decode a varint-framed message from the buffer. -/
inductive DecodeResult
  | complete (payload : String) (consumed : Nat)
  | incomplete
  | error (error : MultistreamError)
deriving DecidableEq, Repr

/-- The line of a complete message: it ends in a newline, is UTF-8 and not empty. -/
def decodeLine (msgBytes : Bytes) (consumed : Nat) : DecodeResult :=
  if msgBytes.getLast? ≠ some 0x0a then .error .missingNewline
  else
    match fromUtf8 msgBytes.dropLast with
    | .error _ => .error .nonUtf8
    | .ok payload => if payload.isEmpty then .error .emptyProtocol else .complete payload consumed

/-- Attempts to decode one varint-length-prefixed message from the buffer. -/
def decodeMessage (buf : Bytes) : DecodeResult :=
  if buf.isEmpty then .incomplete
  else
    match readUvarint buf with
    | .error .bufferTooShort => .incomplete
    | .error e => .error (.invalidVarint e)
    | .ok (msgLen, varintBytes) =>
      let msgLen := msgLen.toNat
      if msgLen > maxMessageLen then .error (.messageTooLong msgLen)
      else
        -- at most ten bytes of prefix and `maxMessageLen` of payload: no overflow
        let total := varintBytes + msgLen
        if buf.length < total then .incomplete
        else decodeLine ((buf.take total).drop varintBytes) total

/-! ## The state machine -/

/-- Negotiation ends with an error. -/
def protocolError (error : MultistreamError) : State × List MultistreamOutput :=
  (.done, [.protocolError error.display])

/-- Processes a single decoded protocol line. -/
def handleMessage (role : Role) (state : State) (line : String) :
    State × List MultistreamOutput :=
  match state with
  | .waitingForRemoteHeader =>
    if line ≠ multistreamProtocolId then protocolError (.unexpectedHeader line)
    else
      match role with
      | .dialer desired => (.waitingForProtocolResponse, [.outboundData (encodeMessage desired)])
      | .listener _ => (.waitingForProtocolRequest, [])
  | .waitingForProtocolRequest =>
    match role with
    | .listener supported =>
      if supported.contains line then
        (.done, [.outboundData (encodeMessage line), .negotiated line])
      else (.done, [.outboundData (encodeMessage notAvailable), .notAvailable])
    -- a dialer supports nothing; it never waits for a request
    | .dialer _ => (.done, [.outboundData (encodeMessage notAvailable), .notAvailable])
  | .waitingForProtocolResponse =>
    match role with
    | .dialer desired =>
      if line = desired then (.done, [.negotiated desired])
      else if line = notAvailable then (.done, [.notAvailable])
      else protocolError (.unexpectedProtocolResponse line)
    -- a listener never waits for a response
    | .listener _ => (.done, [])
  | .done => (.done, [])

namespace MultistreamSelect

/-- Creates a dialer that will propose `desiredProtocol`. -/
def dialer (desiredProtocol : String) : MultistreamSelect :=
  ⟨.dialer desiredProtocol, .waitingForRemoteHeader, [], false, []⟩

/-- Creates a listener that accepts connections for the given protocols. -/
def listener (protocols : List String) : MultistreamSelect :=
  ⟨.listener (Std.ExtTreeSet.ofList protocols compare), .waitingForRemoteHeader, [], false, []⟩

/-- Queues the initial multistream header. Idempotent. -/
def start (select : MultistreamSelect) : MultistreamSelect :=
  if select.started then select
  else
    { select with
      started := true
      pendingOutputs := select.pendingOutputs ++
        [.outboundData (encodeMessage multistreamProtocolId)] }

/-- The loop of `receive`. Every turn breaks or moves the state forward, so three are enough. -/
def receiveGo : Nat → MultistreamSelect → MultistreamSelect
  | 0, select => select
  | fuel + 1, select =>
    if select.state = .done then select
    else
      match decodeMessage select.recvBuf with
      | .incomplete => select
      | .error e =>
        { select with
          state := .done
          pendingOutputs := select.pendingOutputs ++ [.protocolError e.display] }
      | .complete payload consumed =>
        let (nextState, produced) := handleMessage select.role select.state payload
        -- what follows the message stays for the next turn, or for the protocol
        receiveGo fuel { select with
          recvBuf := select.recvBuf.drop consumed
          state := nextState
          pendingOutputs := select.pendingOutputs ++ produced }

/-- Feeds received bytes and queues the outputs. -/
def receive (select : MultistreamSelect) (bytes : Bytes) : MultistreamSelect :=
  if select.state = .done then select
  else receiveGo 3 { select with recvBuf := select.recvBuf ++ bytes }

/-- Feeds one input into the machine, which accepts all of them. -/
def handleInput (select : MultistreamSelect) :
    MultistreamInput → MultistreamSelect × Except MultistreamError Unit
  | .start => (select.start, .ok ())
  | .data bytes => (select.receive bytes, .ok ())

/-- Takes the oldest output that was not taken yet. -/
def pollOutput (select : MultistreamSelect) : Option MultistreamOutput × MultistreamSelect :=
  (select.pendingOutputs.head?, { select with pendingOutputs := select.pendingOutputs.tail })

/-- What `poll_output` returns until it returns `None`, and the machine after that. -/
def drainOutputs (select : MultistreamSelect) : List MultistreamOutput × MultistreamSelect :=
  (select.pendingOutputs, { select with pendingOutputs := [] })

/-- The next output is the first of those that are drained. -/
theorem drainOutputs_of_some {select select' : MultistreamSelect} {output : MultistreamOutput}
    (h : select.pollOutput = (some output, select')) :
    select.drainOutputs = (output :: select'.drainOutputs.1, select'.drainOutputs.2) := by
  obtain ⟨role, state, recvBuf, started, outputs⟩ := select
  cases outputs with
  | nil => cases h
  | cons first outputs =>
    cases h
    rfl

/-- Without a next output there is nothing to drain, and nothing changes. -/
theorem drainOutputs_of_none {select select' : MultistreamSelect}
    (h : select.pollOutput = (none, select')) :
    select.drainOutputs = ([], select') ∧ select' = select := by
  obtain ⟨role, state, recvBuf, started, outputs⟩ := select
  cases outputs with
  | nil =>
    cases h
    exact ⟨rfl, rfl⟩
  | cons first outputs => cases h

/-- Takes the bytes received after negotiation finished. -/
def takeRemainingBuffer (select : MultistreamSelect) : Bytes × MultistreamSelect :=
  (select.recvBuf, { select with recvBuf := [] })

end MultistreamSelect

end Minip2p.Multistream
