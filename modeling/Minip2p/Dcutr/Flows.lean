import Minip2p.Core.Multiaddr
import Minip2p.Core.SansIo
import Minip2p.Dcutr.Message

/-!
# DCUtR flows

The initiator and the responder of `crates/dcutr/src/lib.rs`. The initiator sends CONNECT, waits
for the remote's CONNECT and then sends SYNC; the responder answers a CONNECT with its own and
waits for SYNC. The responder's decoder loops, so one chunk may carry both messages.
-/

namespace Minip2p.Dcutr

/-- Maximum size for a single DCUtR message (4 KiB). -/
def maxMessageSize : Nat := 4096

/-- Errors returned by DCUtR state machines. -/
inductive DcutrError
  | messageTooLarge (len : Nat)
  | malformed (error : DcutrMessageError)
  | unexpectedMessage (reason : String)
deriving DecidableEq, Repr

/-- A HolePunch message at the front of the receive buffer. -/
def receiveHolePunch (recvBuf : Bytes) : Exec (Wire.Received DcutrError HolePunch) :=
  Wire.receive maxMessageSize .messageTooLarge .malformed HolePunch.decode recvBuf

section

variable [MultihashCodec]

/-- The observed-address bytes of a multiaddr. -/
def encodeMultiaddr (addr : Multiaddr) : Bytes := addr.toBytes

/-- Decodes observed-address bytes, dropping the entries that fail. -/
def decodeRemoteAddrs : List Bytes → Exec (List Multiaddr)
  | [] => return []
  | bytes :: raw => do
    let decoded ← (Multiaddr.fromBytes bytes).run
    let addrs ← decodeRemoteAddrs raw
    match decoded with
    | .ok addr => return addr :: addrs
    | .error _ => return addrs

/-! ## DcutrInitiator -/

/-- What the caller of the initiator should do: dial the remote's addresses. -/
inductive InitiatorOutcome
  | dialNow (remoteAddrs : List Multiaddr) (remoteAddrBytes : List Bytes) (rttMs : UInt64)
deriving DecidableEq, Repr

/-- What the driver gives to an initiator. -/
inductive DcutrInitiatorInput
  | flush
  | data (bytes : Bytes) (rttMs : UInt64)
  | remoteWriteClosed
  | sendSync
deriving DecidableEq, Repr

/-- What an initiator gives to its driver. -/
inductive DcutrInitiatorOutput
  | outbound (bytes : Bytes)
  | outcome (outcome : InitiatorOutcome)
deriving DecidableEq, Repr

/-- Where an initiator is. -/
inductive InitiatorState
  | pending
  | awaitingConnectReply
  | readyToSync
  | syncPending
  | done
deriving DecidableEq, Repr

/-- The `Debug` text. -/
def InitiatorState.debug : InitiatorState → String
  | pending => "Pending"
  | awaitingConnectReply => "AwaitingConnectReply"
  | readyToSync => "ReadyToSync"
  | syncPending => "SyncPending"
  | done => "Done"

/-- Client-side (initiator) state machine. -/
structure DcutrInitiator where
  outbound : Bytes
  recvBuf : Bytes
  state : InitiatorState
  outcome : Option InitiatorOutcome
  emittedOutcome : Bool
deriving DecidableEq, Repr

namespace DcutrInitiator

/-- Queues the CONNECT message with our addresses. -/
def new (ownAddrs : List Multiaddr) : DcutrInitiator where
  outbound := encodeFrame (HolePunch.encode ⟨.connect, ownAddrs.map encodeMultiaddr⟩)
  recvBuf := []
  state := .pending
  outcome := none
  emittedOutcome := false

/-- Drains the pending outbound bytes. -/
def takeOutbound (flow : DcutrInitiator) : DcutrInitiator × Bytes :=
  -- handing the bytes out is what moves the flow on
  let state := match flow.state with
    | .pending => .awaitingConnectReply
    | .syncPending => .done
    | other => other
  ({ flow with state, outbound := [] }, flow.outbound)

/-- Reads the CONNECT reply, if all of it is there and it is waited for. -/
def tryDecodeReply (flow : DcutrInitiator) (rttMs : UInt64) :
    Exec (DcutrInitiator × Except DcutrError Unit) := do
  if flow.state ≠ .awaitingConnectReply then return (flow, .ok ())
  else
    match ← receiveHolePunch flow.recvBuf with
    | .incomplete => return (flow, .ok ())
    | .failed e => return ({ flow with state := .done }, .error e)
    | .message reply recvBuf =>
      let flow := { flow with recvBuf }
      if reply.kind ≠ .connect then
        return ({ flow with state := .done }, .error (.unexpectedMessage
          s!"expected HolePunch CONNECT but got {reply.kind.debug}"))
      else
        -- addresses that do not parse are dropped, the raw bytes are kept
        let remoteAddrs ← decodeRemoteAddrs reply.obsAddrs
        return ({ flow with
          state := .readyToSync
          outcome := some (.dialNow remoteAddrs reply.obsAddrs rttMs)
          emittedOutcome := false }, .ok ())

/-- Feeds incoming stream bytes with the caller's measured RTT. -/
def onData (flow : DcutrInitiator) (data : Bytes) (rttMs : UInt64) :
    Exec (DcutrInitiator × Except DcutrError Unit) :=
  if flow.state = .done ∨ flow.state = .syncPending then return (flow, .ok ())
  else tryDecodeReply { flow with recvBuf := flow.recvBuf ++ data } rttMs

/-- Queues the SYNC message. -/
def sendSync (flow : DcutrInitiator) : DcutrInitiator × Except DcutrError Unit :=
  if flow.state ≠ .readyToSync then
    (flow, .error (.unexpectedMessage s!"cannot send SYNC from state {flow.state.debug}"))
  else
    let msg : HolePunch := ⟨.sync, []⟩
    ({ flow with
      outbound := flow.outbound ++ encodeFrame msg.encode, state := .syncPending }, .ok ())

/-- One input of the driver. -/
def handleInput (flow : DcutrInitiator) :
    DcutrInitiatorInput → Exec (DcutrInitiator × Except DcutrError Unit)
  | .flush => return (flow, .ok ())
  | .data bytes rttMs => flow.onData bytes rttMs
  | .remoteWriteClosed => return (flow, .ok ())
  | .sendSync => return flow.sendSync

/-- The next output: bytes for the remote first, then the outcome, once. -/
def pollOutput (flow : DcutrInitiator) : DcutrInitiator × Option DcutrInitiatorOutput :=
  let (flow, outbound) := flow.takeOutbound
  if !outbound.isEmpty then (flow, some (.outbound outbound))
  else
    match flow.emittedOutcome, flow.outcome with
    | false, some outcome => ({ flow with emittedOutcome := true }, some (.outcome outcome))
    | _, _ => (flow, none)

/-- Nothing is left to poll. -/
def isIdle (flow : DcutrInitiator) : Bool :=
  flow.outbound.isEmpty && (flow.emittedOutcome || flow.outcome.isNone)

instance : SansIoProtocol DcutrInitiator DcutrInitiatorInput DcutrInitiatorOutput DcutrError :=
  ⟨handleInput, pollOutput⟩

end DcutrInitiator

/-! ## DcutrResponder -/

/-- Events the responder surfaces to its caller. -/
inductive ResponderEvent
  | connectReceived (remoteAddrs : List Multiaddr) (remoteAddrBytes : List Bytes)
  | syncReceived
deriving DecidableEq, Repr

/-- What the driver gives to a responder. -/
inductive DcutrResponderInput
  | flush
  | data (bytes : Bytes)
  | remoteWriteClosed
deriving DecidableEq, Repr

/-- What a responder gives to its driver. -/
inductive DcutrResponderOutput
  | outbound (bytes : Bytes)
  | event (event : ResponderEvent)
deriving DecidableEq, Repr

/-- Where a responder is. -/
inductive ResponderState
  | awaitingConnect
  | awaitingSync
  | done
deriving DecidableEq, Repr

/-- The `Debug` text. -/
def ResponderState.debug : ResponderState → String
  | awaitingConnect => "AwaitingConnect"
  | awaitingSync => "AwaitingSync"
  | done => "Done"

/-- Server-side (responder) state machine. -/
structure DcutrResponder where
  ownAddrs : List Bytes
  outbound : Bytes
  recvBuf : Bytes
  state : ResponderState
  events : List ResponderEvent
deriving DecidableEq, Repr

namespace DcutrResponder

/-- Waits for the initiator's CONNECT. -/
def new (ownAddrs : List Multiaddr) : DcutrResponder where
  ownAddrs := ownAddrs.map encodeMultiaddr
  outbound := []
  recvBuf := []
  state := .awaitingConnect
  events := []

/-- The decode loop. Every turn returns or moves the state forward, so three are enough. -/
def tryDecodeGo : Nat → DcutrResponder → Exec (DcutrResponder × Except DcutrError Unit)
  | 0, _ => .error .diverged
  | fuel + 1, flow => do
    if flow.state = .done then return (flow, .ok ())
    else
      match ← receiveHolePunch flow.recvBuf with
      | .incomplete => return (flow, .ok ())
      | .failed e => return ({ flow with state := .done }, .error e)
      | .message msg recvBuf =>
        let flow := { flow with recvBuf }
        match flow.state, msg.kind with
        | .awaitingConnect, .connect =>
          let reply : HolePunch := ⟨.connect, flow.ownAddrs⟩
          let remoteAddrs ← decodeRemoteAddrs msg.obsAddrs
          tryDecodeGo fuel { flow with
            outbound := flow.outbound ++ encodeFrame reply.encode
            events := flow.events ++ [.connectReceived remoteAddrs msg.obsAddrs]
            state := .awaitingSync }
        | .awaitingSync, .sync =>
          tryDecodeGo fuel { flow with events := flow.events ++ [.syncReceived], state := .done }
        | currentState, actualKind =>
          return ({ flow with state := .done }, .error (.unexpectedMessage
            s!"unexpected {actualKind.debug} in state {currentState.debug}"))

/-- Reads the frames that are complete. -/
def tryDecode (flow : DcutrResponder) : Exec (DcutrResponder × Except DcutrError Unit) :=
  tryDecodeGo 3 flow

/-- Feeds incoming stream bytes. -/
def onData (flow : DcutrResponder) (data : Bytes) :
    Exec (DcutrResponder × Except DcutrError Unit) :=
  if flow.state = .done then return (flow, .ok ())
  else tryDecode { flow with recvBuf := flow.recvBuf ++ data }

/-- One input of the driver. -/
def handleInput (flow : DcutrResponder) :
    DcutrResponderInput → Exec (DcutrResponder × Except DcutrError Unit)
  | .flush => return (flow, .ok ())
  | .data bytes => flow.onData bytes
  | .remoteWriteClosed => flow.tryDecode

/-- The next output: bytes for the remote first, then the events. -/
def pollOutput (flow : DcutrResponder) : DcutrResponder × Option DcutrResponderOutput :=
  if !flow.outbound.isEmpty then ({ flow with outbound := [] }, some (.outbound flow.outbound))
  else
    match flow.events with
    | [] => (flow, none)
    | event :: events => ({ flow with events }, some (.event event))

/-- Nothing is left to poll. -/
def isIdle (flow : DcutrResponder) : Bool := flow.outbound.isEmpty && flow.events.isEmpty

instance : SansIoProtocol DcutrResponder DcutrResponderInput DcutrResponderOutput DcutrError :=
  ⟨handleInput, pollOutput⟩

end DcutrResponder

/-! ## When an input panics -/

/-- The receive buffer passes the size guard and its declared length overflows. -/
def DecodeOverflows (recvBuf : Bytes) : Prop :=
  recvBuf.length ≤ maxMessageSize ∧ Wire.HugePrefix recvBuf

omit [MultihashCodec] in
theorem maxMessageSize_lt : maxMessageSize < 2 ^ 63 := by decide

omit [MultihashCodec] in
/-- Receiving panics only on a length prefix that overflows. -/
theorem returns_receiveHolePunch_iff {recvBuf : Bytes} :
    Exec.Returns (receiveHolePunch recvBuf) ↔ ¬ DecodeOverflows recvBuf :=
  Wire.returns_receive_iff fun _ hlen =>
    (HolePunch.decode_safe (Nat.lt_of_le_of_lt hlen maxMessageSize_lt)).returns

/-- Addresses of bounded length are read without a panic. -/
theorem returns_decodeRemoteAddrs {raw : List Bytes} {n : Nat} (hn : n < 2 ^ 63)
    (h : AddrsWithin n raw) : Exec.Returns (decodeRemoteAddrs raw) := by
  induction raw with
  | nil => exact Exec.returns_ok _
  | cons bytes raw ih =>
    have hbytes : bytes.length < 2 ^ 63 := Nat.lt_of_le_of_lt (h bytes List.mem_cons_self) hn
    obtain ⟨decoded, hdecoded⟩ := (Multiaddr.fromBytes_safe hbytes).returns
    obtain ⟨addrs, haddrs⟩ := ih fun addr haddr => h addr (List.mem_cons_of_mem _ haddr)
    refine Exec.returns_bind_iff.mpr ⟨decoded, hdecoded, ?_⟩
    refine Exec.returns_bind_iff.mpr ⟨addrs, haddrs, ?_⟩
    cases decoded <;> exact Exec.returns_ok _

/-- The addresses of a received message are short enough to be decoded. -/
theorem returns_decodeRemoteAddrs_of_received {recvBuf rest : Bytes} {msg : HolePunch}
    (h : receiveHolePunch recvBuf = .ok (.message msg rest)) :
    Exec.Returns (decodeRemoteAddrs msg.obsAddrs) := by
  obtain ⟨payload, consumed, hmax, hframe, hdecode, -⟩ := Wire.receive_eq_message h
  -- the payload is a part of a buffer that passed the size guard
  have hpayload : payload.length ≤ maxMessageSize :=
    Nat.le_trans (Wire.decodeFrame_complete hframe).2 hmax
  obtain ⟨r, hr, haddrs⟩ :=
    HolePunch.decode_safe (Nat.lt_of_le_of_lt hpayload maxMessageSize_lt)
  have hmsg : r = .ok msg := Except.ok.inj (hr.symm.trans hdecode)
  exact returns_decodeRemoteAddrs (Nat.lt_of_le_of_lt hpayload maxMessageSize_lt)
    (haddrs msg hmsg)

namespace DcutrInitiator

/-- No byte of the input completes a huge length prefix while the initiator awaits the reply. -/
def Guard (flow : DcutrInitiator) : DcutrInitiatorInput → Prop
  | .data bytes _ =>
    flow.state = .awaitingConnectReply → ¬ DecodeOverflows (flow.recvBuf ++ bytes)
  | _ => True

/-- An initiator that does not wait for a reply decodes nothing. -/
theorem returns_tryDecodeReply_iff (flow : DcutrInitiator) (rttMs : UInt64) :
    Exec.Returns (flow.tryDecodeReply rttMs) ↔
      (flow.state = .awaitingConnectReply → ¬ DecodeOverflows flow.recvBuf) := by
  unfold tryDecodeReply
  rw [← returns_receiveHolePunch_iff]
  refine (Exec.returns_unless_iff ?_).trans (imp_congr_left not_not)
  intro r hr
  match r with
  | .incomplete => exact Exec.returns_ok _
  | .failed e => exact Exec.returns_ok _
  | .message reply recvBuf =>
    dsimp only
    split
    · exact Exec.returns_ok _
    · obtain ⟨addrs, haddrs⟩ := returns_decodeRemoteAddrs_of_received hr
      exact Exec.returns_bind_iff.mpr ⟨addrs, haddrs, Exec.returns_ok _⟩

/-- An input panics exactly when its guard fails. -/
theorem returns_handleInput_iff (flow : DcutrInitiator) (input : DcutrInitiatorInput) :
    Exec.Returns (flow.handleInput input) ↔ flow.Guard input := by
  cases input with
  | flush | remoteWriteClosed | sendSync =>
    exact ⟨fun _ => trivial, fun _ => Exec.returns_ok _⟩
  | data bytes rttMs =>
    simp only [handleInput, onData, Guard]
    split
    · next hstate =>
      refine ⟨fun _ h => ?_, fun _ => Exec.returns_ok _⟩
      rw [h] at hstate
      rcases hstate with hstate | hstate <;> cases hstate
    · exact returns_tryDecodeReply_iff _ _

end DcutrInitiator

namespace DcutrResponder

/-- The decode loop meets a huge length prefix: at the front of the buffer or, while the CONNECT
is still awaited, right behind a complete CONNECT frame. -/
def LoopOverflows (state : ResponderState) (recvBuf : Bytes) : Prop :=
  match state with
  | .awaitingConnect => DecodeOverflows recvBuf ∨
    ∃ msg rest, receiveHolePunch recvBuf = .ok (.message msg rest) ∧ msg.kind = .connect ∧
      DecodeOverflows rest
  | .awaitingSync => DecodeOverflows recvBuf
  | .done => False

/-- No byte of the input completes a huge length prefix that the decode loop reaches. -/
def Guard (flow : DcutrResponder) : DcutrResponderInput → Prop
  | .flush => True
  | .data bytes => ¬ LoopOverflows flow.state (flow.recvBuf ++ bytes)
  | .remoteWriteClosed => ¬ LoopOverflows flow.state flow.recvBuf

/-- A finished flow decodes nothing. -/
theorem returns_tryDecodeGo_of_done {flow : DcutrResponder} (hstate : flow.state = .done)
    (fuel : Nat) : Exec.Returns (tryDecodeGo (fuel + 1) flow) := by
  unfold tryDecodeGo
  rw [if_pos hstate]
  exact Exec.returns_ok _

/-- A responder that waits for the SYNC reads one frame. -/
theorem returns_tryDecodeGo_of_awaitingSync {flow : DcutrResponder}
    (hstate : flow.state = .awaitingSync) (fuel : Nat) :
    Exec.Returns (tryDecodeGo (fuel + 2) flow) ↔ ¬ DecodeOverflows flow.recvBuf := by
  have hne : flow.state ≠ .done := by rw [hstate]; decide
  unfold tryDecodeGo
  rw [if_neg hne, ← returns_receiveHolePunch_iff, Exec.returns_bind_iff]
  constructor
  · rintro ⟨r, hr, -⟩
    exact ⟨r, hr⟩
  · rintro ⟨r, hr⟩
    refine ⟨r, hr, ?_⟩
    match r with
    | .incomplete => exact Exec.returns_ok _
    | .failed e => exact Exec.returns_ok _
    | .message msg recvBuf =>
      dsimp only
      rw [hstate]
      cases msg.kind with
      | connect => exact Exec.returns_ok _
      | sync => exact returns_tryDecodeGo_of_done rfl fuel

/-- A responder that waits for the CONNECT may read two frames at once. -/
theorem returns_tryDecodeGo_of_awaitingConnect {flow : DcutrResponder}
    (hstate : flow.state = .awaitingConnect) (fuel : Nat) :
    Exec.Returns (tryDecodeGo (fuel + 3) flow) ↔
      ¬ LoopOverflows .awaitingConnect flow.recvBuf := by
  have hne : flow.state ≠ .done := by rw [hstate]; decide
  unfold tryDecodeGo LoopOverflows
  rw [if_neg hne, not_or, ← returns_receiveHolePunch_iff, Exec.returns_bind_iff]
  constructor
  · rintro ⟨r, hr, hreturns⟩
    refine ⟨⟨r, hr⟩, ?_⟩
    rintro ⟨msg, rest, hmsg, hkind, hover⟩
    -- the loop has read this very message and goes on behind it
    obtain rfl : r = .message msg rest := Except.ok.inj (hr.symm.trans hmsg)
    dsimp only at hreturns
    rw [hstate, hkind] at hreturns
    obtain ⟨addrs, -, hgo⟩ := Exec.returns_bind_iff.mp hreturns
    exact (returns_tryDecodeGo_of_awaitingSync rfl fuel).mp hgo hover
  · rintro ⟨⟨r, hr⟩, hrest⟩
    refine ⟨r, hr, ?_⟩
    match r with
    | .incomplete => exact Exec.returns_ok _
    | .failed e => exact Exec.returns_ok _
    | .message msg recvBuf =>
      dsimp only
      rw [hstate]
      cases hkind : msg.kind with
      | connect =>
        obtain ⟨addrs, haddrs⟩ := returns_decodeRemoteAddrs_of_received hr
        refine Exec.returns_bind_iff.mpr ⟨addrs, haddrs, ?_⟩
        -- the second turn starts behind the CONNECT
        exact (returns_tryDecodeGo_of_awaitingSync rfl fuel).mpr
          fun hover => hrest ⟨msg, recvBuf, hr, hkind, hover⟩
      | sync => exact Exec.returns_ok _

/-- A responder panics exactly on a frame it reads whose length overflows. -/
theorem returns_tryDecode_iff (flow : DcutrResponder) :
    Exec.Returns flow.tryDecode ↔ ¬ LoopOverflows flow.state flow.recvBuf := by
  unfold tryDecode
  cases hstate : flow.state with
  | awaitingConnect => exact returns_tryDecodeGo_of_awaitingConnect hstate 0
  | awaitingSync => exact returns_tryDecodeGo_of_awaitingSync hstate 1
  | done => exact ⟨fun _ h => h, fun _ => returns_tryDecodeGo_of_done hstate 2⟩

/-- An input panics exactly when its guard fails. -/
theorem returns_handleInput_iff (flow : DcutrResponder) (input : DcutrResponderInput) :
    Exec.Returns (flow.handleInput input) ↔ flow.Guard input := by
  cases input with
  | flush => exact ⟨fun _ => trivial, fun _ => Exec.returns_ok _⟩
  | remoteWriteClosed => exact returns_tryDecode_iff flow
  | data bytes =>
    simp only [handleInput, onData, Guard]
    split
    · next hdone => exact ⟨fun _ h => by rw [hdone] at h; exact h, fun _ => Exec.returns_ok _⟩
    · exact returns_tryDecode_iff _

end DcutrResponder

end

end Minip2p.Dcutr
