import Minip2p.Lib.Runs
import Minip2p.Swarm.Core

/-!
# Sessions of a swarm core

A session is a run of calls on a `SwarmCore`: inputs of the driver, calls of the application and
polls of the outputs, in any order. `TransportContract` is what the transport promises about the
events among them, given the calls before.
-/

namespace Minip2p

/-- The stream an event is about. -/
def TransportEvent.key? : TransportEvent → Option StreamKey
  | streamOpened id streamId => some ⟨id, streamId⟩
  | incomingStream id streamId => some ⟨id, streamId⟩
  | streamData id streamId _ => some ⟨id, streamId⟩
  | streamRemoteWriteClosed id streamId => some ⟨id, streamId⟩
  | streamClosed id streamId => some ⟨id, streamId⟩
  | _ => none

namespace Swarm

open Ping (Payload)

/-- One call on a swarm core. -/
inductive Call
  | input (input : SwarmInput)
  | pollOutput
  | setLocalAddresses (addrs : List Multiaddr)
  | addUserProtocol (id : String)
  | ping (peerId : PeerId) (payload : Payload) (nowMs : UInt64)
  | openUserStream (peerId : PeerId) (protocolId : String)
  | sendUserStream (peerId : PeerId) (streamId : StreamId) (data : Bytes)
  | closeUserStreamWrite (peerId : PeerId) (streamId : StreamId)
  | resetUserStream (peerId : PeerId) (streamId : StreamId)
  | disconnect (peerId : PeerId)
deriving DecidableEq, Repr

/-- The core after a call. -/
def step [Sha256] [MultihashCodec] (core : SwarmCore) : Call → SwarmCore
  | .input input => core.handleInput input
  | .pollOutput => core.pollOutput.1
  | .setLocalAddresses addrs => core.setLocalAddresses addrs
  | .addUserProtocol id => core.addUserProtocol id
  | .ping peerId payload nowMs => (core.pingPeer peerId payload nowMs).1
  | .openUserStream peerId protocolId => (core.openUserStream peerId protocolId).1
  | .sendUserStream peerId streamId data => (core.sendUserStream peerId streamId data).1
  | .closeUserStreamWrite peerId streamId => (core.closeUserStreamWrite peerId streamId).1
  | .resetUserStream peerId streamId => (core.resetUserStream peerId streamId).1
  | .disconnect peerId => (core.disconnect peerId).1

/-- The core after a run. -/
def run [Sha256] [MultihashCodec] (core : SwarmCore) (calls : List Call) : SwarmCore :=
  calls.foldl step core

section Run

variable [Sha256] [MultihashCodec] (core : SwarmCore)

@[simp] theorem run_nil : run core [] = core := rfl

@[simp] theorem run_concat (calls : List Call) (call : Call) :
    run core (calls ++ [call]) = step (run core calls) call := by
  rw [run, List.foldl_append, List.foldl_cons, List.foldl_nil, run]

/-- What every call keeps holds after every run. -/
theorem run_keeps {I : SwarmCore → Prop} (hstep : ∀ s call, I s → I (step s call)) (h : I core)
    (calls : List Call) : I (run core calls) := by
  induction calls generalizing core with
  | nil => exact h
  | cons call calls ih => exact ih _ (hstep core call h)

end Run

/-! ## What a call is about -/

namespace Call

/-- A call that hands over a transport event at time zero. -/
abbrev event (event : TransportEvent) : Call := .input (.transport event 0)

/-- The event of the transport that a call hands over. -/
def transportEvent? : Call → Option TransportEvent
  | .input (.transport event _) => some event
  | _ => none

/-- The connection of the transport event. -/
def eventConn? (call : Call) : Option ConnectionId := call.transportEvent?.bind (·.conn?)

/-- The stream of the transport event, or the one the driver opened. -/
def key? : Call → Option StreamKey
  | .input (.transport event _) => event.key?
  | .input (.streamOpened connId streamId _ _) => some ⟨connId, streamId⟩
  | _ => none

/-- The connection a call is about: of the transport event, or of the stream the driver
opened. -/
def conn? : Call → Option ConnectionId
  | .input (.transport event _) => event.conn?
  | .input (.streamOpened connId _ _ _) => some connId
  | _ => none

/-- The stream that first appears with a call. -/
def announces? : Call → Option StreamKey
  | .input (.transport (.incomingStream id streamId) _) => some ⟨id, streamId⟩
  | .input (.streamOpened connId streamId _ _) => some ⟨connId, streamId⟩
  | _ => none

/-- The connection that becomes connected with a call. -/
def connects? : Call → Option ConnectionId
  | .input (.transport (.connected id _) _) => some id
  | _ => none

/-- The incoming connection that first appears with a call. -/
def accepts? : Call → Option ConnectionId
  | .input (.transport (.incomingConnection id _) _) => some id
  | _ => none

/-- Data on a stream. -/
def isData : Call → Bool
  | .input (.transport (.streamData _ _ _) _) => true
  | _ => false

/-- The stream that ends with a call. -/
def endsStream? : Call → Option StreamKey
  | .input (.transport (.streamClosed c t) _) => some ⟨c, t⟩
  | _ => none

/-- The connection that closes with a call. -/
def closes? : Call → Option ConnectionId
  | .input (.transport (.closed id) _) => some id
  | _ => none

end Call

/-! ## The transport contract -/

/-- The connection was reported as connected. -/
def Connected (calls : List Call) (c : ConnectionId) : Prop :=
  ∃ call ∈ calls, call.connects? = some c

/-- The connection was reported as incoming. -/
def Accepted (calls : List Call) (c : ConnectionId) : Prop :=
  ∃ call ∈ calls, call.accepts? = some c

/-- The connection was reported as closed. -/
def Closed (calls : List Call) (c : ConnectionId) : Prop :=
  ∃ call ∈ calls, call.closes? = some c

/-- The stream was reported, as incoming or as opened by the driver. -/
def Announced (calls : List Call) (k : StreamKey) : Prop :=
  ∃ call ∈ calls, call.announces? = some k

instance (calls : List Call) (c : ConnectionId) : Decidable (Connected calls c) :=
  inferInstanceAs (Decidable (∃ call ∈ calls, call.connects? = some c))

instance (calls : List Call) (c : ConnectionId) : Decidable (Accepted calls c) :=
  inferInstanceAs (Decidable (∃ call ∈ calls, call.accepts? = some c))

instance (calls : List Call) (c : ConnectionId) : Decidable (Closed calls c) :=
  inferInstanceAs (Decidable (∃ call ∈ calls, call.closes? = some c))

instance (calls : List Call) (k : StreamKey) : Decidable (Announced calls k) :=
  inferInstanceAs (Decidable (∃ call ∈ calls, call.announces? = some k))

/-- The promises about one transport event: connection and stream ids are fresh, a connection is
connected at most once and before its identity and its streams, and nothing follows its close. -/
def EventContract (before : List Call) : TransportEvent → Prop
  | .connected c _ => ¬ Connected before c ∧ ¬ Closed before c
  | .incomingConnection c _ => ¬ Connected before c ∧ ¬ Accepted before c ∧ ¬ Closed before c
  | .incomingStream c s =>
    Connected before c ∧ ¬ Closed before c ∧ ¬ Announced before ⟨c, s⟩
  | .peerIdentityVerified c _ _ => Connected before c ∧ ¬ Closed before c
  | .streamOpened c _ => Connected before c ∧ ¬ Closed before c
  | .streamData c _ _ => Connected before c ∧ ¬ Closed before c
  | .streamRemoteWriteClosed c _ => Connected before c ∧ ¬ Closed before c
  | .streamClosed c _ => Connected before c ∧ ¬ Closed before c
  | .closed c => ¬ Closed before c
  | .error c _ => ¬ Closed before c
  | .listening _ => True

/-- The promises about one call. A driver may answer late, even for a connection that has closed,
but it never opens a stream under an id that was used before. Calls of the application, ticks
and polls come at any time. -/
def TransportContract (before : List Call) : Call → Prop
  | .input (.transport event _) => EventContract before event
  | .input (.streamOpened connId streamId _ _) => ¬ Announced before ⟨connId, streamId⟩
  | _ => True

instance (before : List Call) : (event : TransportEvent) → Decidable (EventContract before event)
  | .connected c _ => inferInstanceAs (Decidable (¬ Connected before c ∧ ¬ Closed before c))
  | .incomingConnection c _ => inferInstanceAs
      (Decidable (¬ Connected before c ∧ ¬ Accepted before c ∧ ¬ Closed before c))
  | .incomingStream c s => inferInstanceAs
      (Decidable (Connected before c ∧ ¬ Closed before c ∧ ¬ Announced before ⟨c, s⟩))
  | .peerIdentityVerified c _ _ =>
    inferInstanceAs (Decidable (Connected before c ∧ ¬ Closed before c))
  | .streamOpened c _ => inferInstanceAs (Decidable (Connected before c ∧ ¬ Closed before c))
  | .streamData c _ _ => inferInstanceAs (Decidable (Connected before c ∧ ¬ Closed before c))
  | .streamRemoteWriteClosed c _ =>
    inferInstanceAs (Decidable (Connected before c ∧ ¬ Closed before c))
  | .streamClosed c _ => inferInstanceAs (Decidable (Connected before c ∧ ¬ Closed before c))
  | .closed c => inferInstanceAs (Decidable (¬ Closed before c))
  | .error c _ => inferInstanceAs (Decidable (¬ Closed before c))
  | .listening _ => .isTrue trivial

instance (before : List Call) : (call : Call) → Decidable (TransportContract before call)
  | .input (.transport event _) => inferInstanceAs (Decidable (EventContract before event))
  | .input (.streamOpened connId streamId _ _) =>
    inferInstanceAs (Decidable (¬ Announced before ⟨connId, streamId⟩))
  | .input (.tick _) => .isTrue trivial
  | .input (.openStreamFailed _ _ _) => .isTrue trivial
  | .input (.runtimeError _) => .isTrue trivial
  | .pollOutput => .isTrue trivial
  | .setLocalAddresses _ => .isTrue trivial
  | .addUserProtocol _ => .isTrue trivial
  | .ping _ _ _ => .isTrue trivial
  | .openUserStream _ _ => .isTrue trivial
  | .sendUserStream _ _ _ => .isTrue trivial
  | .closeUserStreamWrite _ _ => .isTrue trivial
  | .resetUserStream _ _ => .isTrue trivial
  | .disconnect _ => .isTrue trivial

/-- A run that obeys the transport contract. -/
def ContractRun (calls : List Call) : Prop := Runs.EachStep TransportContract [] calls

instance (calls : List Call) : Decidable (ContractRun calls) :=
  inferInstanceAs (Decidable (Runs.EachStep TransportContract [] calls))

/-! ## A small setting for concrete runs

Connection ids below `10 ^ 19` have synthetic keys of at most 42 bytes, which are inlined and not
hashed, so any digest function stands for SHA-256 on them. -/

namespace Sample

/-- A digest that keeps the last 32 bytes. -/
@[reducible] def sha256 : Sha256 where
  digest bytes :=
    ⟨((bytes.drop (bytes.length - 32) ++ List.replicate 32 0).take 32).toArray, by simp⟩

/-- A new core. -/
def core : SwarmCore :=
  .new { protocolVersion := "ipfs/0.1.0", agentVersion := "minip2p/0.1.0", protocols := [],
         publicKey := [] } default

/-- A peer with an inlined key. -/
def alice : PeerId := ⟨⟨Minip2p.identityMultihashCode, [1], by decide⟩⟩

/-- An endpoint of a peer, or of a connection whose peer is not known. -/
def endpoint (peerId : Option PeerId) : ConnectionEndpoint := ⟨⟨[]⟩, peerId⟩

/-- The core after a run. -/
def run (calls : List Call) : SwarmCore := @Swarm.run sha256 multihashCodec core calls

end Sample

end Swarm

end Minip2p
