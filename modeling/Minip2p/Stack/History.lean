import Minip2p.Quic.OpenStreams
import Minip2p.Swarm.Handshake

/-!
# What the core is told about the connections of a QUIC transport

The history of a swarm over QUIC is the list of calls the driver has made on the core, followed by
the transport events that are still on their way there. `Mirrored` says what the history and the
transport's entry of a connection have to do with each other; from it follows that the next event
may be told (`Known`).
-/

namespace Minip2p.Stack

open Swarm (Call Connected Accepted Closed Announced TransportContract EventContract HandshakeRun
  lastEvent?)
open Swarm.SwarmCore (syntheticPeerId)
open Quic (isLocalId QuicConnection StreamRuntimeState)

/-- The calls on the core, and after them the events that are on their way there. -/
def history (told : List Call) (nowMs : UInt64) (events : List TransportEvent) : List Call :=
  told ++ events.map fun event => .input (.transport event nowMs)

section History

variable {told : List Call} {nowMs : UInt64} {events : List TransportEvent} {call : Call}

@[simp] theorem history_nil : history told nowMs [] = told := List.append_nil told

/-- One more event is one more call. -/
@[simp] theorem history_concat (event : TransportEvent) :
    history told nowMs (events ++ [event]) =
      history told nowMs events ++ [.input (.transport event nowMs)] := by
  rw [history, List.map_append, ← List.append_assoc, history]
  rfl

/-- One of the calls, or the last one. -/
theorem exists_mem_concat {P : Call → Prop} :
    (∃ x ∈ told ++ [call], P x) ↔ (∃ x ∈ told, P x) ∨ P call := by
  simp only [List.mem_append, List.mem_singleton, or_and_right, exists_or, exists_eq_left]

/-- A connection is reported by the calls before, or by the last one. -/
theorem connected_concat_iff {c : ConnectionId} :
    Connected (told ++ [call]) c ↔ Connected told c ∨ call.connects? = some c :=
  exists_mem_concat

/-- A connection is accepted by the calls before, or by the last one. -/
theorem accepted_concat_iff {c : ConnectionId} :
    Accepted (told ++ [call]) c ↔ Accepted told c ∨ call.accepts? = some c :=
  exists_mem_concat

/-- A connection is closed by the calls before, or by the last one. -/
theorem closed_concat_iff {c : ConnectionId} :
    Closed (told ++ [call]) c ↔ Closed told c ∨ call.closes? = some c :=
  exists_mem_concat

/-- A stream is announced by the calls before, or by the last one. -/
theorem announced_concat_iff {k : StreamKey} :
    Announced (told ++ [call]) k ↔ Announced told k ∨ call.announces? = some k :=
  exists_mem_concat

/-- A connection is reported in one part of the calls or the other. -/
theorem connected_append_iff {more : List Call} {c : ConnectionId} :
    Connected (told ++ more) c ↔ Connected told c ∨ Connected more c := by
  simp only [Connected, List.mem_append, or_and_right, exists_or]

/-- The latest event is one of the events. -/
theorem mem_of_lastEvent? {event : TransportEvent} (h : lastEvent? told = some event) :
    ∃ nowMs, .input (.transport event nowMs) ∈ told := by
  obtain ⟨call, hcall, hevent⟩ := List.mem_filterMap.mp (List.mem_of_getLast? h)
  rcases call with (⟨e, nowMs⟩ | _ | _ | _ | _) | _
  case input.transport =>
    obtain rfl := Option.some.inj hevent
    exact ⟨nowMs, hcall⟩
  all_goals cases hevent

/-- A connection whose last event is its report was reported. -/
theorem connected_of_lastEvent? {c : ConnectionId} {endpoint : ConnectionEndpoint}
    (h : lastEvent? told = some (.connected c endpoint)) : Connected told c := by
  obtain ⟨nowMs, hcall⟩ := mem_of_lastEvent? h
  exact ⟨_, hcall, rfl⟩

/-- What was announced stays announced. -/
theorem announced_history {told : List Call} {events : List TransportEvent} {k : StreamKey}
    (nowMs : UInt64) (h : Announced told k) : Announced (history told nowMs events) k := by
  obtain ⟨call, hcall, hk⟩ := h
  exact ⟨call, List.mem_append_left _ hcall, hk⟩

/-- A call told before the events on their way, or after them. -/
theorem history_tell_perm : (history (told ++ [call]) nowMs events).Perm
    (history told nowMs events ++ [call]) := by
  rw [history, history, List.append_assoc, List.append_assoc]
  exact List.Perm.append_left told List.perm_append_comm

end History

/-! ## What a call is about -/

section Calls

variable {call : Call} {c : ConnectionId} {k : StreamKey}

/-- A report of a connection is about it. -/
theorem conn?_of_connects? (h : call.connects? = some c) : call.conn? = some c := by
  unfold Call.connects? at h
  split at h
  · exact h
  · cases h

/-- A connection that is accepted is what the call is about. -/
theorem conn?_of_accepts? (h : call.accepts? = some c) : call.conn? = some c := by
  unfold Call.accepts? at h
  split at h
  · exact h
  · cases h

/-- A connection that closes is what the call is about. -/
theorem conn?_of_closes? (h : call.closes? = some c) : call.conn? = some c := by
  unfold Call.closes? at h
  split at h
  · exact h
  · cases h

/-- The announcement of a stream is about its connection. -/
theorem conn?_of_announces? (h : call.announces? = some k) : call.conn? = some k.conn := by
  unfold Call.announces? at h
  split at h
  · exact congrArg (Option.map StreamKey.conn) h
  · exact congrArg (Option.map StreamKey.conn) h
  · cases h

/-- Only a transport event connects, accepts or closes a connection. -/
theorem silent_of_no_event (h : call.transportEvent? = none) :
    call.connects? = none ∧ call.accepts? = none ∧ call.closes? = none := by
  rcases call with (⟨event, nowMs⟩ | _ | _ | _ | _) | _
  case input.transport => cases h
  all_goals exact ⟨rfl, rfl, rfl⟩

end Calls

/-! ## Quiet events -/

/-- An event that the transport reports on its own account between two polls. -/
def isQuiet : TransportEvent → Bool
  | .streamOpened .. | .streamClosed .. | .listening _ => true
  | _ => false

section Quiet

variable {event : TransportEvent} {nowMs : UInt64}

/-- A quiet event reports no connection. -/
theorem connects?_of_isQuiet (h : isQuiet event = true) :
    (Call.input (.transport event nowMs)).connects? = none := by
  cases event with
  | connected => cases h
  | _ => rfl

/-- A quiet event closes no connection. -/
theorem closes?_of_isQuiet (h : isQuiet event = true) :
    (Call.input (.transport event nowMs)).closes? = none := by
  cases event with
  | closed => cases h
  | _ => rfl

/-- A quiet event announces no stream of the remote. -/
theorem announces?_of_isQuiet (h : isQuiet event = true) :
    (Call.input (.transport event nowMs)).announces? = none := by
  cases event with
  | incomingStream => cases h
  | _ => rfl

end Quiet

/-! ## Histories -/

/-- Every connection is reported with a peer that was verified, and an identity is repeated only
right after its connection was reported with it. -/
def VerifiedIdentity (verified : PeerId → Prop) (before : List Call) : Call → Prop
  | .input (.transport (.connected _ endpoint) _) => ∃ p, endpoint.peerId = some p ∧ verified p
  | .input (.transport (.peerIdentityVerified c endpoint _) _) =>
    ∃ p connected, endpoint.peerId = some p ∧
      lastEvent? before = some (.connected c connected) ∧ connected.peerId = some p
  | _ => True

/-- A contract run of a transport that verifies its peers. -/
def VerifiedRun (verified : PeerId → Prop) (calls : List Call) : Prop :=
  Runs.EachStep (fun before call =>
    TransportContract before call ∧ VerifiedIdentity verified before call) [] calls

/-- A verified run is one in which the handshake gives the identity. -/
theorem VerifiedRun.handshake [Sha256] {verified : PeerId → Prop} {calls : List Call}
    (h : VerifiedRun verified calls) (hverified : ∀ p, verified p → ∀ c, p ≠ syntheticPeerId c) :
    HandshakeRun calls := by
  refine Runs.EachStep.mono h fun before call hcall => ⟨hcall.1, ?_⟩
  rcases call with (⟨event, nowMs⟩ | _ | _ | _ | _) | _
  case input.transport =>
    cases event with
    | connected c endpoint =>
      obtain ⟨p, hp, hgood⟩ := hcall.2
      exact ⟨p, hp, hverified p hgood⟩
    | peerIdentityVerified c endpoint previous => exact hcall.2
    | _ => trivial
  all_goals trivial

/-- A history that keeps the contract. The streams it announces are on connections it reports, and
the connections it names have ids below `next`. -/
structure Known (verified : PeerId → Prop) (told : List Call) (next : Nat) : Prop where
  run : VerifiedRun verified told
  announced : ∀ k, Announced told k → Connected told k.conn
  below : ∀ c, Connected told c ∨ Accepted told c ∨ Closed told c → c.asU64.toNat < next

namespace Known

variable {verified : PeerId → Prop} {told : List Call} {next next' : Nat} {call : Call}

/-- Before the first call nothing is known. -/
theorem nil (next : Nat) : Known verified [] next := by
  refine ⟨trivial, ?_, ?_⟩
  · rintro k ⟨x, hx, -⟩
    cases hx
  · rintro c (⟨x, hx, -⟩ | ⟨x, hx, -⟩ | ⟨x, hx, -⟩) <;> cases hx

/-- Ids that were given out stay given out. -/
theorem mono (h : Known verified told next) (hle : next ≤ next') : Known verified told next' :=
  ⟨h.run, h.announced, fun c hc => Nat.lt_of_lt_of_le (h.below c hc) hle⟩

/-- A connection whose id has not been handed out yet is not in the history. -/
theorem fresh (h : Known verified told next) {c : ConnectionId} (hc : next ≤ c.asU64.toNat) :
    ¬ Connected told c ∧ ¬ Accepted told c ∧ ¬ Closed told c := by
  have hnot : ∀ {P : Prop}, (P → Connected told c ∨ Accepted told c ∨ Closed told c) → ¬ P :=
    fun hP hp => absurd (h.below c (hP hp)) (Nat.not_lt.mpr hc)
  exact ⟨hnot .inl, hnot fun hp => .inr (.inl hp), hnot fun hp => .inr (.inr hp)⟩

/-- One more call that keeps the contract. -/
theorem concat (h : Known verified told next) (hcontract : TransportContract told call)
    (hidentity : VerifiedIdentity verified told call)
    (hannounces : ∀ k, call.announces? = some k → Connected told k.conn)
    (hbelow : ∀ c, call.conn? = some c → c.asU64.toNat < next) : Known verified (told ++ [call]) next := by
  refine ⟨?_, ?_, ?_⟩
  · refine Runs.eachStep_append.mpr ⟨h.run, ?_, trivial⟩
    rw [List.nil_append]
    exact ⟨hcontract, hidentity⟩
  · intro k hk
    rcases announced_concat_iff.mp hk with hold | hnew
    · exact (h.announced k hold).concat
    · exact (hannounces k hnew).concat
  · rintro c (hc | hc | hc)
    · rcases connected_concat_iff.mp hc with hold | hnew
      · exact h.below c (.inl hold)
      · exact hbelow c (conn?_of_connects? hnew)
    · rcases accepted_concat_iff.mp hc with hold | hnew
      · exact h.below c (.inr (.inl hold))
      · exact hbelow c (conn?_of_accepts? hnew)
    · rcases closed_concat_iff.mp hc with hold | hnew
      · exact h.below c (.inr (.inr hold))
      · exact hbelow c (conn?_of_closes? hnew)

/-- One more transport event. -/
theorem push (h : Known verified told next) {event : TransportEvent} {nowMs : UInt64}
    (hcontract : EventContract told event)
    (hidentity : VerifiedIdentity verified told (.input (.transport event nowMs)))
    (hbelow : ∀ c, event.conn? = some c → c.asU64.toNat < next) :
    Known verified (told ++ [.input (.transport event nowMs)]) next := by
  refine h.concat hcontract hidentity ?_ hbelow
  intro k hk
  cases event with
  | incomingStream c t =>
    cases hk
    exact hcontract.1
  | _ => cases hk

theorem identity_of_no_event (h : call.transportEvent? = none) :
    VerifiedIdentity verified told call := by
  rcases call with (⟨event, nowMs⟩ | _ | _ | _ | _) | _
  case input.transport => cases h
  all_goals trivial

/-- A call is told before quiet events. -/
theorem quiet_run {events : List TransportEvent} {nowMs : UInt64} {before before' : List Call}
    (hquiet : ∀ e ∈ events, isQuiet e = true)
    (hconnected : ∀ c, Connected before c → Connected before' c)
    (hclosed : ∀ c, Closed before' c → Closed before c)
    (h : Runs.EachStep (fun before call =>
        TransportContract before call ∧ VerifiedIdentity verified before call) before
      (events.map fun event => .input (.transport event nowMs))) :
    Runs.EachStep (fun before call =>
        TransportContract before call ∧ VerifiedIdentity verified before call) before'
      (events.map fun event => .input (.transport event nowMs)) := by
  induction events generalizing before before' with
  | nil => trivial
  | cons event events ih =>
    obtain ⟨⟨hcontract, -⟩, hrest⟩ := h
    have hevent := hquiet event List.mem_cons_self
    have hopen : ∀ {c : ConnectionId}, Connected before c ∧ ¬ Closed before c →
        Connected before' c ∧ ¬ Closed before' c := fun hc =>
      ⟨hconnected _ hc.1, fun hnow => hc.2 (hclosed _ hnow)⟩
    refine ⟨?_, ih (fun e he => hquiet e (List.mem_cons_of_mem _ he)) ?_ ?_ hrest⟩
    · cases event with
      | streamOpened c t => exact ⟨hopen hcontract, trivial⟩
      | streamClosed c t => exact ⟨hopen hcontract, trivial⟩
      | listening addr => exact ⟨trivial, trivial⟩
      | _ => cases hevent
    · intro c hc
      rw [connected_concat_iff] at hc ⊢
      exact hc.imp_left (hconnected c)
    · intro c hc
      rw [closed_concat_iff] at hc ⊢
      exact hc.imp_left (hclosed c)

/-- A call of the driver, while only quiet events are on their way. -/
theorem tell {events : List TransportEvent} {nowMs : UInt64}
    (h : Known verified (history told nowMs events) next) (hquiet : ∀ e ∈ events, isQuiet e = true)
    (hevent : call.transportEvent? = none) (hcontract : TransportContract told call)
    (hannounces : ∀ k, call.announces? = some k → Connected (history told nowMs events) k.conn) :
    Known verified (history (told ++ [call]) nowMs events) next := by
  obtain ⟨hconnects, haccepts, hcloses⟩ := silent_of_no_event hevent
  have hmem : ∀ {P : Call → Prop}, (∃ x ∈ history (told ++ [call]) nowMs events, P x) ↔
      (∃ x ∈ history told nowMs events, P x) ∨ P call := by
    intro P
    simp only [history_tell_perm.mem_iff]
    exact exists_mem_concat
  have hrun := Runs.eachStep_append.mp h.run
  refine ⟨?_, ?_, ?_⟩
  · refine Runs.eachStep_append.mpr ⟨Runs.eachStep_append.mpr ⟨hrun.1, ?_, trivial⟩, ?_⟩
    · rw [List.nil_append]
      exact ⟨hcontract, identity_of_no_event hevent⟩
    · refine quiet_run hquiet (fun c hc => ?_) (fun c hc => ?_) hrun.2
      · exact Connected.concat hc
      · refine (closed_concat_iff.mp hc).resolve_right fun hnow => ?_
        cases hcloses.symm.trans hnow
  · intro k hk
    refine hmem.mpr (.inl ?_)
    rcases hmem.mp hk with hold | hnew
    · exact h.announced k hold
    · exact hannounces k hnew
  · rintro c (hc | hc | hc)
    · refine h.below c (.inl ((hmem.mp hc).resolve_right fun hnow => ?_))
      cases hconnects.symm.trans hnow
    · refine h.below c (.inr (.inl ((hmem.mp hc).resolve_right fun hnow => ?_)))
      cases haccepts.symm.trans hnow
    · refine h.below c (.inr (.inr ((hmem.mp hc).resolve_right fun hnow => ?_)))
      cases hcloses.symm.trans hnow

end Known

/-! ## Streams and connections -/

/-- What the entry of a stream says, given whether quiche has finished reading the stream and
whether it has been announced. -/
structure StreamMirrored (server : Bool) (raw : UInt64) (finished announced : Prop)
    (entry : Option StreamRuntimeState) : Prop where
  notified : ∀ state, entry = some state → state.closedNotified = true →
    state.remoteWriteClosed = true
  ended : ∀ state, entry = some state → state.remoteWriteClosed = true → finished
  incoming : announced → isLocalId server raw = false →
    finished ∨ ∃ state, entry = some state ∧ state.incomingNotified = true

namespace StreamMirrored

variable {server : Bool} {raw : UInt64} {finished finished' announced announced' : Prop}
  {entry : Option StreamRuntimeState} {old state : StreamRuntimeState}

theorem mono (h : StreamMirrored server raw finished announced entry)
    (hfinished : finished → finished') (hannounced : announced' → announced) :
    StreamMirrored server raw finished' announced' entry where
  notified := h.notified
  ended := fun state hstate hclosed => hfinished (h.ended state hstate hclosed)
  incoming := fun hann hremote => (h.incoming (hannounced hann) hremote).imp_left hfinished

/-- The entry is written back with its flags, or with the mark of its end. -/
theorem update (h : StreamMirrored server raw finished announced (some old))
    (hincoming : old.incomingNotified = true → state.incomingNotified = true)
    (hremote : state.remoteWriteClosed = true → old.remoteWriteClosed = true ∨ finished)
    (hnotified : state.closedNotified = true →
      state.remoteWriteClosed = true) :
    StreamMirrored server raw finished announced (some state) where
  notified := by
    rintro _ ⟨⟩ hflag
    exact hnotified hflag
  ended := by
    rintro _ ⟨⟩ hclosed
    rcases hremote hclosed with hold | hfinished
    · exact h.ended old rfl hold
    · exact hfinished
  incoming := by
    intro hann hlocal
    refine (h.incoming hann hlocal).imp_right ?_
    rintro ⟨_, ⟨⟩, hold⟩
    exact ⟨state, rfl, hincoming hold⟩

/-- The entry of a stream of this side is made. -/
theorem create (hlocal : isLocalId server raw = true) :
    StreamMirrored server raw finished announced (some .default) where
  notified := by
    rintro _ ⟨⟩ ⟨⟩
  ended := by
    rintro _ ⟨⟩ ⟨⟩
  incoming := by
    intro _ hremote
    cases hlocal.symm.trans hremote

/-- The entry is marked as announced. -/
theorem announce (h : StreamMirrored server raw finished announced entry) :
    StreamMirrored server raw finished announced'
      (some { entry.getD .default with incomingNotified := true }) where
  notified := by
    rintro _ ⟨⟩ hflag
    cases entry with
    | none => cases hflag
    | some state => exact h.notified state rfl hflag
  ended := by
    rintro _ ⟨⟩ hclosed
    cases entry with
    | none => cases hclosed
    | some state => exact h.ended state rfl hclosed
  incoming := fun _ _ => .inr ⟨_, rfl, rfl⟩

/-- The entry is made without an announcement, because none is due. -/
theorem settle (h : StreamMirrored server raw finished announced entry)
    (hdue : isLocalId server raw = true ∨ (entry.getD .default).incomingNotified = true) :
    StreamMirrored server raw finished announced (some (entry.getD .default)) where
  notified := by
    rintro _ ⟨⟩ hflag
    cases entry with
    | none => cases hflag
    | some state => exact h.notified state rfl hflag
  ended := by
    rintro _ ⟨⟩ hclosed
    cases entry with
    | none => cases hclosed
    | some state => exact h.ended state rfl hclosed
  incoming := by
    intro _ hremote
    rcases hdue with hlocal | hnotified
    · cases hlocal.symm.trans hremote
    · exact .inr ⟨_, rfl, hnotified⟩

/-- The entry of a closed stream is collected. -/
theorem collected (h : StreamMirrored server raw finished announced (some old))
    (hflag : old.closedNotified = true) :
    StreamMirrored server raw finished announced none where
  notified := by rintro _ ⟨⟩
  ended := by rintro _ ⟨⟩
  incoming := fun _ _ => .inl (h.ended old rfl (h.notified old rfl hflag))

end StreamMirrored

/-- What the transport's entry of a connection and the history say about each other. `finished`
are the streams of which quiche has finished the reading. -/
structure Mirrored (server : Bool) (finished : UInt64 → Prop) (told : List Call)
    (id : ConnectionId) (conn : QuicConnection) : Prop where
  self : conn.id = id
  live : ¬ Closed told id
  connected : conn.state = .connected → Connected told id
  connecting : Connected told id → conn.state ≠ .connecting
  active : ∀ (raw : UInt64) (state : StreamRuntimeState),
    conn.streamStates[raw]? = some state → Connected told id
  streams : ∀ raw : UInt64, StreamMirrored server raw (finished raw) (Announced told ⟨id, ⟨raw⟩⟩)
    conn.streamStates[raw]?
  below : ∀ raw, Announced told ⟨id, ⟨raw⟩⟩ → isLocalId server raw = true →
    raw.toNat < conn.nextLocalBidiStreamId.toNat
  parity : isLocalId server conn.nextLocalBidiStreamId = true

namespace Mirrored

variable {server : Bool} {finished finished' : UInt64 → Prop} {told : List Call}
  {id : ConnectionId} {conn : QuicConnection} {call : Call}

/-- quiche finishes the reading of further streams. -/
theorem finish (h : Mirrored server finished told id conn)
    (hfinished : ∀ raw, finished raw → finished' raw) :
    Mirrored server finished' told id conn :=
  { h with streams := fun raw => (h.streams raw).mono (hfinished raw) fun hann => hann }

/-- A call that neither connects nor closes the connection. A stream it announces has its mark or
is below the counter. -/
theorem announce (h : Mirrored server finished told id conn)
    (hconnects : call.connects? ≠ some id) (hcloses : call.closes? ≠ some id)
    (hannounces : ∀ raw, call.announces? = some ⟨id, ⟨raw⟩⟩ →
      (isLocalId server raw = false → finished raw ∨
        ∃ state, conn.streamStates[raw]? = some state ∧ state.incomingNotified = true) ∧
      (isLocalId server raw = true → raw.toNat < conn.nextLocalBidiStreamId.toNat)) :
    Mirrored server finished (told ++ [call]) id conn where
  self := h.self
  live := fun hc => (closed_concat_iff.mp hc).elim h.live hcloses
  connected := fun hstate => (h.connected hstate).concat
  connecting := fun hc => h.connecting ((connected_concat_iff.mp hc).resolve_right hconnects)
  active := fun raw state hstate => (h.active raw state hstate).concat
  streams := fun raw =>
    { notified := (h.streams raw).notified
      ended := (h.streams raw).ended
      incoming := fun hann hremote => (announced_concat_iff.mp hann).elim
        (fun hold => (h.streams raw).incoming hold hremote)
        fun hnew => (hannounces raw hnew).1 hremote }
  below := fun raw hann hlocal => (announced_concat_iff.mp hann).elim
    (fun hold => h.below raw hold hlocal) fun hnew => (hannounces raw hnew).2 hlocal
  parity := h.parity

/-- The order of the history does not matter. -/
theorem perm (h : Mirrored server finished told id conn) {told' : List Call}
    (hperm : told.Perm told') : Mirrored server finished told' id conn := by
  have hmem : ∀ {P : Call → Prop}, (∃ x ∈ told, P x) ↔ ∃ x ∈ told', P x := by
    intro P
    simp only [hperm.mem_iff]
  exact
    { self := h.self
      live := fun hc => h.live (hmem.mpr hc)
      connected := fun hstate => hmem.mp (h.connected hstate)
      connecting := fun hc => h.connecting (hmem.mpr hc)
      active := fun raw state hstate => hmem.mp (h.active raw state hstate)
      streams := fun raw => (h.streams raw).mono (fun hf => hf) hmem.mpr
      below := fun raw hann => h.below raw (hmem.mpr hann)
      parity := h.parity }

/-- A call that says nothing new about the connection. -/
theorem concat (h : Mirrored server finished told id conn)
    (hconnects : call.connects? ≠ some id) (hcloses : call.closes? ≠ some id)
    (hannounces : ∀ t, call.announces? ≠ some ⟨id, t⟩) :
    Mirrored server finished (told ++ [call]) id conn :=
  h.announce hconnects hcloses fun raw hnew => absurd hnew (hannounces ⟨raw⟩)

/-- The connection is reported as connected, and its state says so. -/
theorem connect (h : Mirrored server finished told id conn) {conn' : QuicConnection}
    (hconnects : call.connects? = some id) (hcloses : call.closes? = none)
    (hannounces : call.announces? = none) (hself : conn'.id = conn.id)
    (hstate : conn'.state = .connected) (hstreams : conn'.streamStates = conn.streamStates)
    (hnext : conn'.nextLocalBidiStreamId = conn.nextLocalBidiStreamId) :
    Mirrored server finished (told ++ [call]) id conn' where
  self := hself.trans h.self
  live := by
    intro hc
    rcases closed_concat_iff.mp hc with hold | hnew
    · exact h.live hold
    · cases hcloses.symm.trans hnew
  connected := fun _ => Swarm.connected_of_connects hconnects
  connecting := by
    intro _ hconnecting
    cases hstate.symm.trans hconnecting
  active := fun _ _ _ => Swarm.connected_of_connects hconnects
  streams := by
    intro raw
    rw [hstreams]
    refine (h.streams raw).mono (fun hf => hf) fun hann => ?_
    rcases announced_concat_iff.mp hann with hold | hnew
    · exact hold
    · cases hannounces.symm.trans hnew
  below := by
    intro raw hann hlocal
    rw [hnext]
    rcases announced_concat_iff.mp hann with hold | hnew
    · exact h.below raw hold hlocal
    · cases hannounces.symm.trans hnew
  parity := by
    rw [hnext]
    exact h.parity

end Mirrored

end Minip2p.Stack
