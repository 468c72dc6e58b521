import Minip2p.Lib.Runs
import Minip2p.Ping.Moves

/-!
# The state of a ping peer

What the machine holds for a peer is bounded whatever the remote sends.
-/

namespace Minip2p.Ping

open SansIoProtocol (Call)

namespace PeerPingState

/-- At most two inbound streams, a ping in flight only with an outbound stream, and less than a
payload for each stream, of registered streams only. -/
structure WellFormed (state : PeerPingState) : Prop where
  inbound : state.inboundStreams.size ≤ 2
  pending : state.pendingPing.isSome → state.outboundStream.isSome
  known : ∀ s ∈ state.recvBufs, state.Knows s
  short : ∀ (s : StreamId) (buf : Bytes), state.recvBufs[s]? = some buf →
    buf.length < pingPayloadLen

variable {state state' : PeerPingState} {s t : StreamId}

/-- A new peer is well formed. -/
theorem wellFormed_default : WellFormed default where
  inbound := by
    rw [show (default : PeerPingState).inboundStreams = ∅ from rfl]
    simp
  pending h := by cases h
  known s h := by
    rw [show (default : PeerPingState).recvBufs = ∅ from rfl] at h
    simp at h
  short s buf h := by
    rw [show (default : PeerPingState).recvBufs = ∅ from rfl] at h
    simp at h

/-- A state with no other buffers than before. -/
theorem WellFormed.narrow (h : state.WellFormed) (hsize : state'.inboundStreams.size ≤ 2)
    (hpending : state'.pendingPing.isSome → state'.outboundStream.isSome)
    (hbufs : ∀ (s : StreamId) (buf : Bytes), state'.recvBufs[s]? = some buf →
      state.recvBufs[s]? = some buf ∧ (state.Knows s → state'.Knows s)) : state'.WellFormed where
  inbound := hsize
  pending := hpending
  known s hs := by
    obtain ⟨buf, hbuf⟩ := BTreeMap.exists_getElem?_of_mem hs
    obtain ⟨hold, hknows⟩ := hbufs s buf hbuf
    exact hknows (h.known s (BTreeMap.mem_of_getElem? hold))
  short s buf hbuf := h.short s buf (hbufs s buf hbuf).1

/-- Less than a ping is held back. -/
theorem WellFormed.received_lt (h : state.WellFormed) (s : StreamId) :
    (state.received s).length < pingPayloadLen := by
  rw [received]
  cases hbuf : state.recvBufs[s]? with
  | none => exact Nat.zero_lt_succ _
  | some buf => exact h.short s buf hbuf

/-- Nothing is held back of a stream that is not known. -/
theorem WellFormed.received_of_unknown (h : state.WellFormed) (hs : ¬ state.Knows s) :
    state.received s = [] := by
  rw [received]
  cases hbuf : state.recvBufs[s]? with
  | none => rfl
  | some buf => exact absurd (h.known s (BTreeMap.mem_of_getElem? hbuf)) hs

/-- The buffers that are left when that of `s` is dropped. -/
theorem getElem?_drop {buf : Bytes} (h : (state.recvBufs.erase s)[t]? = some buf) :
    state.recvBufs[t]? = some buf ∧ t ≠ s :=
  (BTreeMap.getElem?_erase_eq_some_iff.mp h).symm

/-- A registered stream stays so when another one is no longer inbound. -/
theorem knows_erase_inbound (hne : t ≠ s) (hout : state'.outboundStream = state.outboundStream)
    (hin : state'.inboundStreams = state.inboundStreams.erase s) (h : state.Knows t) :
    state'.Knows t := by
  rcases h with h | h
  · exact .inl (hout.trans h)
  · refine .inr ?_
    rw [hin]
    simpa [hne.symm] using h

/-- A registered stream stays so when another one is no longer outbound. -/
theorem knows_of_outbound (hne : t ≠ s) (hout : state.outboundStream = some s)
    (hin : state'.inboundStreams = state.inboundStreams) (h : state.Knows t) : state'.Knows t := by
  rcases h with h | h
  · exact absurd (Option.some.inj (h.symm.trans hout)) hne
  · exact .inr (hin ▸ h)

/-- Dropping what is held back keeps a peer well formed. -/
theorem WellFormed.drop (h : state.WellFormed) (s : StreamId) : (state.drop s).WellFormed :=
  h.narrow h.inbound h.pending fun _ _ ht => ⟨(getElem?_drop ht).1, id⟩

/-- A ping that is settled keeps a peer well formed. -/
theorem WellFormed.await_none (h : state.WellFormed) : (state.await none).WellFormed :=
  h.narrow h.inbound (fun hnone => by cases hnone) fun _ _ ht => ⟨ht, id⟩

/-- Holding back less than a ping keeps a peer well formed. -/
theorem WellFormed.keep (h : state.WellFormed) {buf : Bytes} (hknown : state.Knows s)
    (hlen : buf.length < pingPayloadLen) : (state.keep s buf).WellFormed where
  inbound := h.inbound
  pending := h.pending
  known t ht := by
    rcases BTreeMap.mem_insert_iff.mp ht with rfl | ht
    · exact hknown
    · exact h.known t ht
  short t buf' ht := by
    rcases BTreeMap.getElem?_insert_eq_some_iff.mp ht with ⟨-, rfl⟩ | ⟨-, ht⟩
    · exact hlen
    · exact h.short t buf' ht

/-- Giving the outbound stream up keeps a peer well formed. -/
theorem WellFormed.giveUp (h : state.WellFormed) (hout : state.outboundStream = some s) :
    WellFormed { state with
      outboundStream := none
      pendingPing := none
      recvBufs := state.recvBufs.erase s } := by
  refine h.narrow h.inbound (fun hnone => by cases hnone) ?_
  intro t buf ht
  obtain ⟨hold, hne⟩ := getElem?_drop ht
  exact ⟨hold, knows_of_outbound hne hout rfl⟩

/-- The end of an inbound stream keeps a peer well formed. -/
theorem WellFormed.endInbound (h : state.WellFormed) (s : StreamId) :
    WellFormed { state with
      inboundStreams := state.inboundStreams.erase s
      recvBufs := state.recvBufs.erase s } := by
  refine h.narrow (Nat.le_trans Std.ExtTreeSet.size_erase_le h.inbound) h.pending ?_
  intro t buf ht
  obtain ⟨hold, hne⟩ := getElem?_drop ht
  exact ⟨hold, knows_erase_inbound hne rfl rfl⟩

end PeerPingState

open PeerPingState

/-- Every move keeps a peer well formed. -/
theorem Move.wellFormed {timeoutMs : UInt64} {p : PeerId} {state state' : PeerPingState}
    {input : PingInput} {events : List PingEvent} {actions : List PingAction}
    (hmove : Move timeoutMs p state input state' events actions) (h : state.WellFormed) :
    state'.WellFormed := by
  cases hmove with
  | other | outboundExists | inboundExists | limitExceeded | refusePing | refuseClose
  | closeOutbound | unknownStream | unknownEnded | inTime => exact h
  | removed => exact wellFormed_default
  | registerOutbound hout =>
    refine h.narrow h.inbound (fun _ => rfl) ?_
    intro t buf ht
    refine ⟨ht, ?_⟩
    rintro (hknown | hknown)
    · cases hout.symm.trans hknown
    · exact .inr hknown
  | registerInbound hin hsize =>
    refine h.narrow ?_ h.pending ?_
    · exact Nat.le_trans Std.ExtTreeSet.size_insert_le (by omega)
    · intro t buf ht
      refine ⟨ht, Or.imp id ?_⟩
      intro hold
      rw [Std.ExtTreeSet.contains_insert, hold, Bool.or_true]
  | sendPing hout =>
    refine h.narrow h.inbound ?_ fun _ _ ht => ⟨ht, id⟩
    intro _
    show state.outboundStream.isSome
    rw [hout]
    rfl
  | oversize | echo => exact h.drop _
  | mismatch | rtt => exact (h.drop _).await_none
  | keep hknown hlen => exact h.keep hknown hlen
  | inboundEnded => exact h.endInbound _
  | outboundInterrupted _ _ hout => exact h.giveUp hout
  | outboundEnded _ hout => exact h.giveUp hout
  | timedOut hout => exact h.giveUp hout
  | outboundClosed hout =>
    -- the stream may be an inbound one as well
    exact (h.endInbound _).narrow (h.endInbound _).inbound (fun hnone => by cases hnone)
      fun t buf ht => ⟨ht, knows_of_outbound (getElem?_drop ht).2 hout rfl⟩
  | otherClosed => exact h.endInbound _

namespace PingProtocol

/-- Every peer of the machine has a well formed state. -/
def WellFormed (ping : PingProtocol) : Prop :=
  ∀ (p : PeerId) (state : PeerPingState), ping.peers[p]? = some state → state.WellFormed

theorem wellFormed_iff {ping : PingProtocol} :
    ping.WellFormed ↔ ∀ p, (ping.peerState p).WellFormed := by
  constructor
  · intro h p
    cases hpeer : ping.peers[p]? with
    | none =>
      rw [peerState_of_none hpeer]
      exact wellFormed_default
    | some state =>
      rw [peerState_of_some hpeer]
      exact h p state hpeer
  · intro h p state hpeer
    rw [← peerState_of_some hpeer]
    exact h p

/-- Every call keeps all peers well formed. -/
theorem wellFormed_after {ping : PingProtocol} (h : ping.WellFormed) (call : Call PingInput) :
    (ping.after call).WellFormed := by
  rw [wellFormed_iff] at h ⊢
  intro p
  cases call with
  | pollOutput =>
    rw [peerState_pollOutput]
    exact h p
  | handleInput input =>
    by_cases hinput : input.IsMigration
    · cases input with
      | migratePeer old new =>
        rcases peerState_migratePeer ping old new p with hnone | hsame | ⟨-, hmoved⟩
        · rw [after, handleInput, hnone]
          exact wellFormed_default
        · rw [after, handleInput, hsame]
          exact h p
        · rw [after, handleInput, hmoved]
          exact h old
      | _ => exact hinput.elim
    · exact (ping.move hinput p).wellFormed (h p)

/-- What an owner that drains the machine makes of it: some inputs later. -/
def Continues : PingProtocol → PingProtocol → Prop :=
  Relation.ReflTransGen fun ping ping' =>
    (∃ input, ping' = (ping.handleInput input).1) ∨ ping' = ping.drainOutputs.2

namespace Continues

variable {ping ping' : PingProtocol}

theorem refl : Continues ping ping := Relation.ReflTransGen.refl

theorem trans {ping'' : PingProtocol} (h : Continues ping ping') (h' : Continues ping' ping'') :
    Continues ping ping'' :=
  Relation.ReflTransGen.trans h h'

theorem of_eq (h : ping' = ping) : Continues ping ping' := h ▸ refl

theorem handleInput (ping : PingProtocol) (input : PingInput) :
    Continues ping (ping.handleInput input).1 :=
  Relation.ReflTransGen.single (.inl ⟨input, rfl⟩)

theorem drain (ping : PingProtocol) : Continues ping ping.drainOutputs.2 :=
  Relation.ReflTransGen.single (.inr rfl)

/-- What continues a well formed machine is well formed. -/
theorem wellFormed (h : Continues ping ping') (hping : ping.WellFormed) : ping'.WellFormed := by
  refine Runs.keeps_of_chain h (fun ping ping' hstep hping => ?_) hping
  rcases hstep with ⟨input, rfl⟩ | rfl
  · exact wellFormed_after hping (.handleInput input)
  · exact hping

end Continues

/-- A new machine is well formed. -/
theorem wellFormed_new (config : PingConfig) : (new config).WellFormed := by
  intro p state hpeer
  simp [new] at hpeer

/-- The machine is well formed after any sequence of calls. -/
theorem wellFormed_run (config : PingConfig) (calls : List (Call PingInput)) :
    (run config calls).WellFormed := by
  induction calls using List.reverseRecOn with
  | nil => exact wellFormed_new config
  | append_singleton calls call ih =>
    rw [run_concat]
    exact wellFormed_after ih call

end PingProtocol

end Minip2p.Ping
