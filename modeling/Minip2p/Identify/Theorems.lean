import Minip2p.Identify.Protocol

/-!
# What an input does to the identify machine

An input is about one stream of one peer: what it queues is for that stream or about that peer,
and no other peer gets a state. A rejected input queues nothing.
-/

namespace Minip2p.Identify

/-- The peer and the stream an input is about. -/
def IdentifyInput.target? : IdentifyInput → Option (PeerId × StreamId)
  | registerOutboundStream peerId streamId _ _ => some (peerId, streamId)
  | registerInboundStream peerId streamId => some (peerId, streamId)
  | streamData peerId streamId _ => some (peerId, streamId)
  | streamRemoteWriteClosed peerId streamId => some (peerId, streamId)
  | streamClosed peerId streamId => some (peerId, streamId)
  | removePeer _ => none
  | migratePeer _ _ => none

/-- The peer and the stream an action is for. -/
def IdentifyAction.target : IdentifyAction → PeerId × StreamId
  | send peerId streamId _ => (peerId, streamId)
  | closeStreamWrite peerId streamId => (peerId, streamId)

/-- The peer an event is about. -/
def IdentifyEvent.peerId : IdentifyEvent → PeerId
  | received peerId _ => peerId
  | error peerId _ _ => peerId

namespace IdentifyProtocol

/-- Nothing is left to poll. -/
def Idle (identify : IdentifyProtocol) : Prop := identify.actions = [] ∧ identify.events = []

/-- A new machine has nothing to poll. -/
theorem idle_new (config : IdentifyConfig) : (new config).Idle := ⟨rfl, rfl⟩

/-- What a step queues is for the stream `t` of the peer `p`, and no other peer gets a state. -/
structure For (p : PeerId) (t : StreamId) (identify identify' : IdentifyProtocol) : Prop where
  actions : ∀ a ∈ identify'.actions, a ∈ identify.actions ∨ a.target = (p, t)
  events : ∀ e ∈ identify'.events, e ∈ identify.events ∨ e.peerId = p
  peers : ∀ q, q ∈ identify'.peers → q ∈ identify.peers ∨ q = p

namespace For

variable {p : PeerId} {t : StreamId} {identify identify' : IdentifyProtocol}

theorem rfl : For p t identify identify :=
  ⟨fun _ ha => .inl ha, fun _ he => .inl he, fun _ hq => .inl hq⟩

/-- Setting a state queues nothing. -/
theorem setPeer {state : PeerIdentifyState} (h : For p t identify identify') :
    For p t identify (identify'.setPeer p state) := by
  refine ⟨h.actions, h.events, ?_⟩
  intro q hq
  have hcases : p = q ∨ q ∈ identify'.peers := by
    simpa only [IdentifyProtocol.setPeer, Std.ExtTreeMap.mem_insert,
      Std.compare_eq_iff_eq] using hq
  rcases hcases with heq | hmem
  · exact .inr heq.symm
  · exact h.peers q hmem

/-- Forgetting a peer queues nothing. -/
theorem erasePeer (h : For p t identify identify') (q : PeerId) :
    For p t identify { identify' with peers := identify'.peers.erase q } :=
  ⟨h.actions, h.events, fun r hr => h.peers r (Std.ExtTreeMap.mem_erase.mp hr).2⟩

/-- Both branches are about the stream. -/
theorem ite {b : Prop} [Decidable b] {left right : IdentifyProtocol}
    (hleft : For p t identify left) (hright : For p t identify right) :
    For p t identify (if b then left else right) := by
  split
  · exact hleft
  · exact hright

/-- An event about the peer is about the stream. -/
theorem pushEvent {event : IdentifyEvent} (h : For p t identify identify')
    (hevent : event.peerId = p) : For p t identify (identify'.pushEvent event) := by
  refine ⟨h.actions, ?_, h.peers⟩
  intro e he
  rcases List.mem_append.mp he with hold | hnew
  · exact h.events e hold
  · rw [List.mem_singleton.mp hnew]
    exact .inr hevent

/-- Actions on the stream are about it. -/
theorem pushActions {actions : List IdentifyAction} (h : For p t identify identify')
    (hactions : ∀ a ∈ actions, a.target = (p, t)) :
    For p t identify (identify'.pushActions actions) := by
  refine ⟨?_, h.events, h.peers⟩
  intro a ha
  rcases List.mem_append.mp ha with hold | hnew
  · exact h.actions a hold
  · exact .inr (hactions a hnew)

end For

/-- An idle machine that takes an input has only something to say about it. -/
theorem For.of_idle {p : PeerId} {t : StreamId} {identify identify' : IdentifyProtocol}
    (h : For p t identify identify') (hidle : identify.Idle) :
    (∀ a ∈ identify'.actions, a.target = (p, t)) ∧ ∀ e ∈ identify'.events, e.peerId = p := by
  constructor
  · intro a ha
    refine (h.actions a ha).resolve_left ?_
    rw [hidle.1]
    exact List.not_mem_nil
  · intro e he
    refine (h.events e he).resolve_left ?_
    rw [hidle.2]
    exact List.not_mem_nil

variable [MultihashCodec]

/-- `register_outbound_stream` refuses a second responder stream, or answers on this one. -/
theorem registerOutboundStream_cases (identify : IdentifyProtocol) (p : PeerId) (t : StreamId)
    (observedAddr : Option Multiaddr) (listenAddrs : List Multiaddr) :
    (∃ state e, identify.registerOutboundStream p t observedAddr listenAddrs =
        (identify.setPeer p state, .error e)) ∨
      ∃ state data, identify.registerOutboundStream p t observedAddr listenAddrs =
        (identify.setPeer p state, .ok [.send p t data, .closeStreamWrite p t]) := by
  simp only [registerOutboundStream]
  split
  · exact .inl ⟨_, _, rfl⟩
  · exact .inr ⟨_, _, rfl⟩

/-- An input only concerns its own stream. -/
theorem handleInput_for {input : IdentifyInput} {p : PeerId} {t : StreamId}
    (identify : IdentifyProtocol) (htarget : input.target? = some (p, t)) :
    For p t identify (identify.handleInput input).1 := by
  have hnil : ∀ a ∈ ([] : List IdentifyAction), a.target = (p, t) :=
    fun a ha => absurd ha List.not_mem_nil
  cases input with
  | registerOutboundStream peerId streamId observedAddr listenAddrs =>
    obtain ⟨rfl, rfl⟩ : peerId = p ∧ streamId = t := Prod.mk.inj (Option.some.inj htarget)
    rcases registerOutboundStream_cases identify peerId streamId observedAddr listenAddrs with
      ⟨state, e, heq⟩ | ⟨state, data, heq⟩
    · simp only [handleInput, heq]
      exact For.rfl.setPeer
    · simp only [handleInput, heq]
      refine For.rfl.setPeer.pushActions ?_
      intro a ha
      have hcases : a = .send peerId streamId data ∨ a = .closeStreamWrite peerId streamId := by
        simpa only [List.mem_cons, List.not_mem_nil, or_false] using ha
      rcases hcases with rfl | rfl
      · rfl
      · rfl
  | registerInboundStream peerId streamId =>
    obtain ⟨rfl, rfl⟩ : peerId = p ∧ streamId = t := Prod.mk.inj (Option.some.inj htarget)
    exact For.rfl.setPeer
  | streamData peerId streamId data =>
    obtain ⟨rfl, rfl⟩ : peerId = p ∧ streamId = t := Prod.mk.inj (Option.some.inj htarget)
    simp only [handleInput, extend, onStreamData]
    split
    · exact For.rfl.pushActions hnil
    · split
      · exact For.rfl.pushActions hnil
      · split
        · refine For.pushActions ?_ hnil
          exact For.rfl.setPeer.pushEvent rfl
        · exact For.rfl.setPeer.pushActions hnil
  | streamRemoteWriteClosed peerId streamId =>
    obtain ⟨rfl, rfl⟩ : peerId = p ∧ streamId = t := Prod.mk.inj (Option.some.inj htarget)
    simp only [handleInput, extend, onStreamRemoteWriteClosed]
    split
    · exact For.rfl.pushActions hnil
    · split
      · exact For.rfl.pushActions hnil
      · next buf _ =>
        have hevent : (receivedEvent peerId streamId buf).peerId = peerId := by
          rw [receivedEvent]
          split
          · rfl
          · rfl
        refine (For.rfl.setPeer.pushEvent hevent).pushActions ?_
        intro a ha
        rw [List.mem_singleton.mp ha]
        rfl
  | streamClosed peerId streamId =>
    obtain ⟨rfl, rfl⟩ : peerId = p ∧ streamId = t := Prod.mk.inj (Option.some.inj htarget)
    simp only [handleInput, onStreamClosed]
    split
    · exact For.rfl
    · apply For.ite
      · exact For.rfl.erasePeer peerId
      · exact For.rfl.setPeer
  | removePeer peerId => cases htarget
  | migratePeer old new => cases htarget

/-- A rejected input changes nothing. -/
theorem handleInput_refused {identify : IdentifyProtocol} {input : IdentifyInput}
    {e : IdentifyError} (h : (identify.handleInput input).2 = .error e) :
    (identify.handleInput input).1 = identify := by
  cases input with
  | registerOutboundStream peerId streamId observedAddr listenAddrs =>
    simp only [handleInput, registerOutboundStream] at h ⊢
    by_cases hstream : (identify.peers[peerId]?.getD default).outboundStream.isSome
    · rw [if_pos hstream]
      -- a state with a stream is not the default one, so it was there before
      cases hpeer : identify.peers[peerId]? with
      | none =>
        rw [hpeer] at hstream
        cases hstream
      | some state => simp only [setPeer, Option.getD_some, BTreeMap.insert_eq_self hpeer]
    · rw [if_neg hstream] at h
      cases h
  | registerInboundStream peerId streamId => cases h
  | streamData peerId streamId data => cases h
  | streamRemoteWriteClosed peerId streamId => cases h
  | streamClosed peerId streamId => cases h
  | removePeer peerId => cases h
  | migratePeer old new => cases h

/-- A rejected input queues nothing. -/
theorem idle_of_error {identify : IdentifyProtocol} {input : IdentifyInput} {e : IdentifyError}
    (hidle : identify.Idle) (h : (identify.handleInput input).2 = .error e) :
    (identify.handleInput input).1.Idle := by
  rw [handleInput_refused h]
  exact hidle

omit [MultihashCodec] in
/-- Moving a peer keeps the machine idle. -/
theorem migratePeer_idle {identify : IdentifyProtocol} (hidle : identify.Idle)
    (old new : PeerId) : (identify.migratePeer old new).Idle := by
  simp only [migratePeer]
  split
  · exact hidle
  · exact ⟨hidle.1, by rw [hidle.2]; rfl⟩

/-- Only the end of the remote's message makes it known. -/
theorem received_of_handleInput {identify : IdentifyProtocol} {input : IdentifyInput} {q : PeerId}
    {info : IdentifyMessage} (hidle : identify.Idle)
    (h : .received q info ∈ (identify.handleInput input).1.events) :
    ∃ t, input = .streamRemoteWriteClosed q t := by
  have hnone : ∀ e, e ∉ identify.events := by
    intro e he
    rw [hidle.2] at he
    cases he
  cases input with
  | registerOutboundStream p t observedAddr listenAddrs =>
    rcases registerOutboundStream_cases identify p t observedAddr listenAddrs with
      ⟨state, e, heq⟩ | ⟨state, data, heq⟩
    · simp only [handleInput, heq] at h
      exact absurd h (hnone _)
    · simp only [handleInput, heq] at h
      exact absurd h (hnone _)
  | registerInboundStream p t => exact absurd h (hnone _)
  | streamData p t data =>
    simp only [handleInput, extend, onStreamData] at h
    split at h
    · exact absurd h (hnone _)
    · split at h
      · exact absurd h (hnone _)
      · split at h
        · -- a message that is too long is an error
          rcases List.mem_append.mp h with h | h
          · exact absurd h (hnone _)
          · cases List.mem_singleton.mp h
        · exact absurd h (hnone _)
  | streamRemoteWriteClosed p t =>
    have hfor : For p t identify (identify.handleInput (.streamRemoteWriteClosed p t)).1 :=
      handleInput_for identify rfl
    have hq : q = p := (hfor.of_idle hidle).2 _ h
    exact ⟨t, by rw [hq]⟩
  | streamClosed p t =>
    have hevents : (identify.onStreamClosed p t).events = identify.events := by
      simp only [onStreamClosed]
      split
      · rfl
      · exact apply_ite IdentifyProtocol.events _ _ _ |>.trans (ite_self _)
    rw [handleInput, hevents] at h
    exact absurd h (hnone _)
  | removePeer p => exact absurd h (hnone _)
  | migratePeer old new =>
    have hmigrated : ((identify.handleInput (.migratePeer old new)).1).Idle :=
      migratePeer_idle hidle old new
    rw [hmigrated.2] at h
    cases h

end IdentifyProtocol

end Minip2p.Identify
