import Minip2p.Quic.ConnectionTheorems

/-!
# The identity gate of a QUIC connection

Two properties of every run of a connection, whatever quiche and the socket do. A connection in
state Connected has a verified peer (`IdentityGate`), as long as the drain and the flush between
the end of the handshake and the certificate check succeed. And every stream event comes after
the Connected event of a verified peer (`StreamsAfterConnected`), as long as no stream is polled
or reset before it.
-/

namespace Minip2p.Quic

variable {W : Type} (verifyLibp2pCertificate : Bytes → Except String PeerId)
  (dialed : Option PeerId)

/-! ## Definitions -/

/-- One of `certs` was verified, and its peer id is `peerId` and the dialed one, if any. -/
def Certified (certs : List Bytes) (peerId : Option PeerId) : Prop :=
  ∃ der ∈ certs, ∃ p, verifyLibp2pCertificate der = .ok p ∧ peerId = some p ∧
    ∀ d, dialed = some d → d = p

/-- In state Connected the peer's certificate has been verified. -/
def IdentityGate (s : Session W) : Prop :=
  s.conn.state = .connected →
    Certified verifyLibp2pCertificate dialed s.peerCerts s.conn.endpoint.peerId

/-- A Connected event of a certified peer. -/
def CertifiedConnected (certs : List Bytes) : TransportEvent → Prop
  | .connected _ endpoint => Certified verifyLibp2pCertificate dialed certs endpoint.peerId
  | _ => False

/-- Whether an event is about a stream. -/
def isStreamEvent : TransportEvent → Bool
  | .incomingStream .. | .streamData .. | .streamRemoteWriteClosed .. | .streamClosed .. => true
  | _ => false

/-- Every stream event comes after an event in `P`. -/
def StreamsAfter (P : TransportEvent → Prop) (events : List TransportEvent) : Prop :=
  ∀ (i : Nat) (e : TransportEvent), events[i]? = some e → isStreamEvent e = true →
    ∃ (j : Nat) (c : TransportEvent), j < i ∧ events[j]? = some c ∧ P c

/-- Connected has been reported. -/
def Announced (events : List TransportEvent) : Prop :=
  ∃ id endpoint, TransportEvent.connected id endpoint ∈ events

/-- More certificates verify no less. -/
theorem Certified.mono {certs certs' : List Bytes} {peerId : Option PeerId}
    (h : Certified verifyLibp2pCertificate dialed certs peerId) (hsub : certs ⊆ certs') :
    Certified verifyLibp2pCertificate dialed certs' peerId := by
  obtain ⟨der, hmem, rest⟩ := h
  exact ⟨der, hsub hmem, rest⟩

theorem CertifiedConnected.mono {certs certs' : List Bytes} {e : TransportEvent}
    (h : CertifiedConnected verifyLibp2pCertificate dialed certs e) (hsub : certs ⊆ certs') :
    CertifiedConnected verifyLibp2pCertificate dialed certs' e := by
  cases e with
  | connected id endpoint => exact Certified.mono _ _ h hsub
  | _ => exact h

theorem StreamsAfter.mono {P Q : TransportEvent → Prop} {events : List TransportEvent}
    (h : StreamsAfter P events) (hPQ : ∀ e, P e → Q e) : StreamsAfter Q events := by
  intro i e he hstream
  obtain ⟨j, c, hj, hc, hP⟩ := h i e he hstream
  exact ⟨j, c, hj, hc, hPQ c hP⟩

/-- An event may follow when it is not about a stream, or something in `P` came before. -/
theorem StreamsAfter.push {P : TransportEvent → Prop} {events : List TransportEvent}
    {e : TransportEvent} (h : StreamsAfter P events)
    (he : isStreamEvent e = true → ∃ c ∈ events, P c) : StreamsAfter P (events ++ [e]) := by
  intro i x hx hstream
  -- an old event, the new one, or past the end
  rcases Nat.lt_trichotomy i events.length with hlt | heq | hgt
  · rw [List.getElem?_append_left hlt] at hx
    obtain ⟨j, c, hj, hc, hP⟩ := h i x hx hstream
    refine ⟨j, c, hj, ?_, hP⟩
    rw [List.getElem?_append_left (by omega)]
    exact hc
  · rw [heq, List.getElem?_concat_length] at hx
    cases hx
    obtain ⟨c, hmem, hP⟩ := he hstream
    obtain ⟨j, hj, hc⟩ := List.mem_iff_getElem.mp hmem
    refine ⟨j, c, by omega, ?_, hP⟩
    rw [List.getElem?_append_left hj, List.getElem?_eq_getElem hj, hc]
  · rw [List.getElem?_eq_none (by rw [List.length_append, List.length_singleton]; omega)] at hx
    cases hx

/-! ## The identity check -/

theorem rejectPeer_drains {q : Quiche W} {fuel : Nat} {P I : Session W → Prop} (hI : Drains q I)
    (hreject : ∀ s w message, P s → q.Silent s.world w →
      I (((s.push (.error s.conn.id message)).setWorld w).setState .closing))
    (message : String) (code : Nat) (reason : String) :
    Triple P (rejectPeer q fuel message code reason) (fun _ => I) I := by
  apply Triple.get_bind
  intro s₀ hs₀
  refine Triple.bind (Q := fun _ s => s = s₀.push (.error s₀.conn.id message))
    (Triple.modify fun s hs => by rw [hs]) fun _ => ?_
  refine Triple.bind (call_spec _ _) fun _ => ?_
  refine Triple.bind (Q := fun _ => I) (Triple.modify ?_) fun _ => hI.flush_keeps
  rintro s ⟨-, rfl⟩
  exact hreject s₀ _ message hs₀ (.close _ _ _)

theorem rejectPeer_triple {q : Quiche W} {fuel : Nat} {P I : Session W → Prop} (hI : Stable I)
    (hreject : ∀ s w message, P s →
      I (((s.push (.error s.conn.id message)).setWorld w).setState .closing))
    (message : String) (code : Nat) (reason : String) :
    Triple P (rejectPeer q fuel message code reason) (fun _ => I) I :=
  rejectPeer_drains hI.drains (fun s w message hs _ => hreject s w message hs) message code reason

/-- `verifyPeer` from `P`: it rejects the peer, or accepts the one that is certified by the
certificate that was just read. -/
theorem verifyPeer_drains [MultihashCodec] {q : Quiche W} {fuel : Nat} {P I E : Session W → Prop}
    (hP : Drains q P) (hcert : ∀ s der, P s → P (s.recordCert der))
    (hrejects : ∀ message code reason,
      Triple P (rejectPeer q fuel message code reason) (fun _ => I) E)
    (haccept : ∀ s der p, P s → der ∈ s.peerCerts → verifyLibp2pCertificate der = .ok p →
      (∀ d, s.conn.endpoint.peerId = some d → d = p) →
      I ((s.setPeerId p).push (.connected s.conn.id (s.setPeerId p).conn.endpoint))) :
    Triple P (verifyPeer q fuel verifyLibp2pCertificate) (fun _ => I) E := by
  refine Triple.bind (Q := fun _ => P)
    (Triple.modifyGet fun s hs => hP.silent s _ (.peerCert _) hs) fun cert => ?_
  split
  · exact hrejects _ _ _
  next der =>
  refine Triple.bind (Q := fun _ s => P s ∧ der ∈ s.peerCerts)
    (Triple.modify fun s hs =>
      ⟨hcert s der hs, List.mem_append_right _ (List.mem_singleton_self _)⟩)
    fun _ => ?_
  have hrejects' : ∀ message code reason,
      Triple (fun s => P s ∧ der ∈ s.peerCerts) (rejectPeer q fuel message code reason)
        (fun _ => I) E :=
    fun message code reason =>
      (hrejects message code reason).mono (fun _ hs => hs.1) (fun _ _ hs => hs) fun _ hs => hs
  split
  · exact hrejects' _ _ _
  next p hverify =>
  -- both accepting branches set the id and report the connection
  have haccepts : ∀ s₀ : Session W, P s₀ → der ∈ s₀.peerCerts →
      (∀ d, s₀.conn.endpoint.peerId = some d → d = p) →
      Triple (fun s => s = s₀) (do
        setPeerId p
        let s ← get
        pushEvent (.connected s.conn.id s.conn.endpoint)) (fun _ => I) E := by
    intro s₀ hs₀ hder hdialed
    refine Triple.bind (Q := fun _ s => s = s₀.setPeerId p)
      (Triple.modify fun s hs => by rw [hs]) fun _ => ?_
    apply Triple.get_bind
    rintro _ rfl
    apply Triple.modify
    rintro _ rfl
    exact haccept s₀ der p hs₀ hder hverify hdialed
  apply Triple.get_bind
  rintro s₀ ⟨hs₀, hder⟩
  split
  · next expected hexpected =>
    split
    · exact (hrejects' _ _ _).mono (fun s hs => hs ▸ ⟨hs₀, hder⟩) (fun _ _ hs => hs) fun _ hs => hs
    · next heq =>
      refine haccepts s₀ hs₀ hder fun d hd => ?_
      rw [hexpected] at hd
      cases hd
      exact not_not.mp heq
  · next hnone =>
    refine haccepts s₀ hs₀ hder fun d hd => ?_
    rw [hnone] at hd
    cases hd

/-- `verifyPeer` from `P`: a rejected peer leaves the connection closing. -/
theorem verifyPeer_triple [MultihashCodec] {q : Quiche W} {fuel : Nat} {P I : Session W → Prop}
    (hP : Stable P) (hI : Stable I)
    (hcert : ∀ s der, P s → P (s.recordCert der))
    (hreject : ∀ s w message, P s →
      I (((s.push (.error s.conn.id message)).setWorld w).setState .closing))
    (haccept : ∀ s der p, P s → der ∈ s.peerCerts → verifyLibp2pCertificate der = .ok p →
      (∀ d, s.conn.endpoint.peerId = some d → d = p) →
      I ((s.setPeerId p).push (.connected s.conn.id (s.setPeerId p).conn.endpoint))) :
    Triple P (verifyPeer q fuel verifyLibp2pCertificate) (fun _ => I) I :=
  verifyPeer_drains verifyLibp2pCertificate hP.drains hcert (rejectPeer_triple hI hreject) haccept

/-! ## State Connected -/

/-- The invariant behind the gate: the dialed id is in place until the handshake completes. -/
structure Gated (s : Session W) : Prop where
  dialing : s.conn.state = .connecting → s.conn.endpoint.peerId = dialed
  gate : IdentityGate verifyLibp2pCertificate dialed s

/-- The handshake has completed and the certificate is still to be checked. -/
def Unverified (s : Session W) : Prop :=
  s.conn.state = .connected ∧ s.conn.endpoint.peerId = dialed

theorem gated_permissive : Permissive (Gated (W := W) verifyLibp2pCertificate dialed) where
  world _ _ hs := ⟨hs.dialing, hs.gate⟩
  stream _ _ _ hs := ⟨hs.dialing, hs.gate⟩
  event _ _ _ hs := ⟨hs.dialing, hs.gate⟩
  nextStreamId _ _ hs := ⟨hs.dialing, hs.gate⟩
  gc _ hs := ⟨hs.dialing, hs.gate⟩

theorem unverified_stable : Stable (Unverified (W := W) dialed) where
  world _ _ hs := hs
  writes _ _ _ _ _ hs := hs
  note _ _ _ _ _ _ hs := hs

theorem gated_of_closing {s : Session W} (h : s.conn.state = .closing) :
    Gated verifyLibp2pCertificate dialed s :=
  ⟨fun h' => ConnectionState.noConfusion (h.symm.trans h'),
    fun h' => ConnectionState.noConfusion (h.symm.trans h')⟩

theorem closing_stable : Stable fun s : Session W => s.conn.state = .closing where
  world _ _ hs := hs
  writes _ _ _ _ _ hs := hs
  note _ _ _ _ _ _ hs := hs

/-- `verify_peer` connects with a certified peer id or closes the connection. -/
theorem verifyPeer_gated [MultihashCodec] {q : Quiche W} {fuel : Nat} :
    Triple (Unverified dialed) (verifyPeer q fuel verifyLibp2pCertificate)
      (fun _ => Gated verifyLibp2pCertificate dialed) (Gated verifyLibp2pCertificate dialed) := by
  refine verifyPeer_triple verifyLibp2pCertificate (unverified_stable dialed)
    (gated_permissive verifyLibp2pCertificate dialed).steady.toStable (fun _ _ hs => hs) ?_ ?_
  · intro s w message hs
    exact gated_of_closing _ _ rfl
  · rintro s der p ⟨hstate, hpeer⟩ hder hverify hdialed
    refine ⟨fun h => ?_, fun _ => ⟨der, hder, p, hverify, rfl, ?_⟩⟩
    · exact absurd (hstate.symm.trans h) (by decide)
    · intro d hd
      exact hdialed d (hpeer.trans hd)

/-- What a packet finds once it has been received: the session `recv_packet` decides on. -/
def afterRecv (q : Quiche W) (buf : Bytes) (s : Session W) : Session W :=
  s.setWorld (q.recv buf s.world).2

/-- The packet was not refused, and the handshake has completed on it. -/
def HandshakeCompletes (q : Quiche W) (buf : Bytes) (s : Session W) : Prop :=
  (∀ e, (q.recv buf s.world).1 ≠ .error (.other e)) ∧ s.conn.state = .connecting ∧
    (q.isEstablished (afterRecv q buf s).world).1 = true

/-- The session in which the handshake has completed, before the queued writes are drained. -/
def afterHandshake (q : Quiche W) (buf : Bytes) (s : Session W) : Session W :=
  ((afterRecv q buf s).setWorld (q.isEstablished (afterRecv q buf s).world).2).setState .connected

/-- Where the handshake completes on a packet, quiche and the socket take what is then drained
and flushed. -/
def HandshakeSends (q : Quiche W) (fuel : Nat) (s : Session W) : Call → Prop
  | .recvPacket buf => HandshakeCompletes q buf s →
    ∀ e s', Prog.exec (drainAndFlush q fuel) (afterHandshake q buf s) ≠ some (.error e, s')
  | _ => True

/-- `recv_packet` from a session `s₀`, by what it decides there. -/
theorem recvPacket_exits [MultihashCodec] {q : Quiche W} {fuel : Nat} {buf : Bytes}
    {s₀ : Session W} {P E : Session W → Prop}
    (hrefused : ∀ message, P ((afterRecv q buf s₀).push (.error s₀.conn.id message)))
    (hhandshake : HandshakeCompletes q buf s₀ →
      Triple (fun s => s = afterHandshake q buf s₀) (do
        drainAndFlush q fuel
        verifyPeer q fuel verifyLibp2pCertificate) (fun _ => P) E)
    (hother : ∀ s₁, s₁ = afterRecv q buf s₀ ∨
        s₁ = (afterRecv q buf s₀).setWorld (q.isEstablished (afterRecv q buf s₀).world).2 →
      Triple (fun s => s = s₁) (drainAndFlush q fuel) (fun _ => P) E) :
    Triple (fun s => s = s₀) (recvPacket q fuel verifyLibp2pCertificate buf) (fun _ => P) E := by
  refine Triple.bind (Q := fun answer s => s = afterRecv q buf s₀ ∧
    answer = (q.recv buf s₀.world).1) (Triple.modifyGet ?_) fun answer => ?_
  · rintro _ rfl
    exact ⟨rfl, rfl⟩
  split
  · -- quiche refused the packet
    apply Triple.get_bind
    rintro _ ⟨rfl, -⟩
    apply Triple.modify
    rintro _ rfl
    exact hrefused _
  next hanswer =>
  -- quiche took the packet: did it complete the handshake?
  have hdecide : Triple (fun s => s = afterRecv q buf s₀ ∧ answer = (q.recv buf s₀.world).1)
      (handshakeCompleted q)
      (fun completed s => (completed = true → HandshakeCompletes q buf s₀ ∧
        s.setState .connected = afterHandshake q buf s₀) ∧ (s = afterRecv q buf s₀ ∨
          s = (afterRecv q buf s₀).setWorld (q.isEstablished (afterRecv q buf s₀).world).2)) E := by
    apply Triple.get_bind
    rintro _ ⟨rfl, heq⟩
    split
    · next hstate =>
      apply Triple.modifyGet
      rintro _ rfl
      refine ⟨fun hestablished => ⟨⟨?_, hstate, hestablished⟩, rfl⟩, .inr rfl⟩
      intro e he
      exact hanswer e (heq.trans he)
    · apply Triple.pure
      rintro _ rfl
      exact ⟨fun h => (Bool.false_ne_true h).elim, .inl rfl⟩
  refine Triple.bind hdecide fun completed => ?_
  split
  · next hcompleted =>
    intro s hs
    obtain ⟨hcompletes, hafter⟩ := hs.1 hcompleted
    have hset : Triple (fun s' => s' = s) (setState .connected : Method W Unit)
        (fun _ s => s = afterHandshake q buf s₀) E := by
      apply Triple.modify
      rintro _ rfl
      exact hafter
    exact Triple.bind hset (fun _ => hhandshake hcompletes) s rfl
  · intro s hs
    exact hother s hs.2 s rfl

/-- The same, when `P` is to hold whether it returns or fails. -/
theorem recvPacket_triple [MultihashCodec] {q : Quiche W} {fuel : Nat} {buf : Bytes}
    {s₀ : Session W} {P : Session W → Prop}
    (hrefused : ∀ message, P ((afterRecv q buf s₀).push (.error s₀.conn.id message)))
    (hhandshake : HandshakeCompletes q buf s₀ →
      Triple (fun s => s = afterHandshake q buf s₀) (do
        drainAndFlush q fuel
        verifyPeer q fuel verifyLibp2pCertificate) (fun _ => P) P)
    (hother : ∀ w, Triple (fun s => s = s₀.setWorld w) (drainAndFlush q fuel) (fun _ => P) P) :
    Triple (fun s => s = s₀) (recvPacket q fuel verifyLibp2pCertificate buf) (fun _ => P) P := by
  refine recvPacket_exits verifyLibp2pCertificate hrefused hhandshake ?_
  rintro s₁ (rfl | rfl)
  · exact hother _
  · exact hother _

/-- A packet keeps the gate when what the completed handshake drains and flushes is taken. -/
theorem recvPacket_gated [MultihashCodec] {q : Quiche W} {fuel : Nat} {buf : Bytes}
    {s₀ : Session W} (hs₀ : Gated verifyLibp2pCertificate dialed s₀)
    (hsends : HandshakeSends q fuel s₀ (.recvPacket buf)) :
    Triple (fun s => s = s₀) (recvPacket q fuel verifyLibp2pCertificate buf)
      (fun _ => Gated verifyLibp2pCertificate dialed) (Gated verifyLibp2pCertificate dialed) := by
  have hperm := gated_permissive (W := W) verifyLibp2pCertificate dialed
  refine recvPacket_triple verifyLibp2pCertificate ?_ ?_ ?_
  · intro message
    exact hperm.event _ _ (by rintro _ _ ⟨⟩) (hperm.world _ _ hs₀)
  · intro hcompletes
    refine Triple.bind (Q := fun _ => Unverified dialed) ?_ fun _ =>
      verifyPeer_gated verifyLibp2pCertificate dialed
    rintro _ rfl r s' hr
    -- the drain runs before the certificate is looked at
    have hunverified : Unverified dialed (afterHandshake q buf s₀) :=
      ⟨rfl, hs₀.dialing hcompletes.2.1⟩
    refine ⟨fun _ _ => ?_, fun e he => ?_⟩
    · exact (unverified_stable dialed).drainAndFlush_keeps.of_exec hunverified hr
    · rw [he] at hr
      exact absurd hr (hsends hcompletes e s')
  · intro w
    refine hperm.steady.drainAndFlush_keeps.mono ?_ (fun _ _ hs => hs) fun _ hs => hs
    rintro _ rfl
    exact hperm.world s₀ w hs₀

/-- Closing leaves the state Closing, unless quiche refuses. -/
theorem close_gated {q : Quiche W} {fuel : Nat} :
    Keeps (Gated (W := W) verifyLibp2pCertificate dialed) (close q fuel) := by
  have hperm := gated_permissive (W := W) verifyLibp2pCertificate dialed
  have hclosing : ∀ s : Session W, s.conn.state = .closing →
      Gated verifyLibp2pCertificate dialed s := fun s hs => gated_of_closing _ _ hs
  refine Keeps.bind Keeps.get fun s₀ => Keeps.bind (hperm.steady.call_keeps _) fun answer => ?_
  split
  · exact Keeps.throw _
  -- from here on the state is Closing, whether the drain fails or not
  refine Triple.mono (Q := fun _ s => s.conn.state = .closing)
    (E := fun s => s.conn.state = .closing) ?_ (fun _ hs => hs) (fun _ s hs => hclosing s hs)
    hclosing
  refine Triple.bind (Q := fun _ s => s.conn.state = .closing)
    (Triple.modify fun _ _ => rfl) fun _ => ?_
  refine Keeps.bind closing_stable.drainSendQueue_keeps.attempt fun drained => ?_
  refine Keeps.bind (Keeps.modify fun _ hs => hs) fun _ => ?_
  split
  · exact Keeps.throw _
  · exact closing_stable.flush_keeps

/-- In every run whose completed handshakes could send, a connection in state Connected has a
verified peer: its certificate passed `verify_libp2p_certificate`, the endpoint carries the id
proved by it, and that is the dialed id if one was given. -/
theorem identityGate_of_handshakeSends [MultihashCodec] (q : Quiche W) (fuel : Nat)
    (id : ConnectionId) (transport : Multiaddr) (world : W) (calls : List Call) (s : Session W)
    (hguard : GuardedRun q fuel verifyLibp2pCertificate (HandshakeSends q fuel)
      (new q id transport dialed world) calls)
    (hrun : run q fuel verifyLibp2pCertificate (new q id transport dialed world) calls = some s) :
    IdentityGate verifyLibp2pCertificate dialed s := by
  have hperm := gated_permissive (W := W) verifyLibp2pCertificate dialed
  have hnew : Gated verifyLibp2pCertificate dialed (new q id transport dialed world) :=
    ⟨fun _ => rfl, fun h => ConnectionState.noConfusion h⟩
  have hinv : Gated verifyLibp2pCertificate dialed s := by
    refine run_invariant ?_ hnew hguard hrun
    intro s call r s' hs hsends hexec
    cases call with
    | recvPacket buf =>
      exact (recvPacket_gated _ _ hs hsends).of_exec rfl hexec
    | pollStreams => exact hperm.pollStreams_keeps.of_exec hs hexec
    | openStream =>
      exact Keeps.of_exec (Keeps.bind hperm.steady.openStream_keeps fun _ => Keeps.pure _) hs hexec
    | sendStream streamId data => exact (hperm.steady.sendStream_keeps _ _).of_exec hs hexec
    | closeStreamWrite streamId => exact (hperm.steady.closeStreamWrite_keeps _).of_exec hs hexec
    | resetStream streamId => exact (hperm.resetStream_keeps _).of_exec hs hexec
    | close => exact (close_gated verifyLibp2pCertificate dialed).of_exec hs hexec
  exact hinv.gate

/-- A handshake that can send ends Connected and verified. -/
theorem identityGate_of_quiet_handshake :
    ∃ s, @run Unit multihashCodec quietQuiche 1 (fun _ => .ok somePeer)
        (dialedConnection quietQuiche) [.recvPacket []] = some s ∧
      s.conn.state = .connected ∧ IdentityGate (fun _ => .ok somePeer) (some somePeer) s := by
  refine ⟨_, rfl, rfl, ?_⟩
  refine @identityGate_of_handshakeSends Unit (fun _ => .ok somePeer) (some somePeer)
    multihashCodec quietQuiche 1 ⟨1⟩ ⟨[.quicV1]⟩ () [.recvPacket []] _
    ⟨?_, fun _ _ _ => trivial⟩ rfl
  intro _ e s' h
  cases h

/-- A peer without a certificate; quiche fails to send. -/
def brokenQuiche : Quiche Unit := constQuiche none (.error (.other "TlsFail")) []

/-- A handshake that completes while quiche cannot send leaves the connection Connected, although
no certificate was read. -/
theorem identityGate_fails_on_send_error :
    ∃ s, @run Unit multihashCodec brokenQuiche 1 (fun _ => .error "")
        (dialedConnection brokenQuiche) [.recvPacket []] = some s ∧
      s.conn.state = .connected ∧ s.peerCerts = [] ∧
      ¬ IdentityGate (fun _ => .error "") (some somePeer) s := by
  refine ⟨_, rfl, rfl, rfl, fun h => ?_⟩
  obtain ⟨der, hmem, -⟩ := h rfl
  cases hmem

/-! ## Stream events -/

/-- No stream is closed by the remote or reported closed. -/
def NoneClosed (s : Session W) : Prop :=
  ∀ (raw : UInt64) (state : StreamRuntimeState), s.conn.streamStates[raw]? = some state →
    state.remoteWriteClosed = false ∧ state.closedNotified = false

/-- The invariant behind the order of events. -/
structure Ordered (s : Session W) : Prop where
  dialing : s.conn.state = .connecting → s.conn.endpoint.peerId = dialed
  streams : StreamsAfter (CertifiedConnected verifyLibp2pCertificate dialed s.peerCerts) s.events
  certified : ∀ id endpoint, TransportEvent.connected id endpoint ∈ s.events →
    Certified verifyLibp2pCertificate dialed s.peerCerts endpoint.peerId
  quiet : ¬ Announced s.events → NoneClosed s

theorem Announced.push {events : List TransportEvent} (h : Announced events)
    (e : TransportEvent) : Announced (events ++ [e]) := by
  obtain ⟨id, endpoint, hmem⟩ := h
  exact ⟨id, endpoint, List.mem_append_left _ hmem⟩

/-- Writing back a stream with its closing flags still unset. -/
theorem NoneClosed.setStream {s : Session W} (h : NoneClosed s) {raw : UInt64}
    {state : StreamRuntimeState} (hremote : state.remoteWriteClosed = false)
    (hclosed : state.closedNotified = false) : NoneClosed (s.setStream raw state) := by
  intro raw' state' hstate'
  simp only [Session.setStream, Std.ExtTreeMap.getElem?_insert] at hstate'
  split at hstate'
  · cases hstate'
    exact ⟨hremote, hclosed⟩
  · exact h raw' state' hstate'

namespace Ordered

variable {verifyLibp2pCertificate dialed} {s : Session W}
  (h : Ordered verifyLibp2pCertificate dialed s)

include h

/-- A certified Connected event is there once Connected has been reported. -/
theorem exists_certified (hann : Announced s.events) :
    ∃ c ∈ s.events, CertifiedConnected verifyLibp2pCertificate dialed s.peerCerts c := by
  obtain ⟨id, endpoint, hmem⟩ := hann
  exact ⟨_, hmem, h.certified id endpoint hmem⟩

/-- An event other than Connected may follow when it is not about a stream or Connected has been
reported. -/
theorem push {e : TransportEvent} (hne : ∀ id endpoint, e ≠ .connected id endpoint)
    (he : isStreamEvent e = true → Announced s.events) :
    Ordered verifyLibp2pCertificate dialed (s.push e) where
  dialing := h.dialing
  streams := h.streams.push fun hstream => h.exists_certified (he hstream)
  certified id endpoint hmem := by
    rcases List.mem_append.mp hmem with hold | hnew
    · exact h.certified id endpoint hold
    · exact absurd (List.mem_singleton.mp hnew).symm (hne id endpoint)
  quiet hann := h.quiet fun hold => hann (hold.push e)

/-- Writing back a stream, with its closing flags unset until Connected has been reported. -/
theorem setStream {raw : UInt64} {state : StreamRuntimeState}
    (hstate : ¬ Announced s.events →
      state.remoteWriteClosed = false ∧ state.closedNotified = false) :
    Ordered verifyLibp2pCertificate dialed (s.setStream raw state) where
  dialing := h.dialing
  streams := h.streams
  certified := h.certified
  quiet hann := (h.quiet hann).setStream (hstate hann).1 (hstate hann).2

/-- Collecting streams reports nothing. -/
theorem gcStreams : Ordered verifyLibp2pCertificate dialed s.gcStreams where
  dialing := h.dialing
  streams := h.streams
  certified := h.certified
  quiet hann raw state hstate := by
    obtain ⟨hold, -⟩ := BTreeMap.getElem?_filter_eq_some_iff.mp hstate
    exact h.quiet hann raw state hold

end Ordered

theorem ordered_steady : Steady (Ordered (W := W) verifyLibp2pCertificate dialed) where
  world _ _ hs := ⟨hs.dialing, hs.streams, hs.certified, hs.quiet⟩
  writes s raw state _ hstate hs := hs.setStream fun hann => hs.quiet hann raw state hstate
  note s raw state hstate hclosed hnotified hs := by
    -- a stream can only be fully closed once Connected has been reported
    have hann : Announced s.events := by
      by_contra hann
      rw [StreamRuntimeState.isFullyClosed, (hs.quiet hann raw state hstate).1,
        Bool.and_false] at hclosed
      cases hclosed
    refine Ordered.push (hs.setStream fun h => absurd hann h) (by rintro _ _ ⟨⟩) fun _ => hann
  fresh s raw hs := hs.setStream fun _ => ⟨rfl, rfl⟩
  closeWrite s raw state _ hstate hs := hs.setStream fun hann => hs.quiet hann raw state hstate
  nextStreamId _ _ hs := ⟨hs.dialing, hs.streams, hs.certified, hs.quiet⟩
  gc _ hs := hs.gcStreams
  error s message hs := hs.push (by rintro _ _ ⟨⟩) fun h => (Bool.false_ne_true h).elim

/-- Once Connected has been reported, nothing a stream does breaks the order. -/
theorem announced_permissive : Permissive fun s : Session W =>
    Ordered verifyLibp2pCertificate dialed s ∧ Announced s.events where
  world _ _ hs := ⟨⟨hs.1.dialing, hs.1.streams, hs.1.certified, hs.1.quiet⟩, hs.2⟩
  stream _ _ _ hs := ⟨hs.1.setStream fun hann => absurd hs.2 hann, hs.2⟩
  event _ e he hs := ⟨hs.1.push he fun _ => hs.2, hs.2.push e⟩
  nextStreamId _ _ hs := ⟨⟨hs.1.dialing, hs.1.streams, hs.1.certified, hs.1.quiet⟩, hs.2⟩
  gc _ hs := ⟨hs.1.gcStreams, hs.2⟩

/-- Until Connected has been reported, no stream is polled while quiche reports readable ones,
and no stream is reset. -/
def StreamsWait (q : Quiche W) (s : Session W) : Call → Prop
  | .pollStreams => ¬ Announced s.events → (q.isEstablished s.world).1 = true →
    (q.readable (q.isEstablished s.world).2).1 = []
  | .resetStream streamId => ¬ Announced s.events →
    (s.conn.streamStates[streamId.asU64]? = none ∨
      (q.streamShutdown streamId.asU64 .write s.world).1 ≠ .ok () ∨
      (q.streamShutdown streamId.asU64 .read
        (q.streamShutdown streamId.asU64 .write s.world).2).1 ≠ .ok ())
  | _ => True

/-- A poll of the streams of an established connection reports them after `Connected`. -/
theorem pollStreams_ordered {q : Quiche W} {fuel : Nat} {s₀ : Session W}
    (hs₀ : Ordered verifyLibp2pCertificate dialed s₀) (hwait : StreamsWait q s₀ .pollStreams) :
    Triple (fun s => s = s₀) (pollStreams q fuel)
      (fun _ => Ordered verifyLibp2pCertificate dialed)
      (Ordered verifyLibp2pCertificate dialed) := by
  have hsteady := ordered_steady (W := W) verifyLibp2pCertificate dialed
  -- once Connected has been reported, streams are free to speak
  by_cases hann : Announced s₀.events
  · refine (announced_permissive verifyLibp2pCertificate dialed).pollStreams_keeps.mono ?_
      (fun _ _ hs => hs.1) fun _ hs => hs.1
    rintro _ rfl
    exact ⟨hs₀, hann⟩
  -- Connected has not been reported, so the loop over the readable streams is empty
  refine Triple.bind (Q := fun established s => established = (q.isEstablished s₀.world).1 ∧
    s = s₀.setWorld (q.isEstablished s₀.world).2) (Triple.modifyGet ?_) fun established => ?_
  · rintro _ rfl
    exact ⟨rfl, rfl⟩
  split
  · next hestablished =>
    refine Triple.bind (Q := fun readable s => readable = [] ∧
      Ordered verifyLibp2pCertificate dialed s) (Triple.modifyGet ?_) fun readable => ?_
    · rintro _ ⟨heq, rfl⟩
      exact ⟨hwait hann (heq.symm.trans hestablished), hsteady.world _ _ (hsteady.world _ _ hs₀)⟩
    · intro s hs
      obtain ⟨rfl, hs⟩ := hs
      exact (Keeps.bind (Keeps.pure _) fun _ => Keeps.bind hsteady.drainAndFlush_keeps fun _ =>
        Keeps.modify fun s hs => hsteady.gc s hs) s hs
  · apply Triple.pure
    rintro _ ⟨-, rfl⟩
    exact hsteady.world _ _ hs₀

theorem resetStream_ordered {q : Quiche W} {s₀ : Session W} {streamId : StreamId}
    (hs₀ : Ordered verifyLibp2pCertificate dialed s₀)
    (hwait : StreamsWait q s₀ (.resetStream streamId)) :
    Triple (fun s => s = s₀) (resetStream q streamId)
      (fun _ => Ordered verifyLibp2pCertificate dialed)
      (Ordered verifyLibp2pCertificate dialed) := by
  have hsteady := ordered_steady (W := W) verifyLibp2pCertificate dialed
  by_cases hann : Announced s₀.events
  · refine ((announced_permissive verifyLibp2pCertificate dialed).resetStream_keeps _).mono ?_
      (fun _ _ hs => hs.1) fun _ hs => hs.1
    rintro _ rfl
    exact ⟨hs₀, hann⟩
  apply Triple.get_bind
  intro s₁ hs₁
  subst s₁
  split
  · exact Triple.throw fun s hs => hs ▸ hs₀
  next state hstate =>
  -- one of the two shutdowns fails, so nothing after them runs
  have hshut : ∀ (direction : Shutdown) (side : String) (w : W),
      Triple (fun s => s = s₀.setWorld w) (shutdownStream q streamId direction side)
        (fun _ s => (q.streamShutdown streamId.asU64 direction w).1 = .ok () ∧
          s = s₀.setWorld (q.streamShutdown streamId.asU64 direction w).2)
        (Ordered verifyLibp2pCertificate dialed) := by
    intro direction side w
    apply Triple.get_bind
    rintro _ rfl
    refine Triple.bind (Q := fun answer s =>
      answer = (q.streamShutdown streamId.asU64 direction w).1 ∧
        s = s₀.setWorld (q.streamShutdown streamId.asU64 direction w).2)
      (Triple.modifyGet ?_) fun answer => ?_
    · rintro _ rfl
      exact ⟨rfl, rfl⟩
    split
    · exact Triple.pure fun s hs => ⟨hs.1.symm, hs.2⟩
    · apply Triple.throw
      rintro _ ⟨-, rfl⟩
      exact hsteady.world _ _ hs₀
  intro s hs
  have hs : s = s₀.setWorld s₀.world := hs
  refine Triple.bind (hshut .write "write" s₀.world) (fun _ => ?_) s hs
  intro s₁ hs₁
  refine Triple.bind (hshut .read "read" _) (fun _ => ?_) s₁ hs₁.2
  intro s₂ hs₂
  rcases hwait hann with hnone | hwrite | hread
  · rw [hstate] at hnone
    cases hnone
  · exact absurd hs₁.1 hwrite
  · exact absurd hs₂.1 hread

/-- A packet keeps the order: the drain before the certificate check reports no stream, because
none is closed by the remote before Connected. -/
theorem recvPacket_ordered [MultihashCodec] {q : Quiche W} {fuel : Nat} {buf : Bytes}
    {s₀ : Session W} (hs₀ : Ordered verifyLibp2pCertificate dialed s₀) :
    Triple (fun s => s = s₀) (recvPacket q fuel verifyLibp2pCertificate buf)
      (fun _ => Ordered verifyLibp2pCertificate dialed)
      (Ordered verifyLibp2pCertificate dialed) := by
  have hsteady := ordered_steady (W := W) verifyLibp2pCertificate dialed
  -- between the end of the handshake and the check
  have hpending : Stable fun s : Session W =>
      Ordered verifyLibp2pCertificate dialed s ∧ Unverified dialed s :=
    { world := fun s w hs => ⟨hsteady.world s w hs.1, hs.2⟩
      writes := fun s raw state writes hstate hs =>
        ⟨hsteady.writes s raw state writes hstate hs.1, hs.2⟩
      note := fun s raw state hstate hclosed hnotified hs =>
        ⟨hsteady.note s raw state hstate hclosed hnotified hs.1, hs.2⟩ }
  refine recvPacket_triple verifyLibp2pCertificate ?_ ?_ ?_
  · intro message
    exact hsteady.error _ _ (hsteady.world _ _ hs₀)
  · intro hcompletes
    have hstart : Ordered verifyLibp2pCertificate dialed (afterHandshake q buf s₀) ∧
        Unverified dialed (afterHandshake q buf s₀) :=
      ⟨⟨fun h => ConnectionState.noConfusion h, hs₀.streams, hs₀.certified, hs₀.quiet⟩,
        rfl, hs₀.dialing hcompletes.2.1⟩
    refine Triple.bind (Q := fun _ s => Ordered verifyLibp2pCertificate dialed s ∧
      Unverified dialed s) ?_ fun _ => ?_
    · refine hpending.drainAndFlush_keeps.mono ?_ (fun _ _ hs => hs) fun _ hs => hs.1
      rintro _ rfl
      exact hstart
    refine verifyPeer_triple verifyLibp2pCertificate hpending hsteady.toStable ?_ ?_ ?_
    · rintro s der ⟨hs, hunverified⟩
      have hsub : s.peerCerts ⊆ s.peerCerts ++ [der] := List.subset_append_left _ _
      exact ⟨⟨hs.dialing, hs.streams.mono fun e he => he.mono _ _ hsub,
        fun id endpoint hmem => (hs.certified id endpoint hmem).mono _ _ hsub, hs.quiet⟩,
        hunverified⟩
    · rintro s w message ⟨hs, -⟩
      have hpushed := hsteady.error s message hs
      exact ⟨fun h => ConnectionState.noConfusion h, hpushed.streams, hpushed.certified,
        hpushed.quiet⟩
    · rintro s der p ⟨hs, hstate, hpeer⟩ hder hverify hdialed
      -- the accepting branch reports Connected with the id the certificate proves
      have hcert : Certified verifyLibp2pCertificate dialed s.peerCerts (some p) :=
        ⟨der, hder, p, hverify, rfl, fun d hd => hdialed d (hpeer.trans hd)⟩
      refine ⟨fun h => absurd (hstate.symm.trans h) (by decide), ?_, ?_, ?_⟩
      · exact hs.streams.push fun h => (Bool.false_ne_true h).elim
      · intro id endpoint hmem
        rcases List.mem_append.mp hmem with hold | hnew
        · exact hs.certified id endpoint hold
        · cases List.mem_singleton.mp hnew
          exact hcert
      · intro hann
        exact absurd ⟨_, _, List.mem_append_right _ (List.mem_singleton_self _)⟩ hann
  · intro w
    refine hsteady.drainAndFlush_keeps.mono ?_ (fun _ _ hs => hs) fun _ hs => hs
    rintro _ rfl
    exact hsteady.world s₀ w hs₀

theorem noneClosed_stable : Stable (NoneClosed (W := W)) where
  world _ _ hs := hs
  writes s raw state _ hstate hs := hs.setStream (hs raw state hstate).1 (hs raw state hstate).2
  note s raw state hstate hclosed _ hs := by
    rw [StreamRuntimeState.isFullyClosed, (hs raw state hstate).1, Bool.and_false] at hclosed
    cases hclosed

/-- Closing drops what its drain reports; before Connected there is nothing to drop. -/
theorem close_ordered {q : Quiche W} {fuel : Nat} {s₀ : Session W}
    (hs₀ : Ordered verifyLibp2pCertificate dialed s₀) :
    Triple (fun s => s = s₀) (close q fuel)
      (fun _ => Ordered verifyLibp2pCertificate dialed)
      (Ordered verifyLibp2pCertificate dialed) := by
  have hsteady := ordered_steady (W := W) verifyLibp2pCertificate dialed
  apply Triple.get_bind
  intro s₁ hs₁
  subst s₁
  refine Triple.bind (call_triple _ _) fun answer => ?_
  split
  · apply Triple.throw
    rintro _ ⟨w, rfl⟩
    exact hsteady.world _ _ hs₀
  -- what the drain keeps: the state, the certificates and, before Connected, the closing flags
  let Draining : Session W → Prop := fun s => s.conn.state = .closing ∧
    s.peerCerts = s₀.peerCerts ∧ (¬ Announced s₀.events → NoneClosed s)
  have hdraining : Stable Draining :=
    { world := fun s w hs => hs
      writes := fun s raw state writes hstate hs =>
        ⟨hs.1, hs.2.1, fun hann => noneClosed_stable.writes s raw state writes hstate (hs.2.2 hann)⟩
      note := fun s raw state hstate hclosed hnotified hs =>
        ⟨hs.1, hs.2.1, fun hann =>
          noneClosed_stable.note s raw state hstate hclosed hnotified (hs.2.2 hann)⟩ }
  refine Triple.bind (Q := fun _ => Draining) (Triple.modify ?_) fun _ => ?_
  · rintro _ ⟨w, rfl⟩
    exact ⟨rfl, rfl, hs₀.quiet⟩
  refine Triple.bind hdraining.drainSendQueue_keeps.attempt fun drained => ?_
  refine Triple.bind (Q := fun _ => Ordered verifyLibp2pCertificate dialed) (Triple.modify ?_)
    fun _ => ?_
  · rintro s ⟨hstate, hcerts, hquiet⟩
    refine ⟨fun h => absurd (hstate.symm.trans h) (by decide), ?_, ?_, hquiet⟩
    · rw [hcerts]
      exact hs₀.streams
    · intro id endpoint hmem
      rw [hcerts]
      exact hs₀.certified id endpoint hmem
  · split
    · exact Keeps.throw _
    · exact hsteady.flush_keeps

/-- In every run that polls and resets no stream before Connected, each stream event comes after a
Connected event whose peer id a verified certificate proves and the dialed id, if any, equals; so
no byte of a peer that failed the identity check is reported. -/
theorem streamsAfter_of_streamsWait [MultihashCodec] (q : Quiche W) (fuel : Nat)
    (id : ConnectionId) (transport : Multiaddr) (world : W) (calls : List Call) (s : Session W)
    (hguard : GuardedRun q fuel verifyLibp2pCertificate (StreamsWait q)
      (new q id transport dialed world) calls)
    (hrun : run q fuel verifyLibp2pCertificate (new q id transport dialed world) calls = some s) :
    StreamsAfter (CertifiedConnected verifyLibp2pCertificate dialed s.peerCerts) s.events := by
  have hsteady := ordered_steady (W := W) verifyLibp2pCertificate dialed
  have hnew : Ordered verifyLibp2pCertificate dialed (new q id transport dialed world) := by
    refine ⟨fun _ => rfl, ?_, ?_, ?_⟩
    · intro i e he
      cases he
    · intro _ _ hmem
      cases hmem
    · intro _ raw state hstate
      rw [new, Std.ExtTreeMap.getElem?_empty] at hstate
      cases hstate
  have hinv : Ordered verifyLibp2pCertificate dialed s := by
    refine run_invariant ?_ hnew hguard hrun
    intro s call r s' hs hwait hexec
    cases call with
    | recvPacket buf => exact (recvPacket_ordered _ _ hs).of_exec rfl hexec
    | pollStreams => exact (pollStreams_ordered _ _ hs hwait).of_exec rfl hexec
    | openStream =>
      exact Keeps.of_exec (Keeps.bind hsteady.openStream_keeps fun _ => Keeps.pure _) hs hexec
    | sendStream streamId data => exact (hsteady.sendStream_keeps _ _).of_exec hs hexec
    | closeStreamWrite streamId => exact (hsteady.closeStreamWrite_keeps _).of_exec hs hexec
    | resetStream streamId => exact (resetStream_ordered _ _ hs hwait).of_exec rfl hexec
    | close => exact (close_ordered _ _ hs).of_exec rfl hexec
  exact hinv.streams

/-- A peer with a certificate, whose stream 1 is readable; quiche has nothing to send. -/
def talkingQuiche : Quiche Unit := constQuiche (some []) (.error .done) [1]

/-- A poll after the handshake reports the stream behind Connected. -/
theorem streamsAfter_of_verified_handshake :
    ∃ s, @run Unit multihashCodec talkingQuiche 1 (fun _ => .ok somePeer)
        (dialedConnection talkingQuiche) [.recvPacket [], .pollStreams] = some s ∧
      .incomingStream ⟨1⟩ ⟨1⟩ ∈ s.events ∧
      StreamsAfter (CertifiedConnected (fun _ => .ok somePeer) (some somePeer) s.peerCerts)
        s.events := by
  refine ⟨_, rfl, by decide, ?_⟩
  refine @streamsAfter_of_streamsWait Unit (fun _ => .ok somePeer) (some somePeer)
    multihashCodec talkingQuiche 1 ⟨1⟩ ⟨[.quicV1]⟩ () [.recvPacket [], .pollStreams] _
    ⟨trivial, ?_⟩ rfl
  intro r s hexec
  cases hexec
  exact ⟨fun hann => absurd ⟨_, _, List.mem_singleton_self _⟩ hann, fun _ _ _ => trivial⟩

/-- A peer without a certificate, whose stream 1 is readable. -/
def rejectedQuiche : Quiche Unit := constQuiche none (.error .done) [1]

/-- A rejected peer's stream is reported although Connected never was. -/
theorem streamsAfter_fails_on_rejected_peer :
    ∃ s, @run Unit multihashCodec rejectedQuiche 1 (fun _ => .error "")
        (dialedConnection rejectedQuiche) [.recvPacket [], .pollStreams] = some s ∧
      s.conn.state = .closing ∧
      ¬ StreamsAfter (fun e => ∃ id endpoint, e = .connected id endpoint) s.events := by
  refine ⟨_, rfl, rfl, fun h => ?_⟩
  obtain ⟨j, c, hj, hc, id, endpoint, rfl⟩ := h 1 (.incomingStream ⟨1⟩ ⟨1⟩) (by decide) rfl
  obtain rfl : j = 0 := by omega
  cases hc

end Minip2p.Quic
