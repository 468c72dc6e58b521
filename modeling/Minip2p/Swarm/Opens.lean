import Minip2p.Swarm.StepTurns
import Minip2p.Swarm.Superseded

/-!
# Streams the application asked for

An accepted request of the application is an open request until the driver answers, then a
negotiator, and then a stream the application hears of. On the way the request may fail, and then
the application hears of that. One way out is silent: a stream that closes while its protocol is
negotiated. As long as that does not happen, and no token comes round again while it is in use, no
request is lost.
-/

namespace Minip2p.Swarm

open SwarmCore

/-- The call makes the core give up a connection. -/
def GivesUp (s : SwarmCore) (call : Call) (c : ConnectionId) : Prop :=
  call.closes? = some c ∨ Supersedes s call c

/-- The stream `k` is still negotiated for the application, or the application has been told that
it is ready or that something failed, or its connection is gone. -/
def Accounted (s : SwarmCore) (call : Call) (s' : SwarmCore) (k : StreamKey) (protocolId : String) :
    Prop :=
  (∃ negotiator, s'.outboundNegotiators[k]? =
    some { negotiator, target := .user protocolId }) ∨
  s.Emits s' (fun e => ∃ p, e = .userStreamReady p k.stream protocolId true) ∨
  s.Emits s' (SwarmEvent.isError ·) ∨ GivesUp s call k.conn

/-- What becomes of the requests of the application in a call: an open request stays, or the driver
has opened its stream, or something failed, or its connection is gone. -/
structure Resolves (s : SwarmCore) (call : Call) (s' : SwarmCore) : Prop where
  asked : ∀ (token : OpenStreamToken) (pending : PendingOpen) (protocolId : String),
    s.pendingOpens[token]? = some pending → pending.target = .user protocolId →
      s'.pendingOpens[token]? = some pending ∨
      (∃ (k : StreamKey) (nowMs : UInt64),
        call = .input (.streamOpened k.conn k.stream token nowMs) ∧ k.conn = pending.connId ∧
          Accounted s call s' k protocolId) ∨
      s.Emits s' (SwarmEvent.isError ·) ∨ GivesUp s call pending.connId
  negotiating : ∀ (k : StreamKey) (pending : PendingOutbound) (protocolId : String),
    s.outboundNegotiators[k]? = some pending → pending.target = .user protocolId →
      Accounted s call s' k protocolId

/-- The call that ends a stream. -/
theorem Call.exists_of_endsStream? {call : Call} {k : StreamKey} (h : call.endsStream? = some k) :
    ∃ nowMs, call = .input (.transport (.streamClosed k.conn k.stream) nowMs) := by
  rcases call with (⟨event, nowMs⟩ | _ | _ | _ | _) | _
  case input.transport =>
    cases event with
    | streamClosed c t =>
      cases h
      exact ⟨nowMs, rfl⟩
    | _ => cases h
  all_goals cases h

/-- No stream closes while its protocol is negotiated for the application. -/
def SparesOpens (s : SwarmCore) (call : Call) : Prop :=
  ∀ k ∈ call.endsStream?, s.outboundNegotiators[k]?.any (·.target.isUser) = false

/-- No token that the call may take is on a request of the application. -/
def TokensFree (s : SwarmCore) (call : Call) : Prop :=
  ∀ token ∈ s.requestTokens call, s.pendingOpens[token]?.any (·.target.isUser) = false

instance (s : SwarmCore) (call : Call) : Decidable (SparesOpens s call) :=
  inferInstanceAs (Decidable (∀ k ∈ call.endsStream?, _))

instance (s : SwarmCore) (call : Call) : Decidable (TokensFree s call) :=
  inferInstanceAs (Decidable (∀ token ∈ s.requestTokens call, _))

/-- Making room for a connection takes the requests of at most one other. -/
theorem yieldTo_requests_cases (s : SwarmCore) (c : ConnectionId) (p : PeerId) :
    ((s.yieldTo c p).pendingOpens = s.pendingOpens ∧
        (s.yieldTo c p).outboundNegotiators = s.outboundNegotiators) ∨
      ∃ old, s.peerToConn[p]? = some old ∧ old ≠ c ∧
        (s.yieldTo c p).pendingOpens = (s.withoutConn old).pendingOpens ∧
        (s.yieldTo c p).outboundNegotiators = (s.withoutConn old).outboundNegotiators := by
  rcases yieldTo_cases s c p with ⟨heq, -⟩ | ⟨old, hold, hne, heq⟩
  · rw [heq]
    exact .inl ⟨rfl, rfl⟩
  · rw [heq]
    exact .inr ⟨old, hold, hne, rfl, rfl⟩

theorem detach_requests (s : SwarmCore) (c : ConnectionId) :
    (s.detach c).pendingOpens = (s.withoutConn c).pendingOpens ∧
      (s.detach c).outboundNegotiators = (s.withoutConn c).outboundNegotiators := by
  rcases detach_cases s c with ⟨p, -, -, heq⟩ | ⟨-, heq⟩
  · rw [heq]
    exact ⟨rfl, rfl⟩
  · rw [heq]
    exact ⟨rfl, rfl⟩

section Turns

variable [Sha256] {s₀ s s' : SwarmCore} {call : Call} {k : StreamKey} {protocolId : String}

/-- A turn adds events; it may name the peer of the earlier ones. -/
theorem Turn.events (h : Turn s₀ call s s') :
    ∃ f added, s'.events = s.events.map f ++ added ∧
      (f = id ∨ ∃ stale new, f = SwarmEvent.migrate stale new) := by
  have hpush : ∀ {t : SwarmCore} (added : List SwarmEvent), t.events = s.events ++ added →
      ∃ f added, t.events = s.events.map f ++ added ∧
        (f = id ∨ ∃ stale new, f = SwarmEvent.migrate stale new) := by
    intro t added ht
    exact ⟨id, added, by rw [List.map_id, ht], .inl rfl⟩
  have hsame : ∀ {t : SwarmCore}, t.events = s.events →
      ∃ f added, t.events = s.events.map f ++ added ∧
        (f = id ∨ ∃ stale new, f = SwarmEvent.migrate stale new) := by
    intro t ht
    exact hpush [] (by rw [List.append_nil, ht])
  cases h with
  | report e => exact hpush [e] rfl
  | register c p => exact hpush [.connectionEstablished p] (by rw [← yieldTo_events s c p]; rfl)
  | rebind c p =>
    obtain ⟨more, hmore⟩ := tryEmitPeerReady_appends ((s.migrateFrom c p).attach c p) p
    rw [← hmore]
    cases hc : s.connToPeer[c]? with
    | none =>
      simp only [migrateFrom, hc, attach, List.append_assoc]
      exact ⟨id, _, by rw [List.map_id], .inl rfl⟩
    | some stale =>
      simp only [migrateFrom, hc, attach, List.append_assoc]
      exact ⟨SwarmEvent.migrate stale p, _, rfl, .inr ⟨stale, p, rfl⟩⟩
  | close c =>
    rcases detach_cases s c with ⟨p, -, -, heq⟩ | ⟨-, heq⟩
    · rw [heq]
      exact hpush [.connectionClosed p] rfl
    · rw [heq]
      exact hsame rfl
  | ask p c protocolId target htoken hp =>
    simp only [queueOpenProtocolStream, requireConn, hp]
    exact hsame rfl
  | refuse token e => exact hpush [e] rfl
  | promoteUser k pending protocolId p => exact hpush [_] rfl
  | acceptUser k protocolId p => exact hpush [_] rfl
  | deliver k protocolId p e => exact hpush [e] rfl
  | closeUser k protocolId p => exact hpush [_] rfl
  | received k p info =>
    rcases received_cases s p info with ⟨heq, -⟩ | ⟨heq, -⟩
    · rw [heq]
      exact hpush [_] rfl
    · rw [heq]
      refine hpush [.identifyReceived p info, .peerReady p info.protocols] ?_
      simp only [pushEvent, List.append_assoc, List.singleton_append]
  | _ => exact hsame rfl

theorem Turn.length_le (h : Turn s₀ call s s') (hs : s₀.events.length ≤ s.events.length) :
    s₀.events.length ≤ s'.events.length := by
  obtain ⟨f, added, heq, -⟩ := h.events
  rw [heq, List.length_append, List.length_map]
  exact Nat.le_trans hs (Nat.le_add_right _ _)

/-- What was emitted stays emitted, under whatever name. -/
theorem Turn.emits (h : Turn s₀ call s s') {P : SwarmEvent → Prop}
    (hP : ∀ stale new e, P e → P (SwarmEvent.migrate stale new e)) (hs : s₀.Emits s P) :
    s₀.Emits s' P := by
  obtain ⟨f, added, heq, hf⟩ := h.events
  obtain ⟨e, he, hPe⟩ := hs
  refine ⟨f e, ?_, ?_⟩
  · rw [heq, List.drop_append, ← List.map_drop]
    exact List.mem_append_left _ (List.mem_map_of_mem he)
  · rcases hf with rfl | ⟨stale, new, rfl⟩
    · exact hPe
    · exact hP stale new e hPe

theorem Turn.emits_error (h : Turn s₀ call s s') (hs : s₀.Emits s (SwarmEvent.isError ·)) :
    s₀.Emits s' (SwarmEvent.isError ·) := by
  refine h.emits ?_ hs
  intro stale new e he
  cases e <;> first | rfl | cases he

theorem Turn.emits_ready (h : Turn s₀ call s s')
    (hs : s₀.Emits s fun e => ∃ p, e = .userStreamReady p k.stream protocolId true) :
    s₀.Emits s' fun e => ∃ p, e = .userStreamReady p k.stream protocolId true := by
  refine h.emits ?_ hs
  rintro stale new e ⟨p, rfl⟩
  exact ⟨_, rfl⟩

/-! ## The two tables -/

omit [Sha256] in
theorem GivesUp.of_register {c old : ConnectionId} {p : PeerId} (hconnects : call.ConnectsAs c p)
    (hagrees : s₀.Agrees s) (hold : s.peerToConn[p]? = some old) (hne : old ≠ c) :
    GivesUp s₀ call old := by
  rw [hagrees.peerToConn] at hold
  exact .inr ⟨c, p, hconnects, hold, hne⟩

/-- A stream that is negotiated for the application stays accounted for. -/
theorem Turn.accounted (h : Turn s₀ call s s') (hspares : SparesOpens s₀ call)
    (hlength : s₀.events.length ≤ s.events.length) (hs : Accounted s₀ call s k protocolId) :
    Accounted s₀ call s' k protocolId := by
  rcases hs with ⟨negotiator, hk⟩ | hready | herror | hgone
  · cases h with
    | register c p hconnects hnew hagrees =>
      rcases yieldTo_requests_cases s c p with ⟨-, hsame⟩ | ⟨old, hold, hne, -, hleft⟩
      · refine .inl ⟨negotiator, ?_⟩
        show (s.yieldTo c p).outboundNegotiators[k]? = _
        rw [hsame]
        exact hk
      · by_cases hconn : k.conn = old
        · subst hconn
          exact .inr (.inr (.inr (.of_register hconnects hagrees hold hne)))
        · refine .inl ⟨negotiator, ?_⟩
          show (s.yieldTo c p).outboundNegotiators[k]? = _
          rw [hleft]
          exact BTreeMap.getElem?_filter_eq_some_iff.mpr ⟨hk, decide_eq_true hconn⟩
    | rebind c p =>
      have htables := tables_oblivious.tryEmitPeerReady ((s.migrateFrom c p).attach c p) p
      refine .inl ⟨negotiator, ?_⟩
      rw [htables.outboundNegotiators]
      show (s.migrateFrom c p).outboundNegotiators[k]? = _
      rw [migrateFrom]
      split
      · exact hk
      · exact hk
    | close c hcloses =>
      by_cases hconn : k.conn = c
      · subst hconn
        exact .inr (.inr (.inr (.inl hcloses)))
      · refine .inl ⟨negotiator, ?_⟩
        rw [(detach_requests s c).2]
        exact BTreeMap.getElem?_filter_eq_some_iff.mpr ⟨hk, decide_eq_true hconn⟩
    | ask p c protocolId target htoken hp =>
      simp only [queueOpenProtocolStream, requireConn, hp]
      exact .inl ⟨negotiator, hk⟩
    | opened k' token pending negotiator' hopened hpending hconn hnew =>
      refine .inl ⟨negotiator, BTreeMap.getElem?_insert_eq_some_iff.mpr (.inr ⟨?_, hk⟩)⟩
      rintro rfl
      exact hnew (BTreeMap.mem_of_getElem? hk)
    | outbound k' pending negotiator' hpending =>
      by_cases heq : k = k'
      · -- the negotiator has learned something, for the same target
        subst heq
        rw [hk] at hpending
        cases hpending
        exact .inl ⟨negotiator', BTreeMap.getElem?_insert_eq_some_iff.mpr (.inl ⟨rfl, rfl⟩)⟩
      · exact .inl ⟨negotiator, BTreeMap.getElem?_insert_eq_some_iff.mpr (.inr ⟨heq, hk⟩)⟩
    | failOutbound k' herror => exact .inr (.inr (.inl herror))
    | dropOutbound k' hends hsame =>
      refine .inl ⟨negotiator, BTreeMap.getElem?_erase_eq_some_iff.mpr ⟨?_, hk⟩⟩
      rintro rfl
      have hspared := hspares k hends
      rw [← hsame, hk] at hspared
      cases hspared
    | promote k' pending hpending htarget =>
      refine .inl ⟨negotiator, BTreeMap.getElem?_erase_eq_some_iff.mpr ⟨?_, hk⟩⟩
      rintro rfl
      rw [hk] at hpending
      cases hpending
      rcases htarget with htarget | htarget
      · cases htarget
      · cases htarget
    | promotePing k' pending p hpending htarget =>
      refine .inl ⟨negotiator, BTreeMap.getElem?_erase_eq_some_iff.mpr ⟨?_, hk⟩⟩
      rintro rfl
      rw [hk] at hpending
      cases hpending
      cases htarget
    | promoteUser k' pending protocolId' p hpending htarget =>
      by_cases heq : k = k'
      · subst heq
        rw [hk] at hpending
        cases hpending
        cases htarget
        exact .inr (.inl (emits_pushEvent hlength ⟨p, rfl⟩))
      · exact .inl ⟨negotiator, BTreeMap.getElem?_erase_eq_some_iff.mpr ⟨heq, hk⟩⟩
    | received k' p info =>
      have htables := tables_oblivious.handleIdentifyOutput s (.event (.received p info))
      refine .inl ⟨negotiator, ?_⟩
      show (s.handleIdentifyOutput (.event (.received p info))).outboundNegotiators[k]? = _
      rw [htables.outboundNegotiators]
      exact hk
    | _ => exact .inl ⟨negotiator, hk⟩
  · exact .inr (.inl (h.emits_ready hready))
  · exact .inr (.inr (.inl (h.emits_error herror)))
  · exact .inr (.inr (.inr hgone))

/-- An open request of the application stays, unless the driver answers it or its connection
goes. -/
theorem Turn.asked (h : Turn s₀ call s s') (htokens : TokensFree s₀ call)
    (hlength : s₀.events.length ≤ s.events.length) {token : OpenStreamToken} {pending : PendingOpen}
    (hstart : s₀.pendingOpens[token]? = some pending) (htarget : pending.target = .user protocolId)
    (hs : s.pendingOpens[token]? = some pending) :
    s'.pendingOpens[token]? = some pending ∨
      (∃ (k : StreamKey) (nowMs : UInt64),
        call = .input (.streamOpened k.conn k.stream token nowMs) ∧ k.conn = pending.connId ∧
          Accounted s₀ call s' k protocolId) ∨
      s₀.Emits s' (SwarmEvent.isError ·) ∨ GivesUp s₀ call pending.connId := by
  cases h with
  | register c p hconnects hnew hagrees =>
    rcases yieldTo_requests_cases s c p with ⟨hsame, -⟩ | ⟨old, hold, hne, hleft, -⟩
    · left
      show (s.yieldTo c p).pendingOpens[token]? = _
      rw [hsame]
      exact hs
    · by_cases hconn : pending.connId = old
      · subst hconn
        exact .inr (.inr (.inr (.of_register hconnects hagrees hold hne)))
      · left
        show (s.yieldTo c p).pendingOpens[token]? = _
        rw [hleft]
        exact BTreeMap.getElem?_filter_eq_some_iff.mpr ⟨hs, decide_eq_true hconn⟩
  | rebind c p =>
    have htables := tables_oblivious.tryEmitPeerReady ((s.migrateFrom c p).attach c p) p
    left
    rw [htables.pendingOpens]
    show (s.migrateFrom c p).pendingOpens[token]? = _
    rw [migrateFrom]
    split
    · exact hs
    · exact hs
  | close c hcloses =>
    by_cases hconn : pending.connId = c
    · subst hconn
      exact .inr (.inr (.inr (.inl hcloses)))
    · left
      rw [(detach_requests s c).1]
      exact BTreeMap.getElem?_filter_eq_some_iff.mpr ⟨hs, decide_eq_true hconn⟩
  | ask p c protocolId' target htoken hp =>
    simp only [queueOpenProtocolStream, requireConn, hp]
    refine .inl (BTreeMap.getElem?_insert_eq_some_iff.mpr (.inr ⟨?_, hs⟩))
    -- the token is not that of a request of the application
    rintro rfl
    have hfree := htokens _ htoken
    rw [hstart, Option.any_some, htarget] at hfree
    cases hfree
  | refuse token' e he => exact .inr (.inr (.inl (emits_pushEvent hlength he)))
  | opened k token' pending' negotiator hopened hpending hconn =>
    by_cases heq : token = token'
    · subst heq
      rw [hs] at hpending
      cases hpending
      obtain ⟨nowMs, hopened⟩ := hopened
      refine .inr (.inl ⟨k, nowMs, hopened, hconn.symm, .inl ⟨negotiator, ?_⟩⟩)
      rw [← htarget]
      exact BTreeMap.getElem?_insert_eq_some_iff.mpr (.inl ⟨rfl, rfl⟩)
    · exact .inl (BTreeMap.getElem?_erase_eq_some_iff.mpr ⟨heq, hs⟩)
  | received k p info =>
    have htables := tables_oblivious.handleIdentifyOutput s (.event (.received p info))
    left
    show (s.handleIdentifyOutput (.event (.received p info))).pendingOpens[token]? = _
    rw [htables.pendingOpens]
    exact hs
  | _ => exact .inl hs

theorem Turn.resolves (h : Turn s₀ call s s') (hspares : SparesOpens s₀ call)
    (htokens : TokensFree s₀ call) (hlength : s₀.events.length ≤ s.events.length)
    (hs : Resolves s₀ call s) : Resolves s₀ call s' := by
  constructor
  · intro token pending protocolId hpending htarget
    rcases hs.asked token pending protocolId hpending htarget with
      hkept | ⟨k, nowMs, hopened, hconn, haccounted⟩ | herror | hgone
    · exact h.asked htokens hlength hpending htarget hkept
    · exact .inr (.inl ⟨k, nowMs, hopened, hconn, h.accounted hspares hlength haccounted⟩)
    · exact .inr (.inr (.inl (h.emits_error herror)))
    · exact .inr (.inr (.inr hgone))
  · intro k pending protocolId hpending htarget
    exact h.accounted hspares hlength (hs.negotiating k pending protocolId hpending htarget)

end Turns

/-! ## Calls and runs -/

section Runs

variable [Sha256] [MultihashCodec] {s : SwarmCore} {call : Call} {calls : List Call}

omit [Sha256] [MultihashCodec] in
/-- A call that leaves the two tables alone. -/
theorem Resolves.same {s' : SwarmCore} (hopens : s'.pendingOpens = s.pendingOpens)
    (hout : s'.outboundNegotiators = s.outboundNegotiators) : Resolves s call s' := by
  constructor
  · intro token pending protocolId hpending _
    rw [hopens]
    exact .inl hpending
  · intro k pending protocolId hpending htarget
    rw [Accounted, hout, hpending, ← htarget]
    exact .inl ⟨pending.negotiator, rfl⟩

theorem step_resolves (hs : Coherent calls s) (hcontract : TransportContract calls call)
    (hspares : SparesOpens s call) (htokens : TokensFree s call) :
    Resolves s call (step s call) := by
  by_cases hpoll : call = .pollOutput
  · subst hpoll
    obtain ⟨events, actions, heq⟩ := pollOutput_eq s
    rw [step, heq]
    exact .same rfl rfl
  · refine (Runs.keeps_of_chain (J := fun t =>
      s.events.length ≤ t.events.length ∧ Resolves s call t) (step_turns hs hcontract hpoll) ?_
      ⟨Nat.le_refl _, .same rfl rfl⟩).2
    rintro t t' h ⟨hlength, ht⟩
    exact ⟨h.length_le hlength, h.resolves hspares htokens hlength ht⟩

/-- An open that is accepted becomes a request. -/
theorem step_openUserStream {p : PeerId} {protocolId : String}
    (hok : (s.openUserStream p protocolId).2 = .ok ()) :
    ∃ c, s.peerToConn[p]? = some c ∧
      (step s (.openUserStream p protocolId)).pendingOpens[(takeOpenToken s.nextOpenToken).1]? =
        some ⟨c, protocolId, .user protocolId⟩ := by
  show ∃ c, s.peerToConn[p]? = some c ∧ (s.openUserStream p protocolId).1.pendingOpens[_]? = _
  rw [openUserStream] at hok ⊢
  split at hok
  · cases hok
  · next hregistered =>
    rw [if_neg hregistered]
    split at hok
    · cases hok
    · next hconnected =>
      rw [if_neg hconnected]
      split at hok
      · cases hok
      · next hsupported =>
        rw [if_neg hsupported]
        cases hp : s.peerToConn[p]? with
        | none =>
          simp only [queueOpenProtocolStream, requireConn, hp] at hok
          cases hok
        | some c =>
          simp only [queueOpenProtocolStream, requireConn, hp]
          exact ⟨c, rfl, BTreeMap.getElem?_insert_eq_some_iff.mpr (.inl ⟨rfl, rfl⟩)⟩

/-- The close of a stream that is negotiated for the application is the one silent way out. -/
theorem sparesOpens_of_resolves (hs : Coherent calls s) (h : Resolves s call (step s call)) :
    SparesOpens s call := by
  intro k hk
  obtain ⟨nowMs, rfl⟩ := Call.exists_of_endsStream? hk
  cases hpending : s.outboundNegotiators[k]? with
  | none => rfl
  | some pending =>
    cases htarget : pending.target with
    | user protocolId =>
      have hout : k ∈ s.outboundNegotiators := BTreeMap.mem_of_getElem? hpending
      have hown : s.streamOwner[k]? = none :=
        Std.ExtTreeMap.getElem?_eq_none (hs.outboundDisjoint k hout)
      -- nobody owns the stream, so nobody is told
      have hstep : step s (.input (.transport (.streamClosed k.conn k.stream) nowMs)) =
          { s with
            streamOwner := s.streamOwner.erase k
            inboundNegotiators := s.inboundNegotiators.erase k
            outboundNegotiators := s.outboundNegotiators.erase k } := by
        show s.handleStreamClosed k = _
        simp only [handleStreamClosed, hown]
      have hquiet : ∀ P, ¬ s.Emits (step s (.input (.transport
          (.streamClosed k.conn k.stream) nowMs))) P := by
        rintro P ⟨e, he, -⟩
        rw [hstep, List.drop_length] at he
        cases he
      rcases h.negotiating k pending protocolId hpending htarget with
        ⟨negotiator, hkept⟩ | hready | herror | hclose | ⟨c, p, ⟨endpoint, _, hconnects, -⟩, -⟩
      · rw [hstep] at hkept
        exact absurd rfl (BTreeMap.getElem?_erase_eq_some_iff.mp hkept).1
      · exact absurd hready (hquiet _)
      · exact absurd herror (hquiet _)
      · cases hclose
      · cases hconnects
    | _ => simp [htarget, ProtocolKind.isUser]

/-- No request of the application is lost in a call: an open that is accepted becomes a request,
and what becomes of a request is that it stays, or that the application is told, or that its
connection is gone. -/
structure NoneLost (s : SwarmCore) (call : Call) : Prop extends Resolves s call (step s call) where
  accepted : ∀ p protocolId, call = .openUserStream p protocolId →
    (s.openUserStream p protocolId).2 = .ok () →
      ∃ (c : ConnectionId) (token : OpenStreamToken), s.peerToConn[p]? = some c ∧
        (step s call).pendingOpens[token]? = some ⟨c, protocolId, .user protocolId⟩

theorem noneLost_iff_sparesOpens (hs : Coherent calls s) (hcontract : TransportContract calls call)
    (htokens : TokensFree s call) : NoneLost s call ↔ SparesOpens s call := by
  constructor
  · exact fun h => sparesOpens_of_resolves hs h.toResolves
  · intro hspares
    refine ⟨step_resolves hs hcontract hspares htokens, ?_⟩
    rintro p protocolId rfl hok
    obtain ⟨c, hc, hpending⟩ := step_openUserStream hok
    exact ⟨c, _, hc, hpending⟩

end Runs

/-- In a contract run in which no token comes round again while it is on a request of the
application, no call loses a request of the application, exactly when no stream closes while its
protocol is negotiated for the application. -/
theorem opens_resolved_iff [Sha256] [MultihashCodec] (identifyConfig : Identify.IdentifyConfig)
    (pingConfig : Ping.PingConfig) (calls : List Call) (hrun : ContractRun calls)
    (htokens : Runs.EachStep (fun before call =>
      TokensFree (run (SwarmCore.new identifyConfig pingConfig) before) call) [] calls) :
    Runs.EachStep (fun before call =>
        NoneLost (run (SwarmCore.new identifyConfig pingConfig) before) call) [] calls ↔
      Runs.EachStep (fun before call =>
        SparesOpens (run (SwarmCore.new identifyConfig pingConfig) before) call) [] calls := by
  refine (Runs.eachStep_and hrun htokens).congr trivial ?_
  rintro before call hbefore ⟨hcontract, hfree⟩
  have hcontracts : ContractRun before := hbefore.mono fun _ _ h => h.1
  exact noneLost_iff_sparesOpens (coherent_run identifyConfig pingConfig hcontracts) hcontract hfree

/-- The application asks Alice for a stream, and Alice declines the protocol. -/
def declinedOpenRun : List Call :=
  [.addUserProtocol "/u", .event (.connected ⟨1⟩ (Sample.endpoint (some Sample.alice))),
    .openUserStream Sample.alice "/u", .input (.streamOpened ⟨1⟩ ⟨4⟩ ⟨2⟩ 0),
    .event (.streamData ⟨1⟩ ⟨4⟩ (Multistream.encodeMessage Multistream.multistreamProtocolId ++
      Multistream.encodeMessage "na"))]

theorem declinedOpenRun_resolved :
    Runs.EachStep (fun before call =>
      @NoneLost Sample.sha256 multihashCodec (Sample.run before) call) [] declinedOpenRun :=
  (@opens_resolved_iff Sample.sha256 multihashCodec _ _ declinedOpenRun (by decide)
    (by decide)).mpr (by decide)

/-- The application asks Alice for a stream, and the stream opens. -/
def silentCloseRun : List Call :=
  [.addUserProtocol "/u", .event (.connected ⟨1⟩ (Sample.endpoint (some Sample.alice))),
    .openUserStream Sample.alice "/u", .input (.streamOpened ⟨1⟩ ⟨4⟩ ⟨2⟩ 0)]

/-- Alice resets the stream before the protocol is negotiated: the request is gone, and the
application has been told nothing. -/
theorem silentCloseRun_lost :
    ContractRun (silentCloseRun ++ [.event (.streamClosed ⟨1⟩ ⟨4⟩)]) ∧
      ((Sample.run (silentCloseRun.take 2)).openUserStream Sample.alice "/u").2 = .ok () ∧
      (Sample.run (silentCloseRun ++ [.event (.streamClosed ⟨1⟩ ⟨4⟩)])).events =
        (Sample.run silentCloseRun).events ∧
      ¬ @NoneLost Sample.sha256 multihashCodec (Sample.run silentCloseRun)
        (.event (.streamClosed ⟨1⟩ ⟨4⟩)) := by
  refine ⟨by decide, by decide, by decide, ?_⟩
  intro h
  have hcoherent : Coherent silentCloseRun (Sample.run silentCloseRun) :=
    @coherent_run Sample.sha256 multihashCodec silentCloseRun _ _ (by decide)
  have hresolves := @NoneLost.toResolves Sample.sha256 multihashCodec _ _ h
  have hspares := @sparesOpens_of_resolves Sample.sha256 multihashCodec _ _ _ hcoherent hresolves
  exact absurd hspares (by decide)

end Minip2p.Swarm
