import Minip2p.Multistream.Voice
import Minip2p.Swarm.Fidelity
import Minip2p.Swarm.Handshake
import Minip2p.Swarm.Opens
import Minip2p.Swarm.PingRelease
import Minip2p.Swarm.Tokens

/-!
# What the core sends on a stream

Whatever happens on the other streams, the core sends on a stream what the application hands over
for it and nothing else, and a stream that is requested for the application is requested for its
protocol.
-/

namespace Minip2p.Swarm

open Multistream (Answers MultistreamOutput MultistreamSelect Role Sendable Speaks greeting)
open Ping (PingOutput)
open SwarmCore

/-! ## Bytes sent and bytes handed over -/

/-- The bytes that an action sends on a stream. -/
def SwarmAction.bytesOn (k : StreamKey) : SwarmAction → Bytes
  | sendStream c t data => if (⟨c, t⟩ : StreamKey) = k then data else []
  | _ => []

/-- The bytes that actions send on a stream. -/
def sentOn (k : StreamKey) (actions : List SwarmAction) : Bytes :=
  actions.flatMap (SwarmAction.bytesOn k)

/-- The bytes for a stream in an accepted call of the application. -/
def submittedBy (k : StreamKey) (s : SwarmCore) : Call → Bytes
  | .sendUserStream p t data =>
    match s.requireUserStreamConn p t with
    | .ok c => if (⟨c, t⟩ : StreamKey) = k then data else []
    | .error _ => []
  | _ => []

/-- The bytes that the application hands over for a stream in a run. -/
def submittedOn [Sha256] [MultihashCodec] (k : StreamKey) : SwarmCore → List Call → Bytes
  | _, [] => []
  | s, call :: calls => submittedBy k s call ++ submittedOn k (step s call) calls

section Bytes

variable {k : StreamKey} {s : SwarmCore}

@[simp] theorem sentOn_nil : sentOn k [] = [] := rfl

@[simp] theorem sentOn_append (actions more : List SwarmAction) :
    sentOn k (actions ++ more) = sentOn k actions ++ sentOn k more := List.flatMap_append

theorem bytesOn_of_key? {a : SwarmAction} (h : a.key? ≠ some k) : a.bytesOn k = [] := by
  cases a with
  | sendStream c t data => exact if_neg fun heq => h (congrArg some heq)
  | _ => rfl

/-- An action for no stream, or for another one, sends nothing on the stream. -/
theorem sentOn_concat {actions : List SwarmAction} {a : SwarmAction} (h : a.key? ≠ some k) :
    sentOn k (actions ++ [a]) = sentOn k actions := by
  rw [sentOn_append, sentOn, sentOn, List.flatMap_singleton, bytesOn_of_key? h, List.append_nil]

/-- The pieces a negotiator sends on its own stream. -/
theorem sentOn_pieces (pieces : List Bytes) :
    sentOn k (pieces.map (.sendStream k.conn k.stream)) = pieces.flatten := by
  induction pieces with
  | nil => rfl
  | cons piece pieces ih =>
    rw [List.map_cons, sentOn, List.flatMap_cons, List.flatten_cons, ← ih]
    exact congrArg (· ++ _) (if_pos rfl)

/-- The stream that is found is the application's. -/
theorem owner_of_requireUserStreamConn {p : PeerId} {t : StreamId} {c : ConnectionId}
    (h : s.requireUserStreamConn p t = .ok c) :
    ∃ protocol, s.streamOwner[(⟨c, t⟩ : StreamKey)]? = some (.user protocol) := by
  simp only [requireUserStreamConn] at h
  split at h
  · next c' hmap =>
    obtain rfl : c' = c := Except.ok.inj h
    obtain ⟨k, owner, hk, hif⟩ := BTreeMap.exists_of_findMap_eq_some hmap
    split at hif
    · next hcond =>
      obtain ⟨rfl, huser, -⟩ := hcond
      obtain rfl : k.conn = c' := Option.some.inj hif
      cases owner with
      | user protocol => exact ⟨protocol, hk⟩
      | _ => cases huser
    · cases hif
  · cases h

/-- Nothing is handed over for a stream that is not the application's. -/
theorem submittedBy_of_not_user (h : ∀ protocol, s.streamOwner[k]? ≠ some (.user protocol))
    (call : Call) : submittedBy k s call = [] := by
  unfold submittedBy
  split
  · next p t data =>
    split
    · next c hfound =>
      obtain ⟨protocol, hown⟩ := owner_of_requireUserStreamConn hfound
      refine if_neg ?_
      rintro rfl
      exact h protocol hown
    · rfl
  · rfl

theorem submittedBy_of_key? {call : Call} (h : call.key? = some k) : submittedBy k s call = [] := by
  cases Call.aboutStream_of_key? h <;> rfl

section Runs

variable [Sha256] [MultihashCodec]

theorem submittedOn_concat (s : SwarmCore) (calls : List Call) (call : Call) :
    submittedOn k s (calls ++ [call]) = submittedOn k s calls ++ submittedBy k (run s calls) call := by
  induction calls generalizing s with
  | nil => simp [submittedOn]
  | cons first calls ih =>
    simp only [List.cons_append, submittedOn, List.append_assoc]
    rw [ih]
    rfl

/-- A poll only hands an action over. -/
theorem sentOn_emittedActions_poll (s : SwarmCore) (calls : List Call) :
    sentOn k (emittedActions s (calls ++ [.pollOutput])) = sentOn k (emittedActions s calls) := by
  rw [emittedActions, emittedActions, polledActions_concat, run_concat, step, List.append_assoc,
    polledActionBy_append]

/-- Another call leaves the polled actions alone. -/
theorem sentOn_emittedActions_concat (s : SwarmCore) (calls : List Call) {call : Call}
    (hpoll : call ≠ .pollOutput) :
    sentOn k (emittedActions s (calls ++ [call])) =
      sentOn k (polledActions s calls) ++ sentOn k (step (run s calls) call).actions := by
  have hnone : polledActionBy (run s calls) call = [] := by
    cases call <;> first | rfl | exact absurd rfl hpoll
  rw [emittedActions, polledActions_concat, run_concat, hnone, List.append_nil, sentOn_append]

end Runs

end Bytes

/-! ## Calls about other streams -/

section Quiet

variable [Sha256] {s₀ s s' : SwarmCore} {call : Call} {calls : List Call} {k : StreamKey}

/-- A call about another stream sends nothing on a stream that ping does not own: identify answers
on the connection of its stream, as the connection maps agree. -/
theorem Move.sentOn (h : Move s₀ call s s') (hkey : call.key? ≠ some k) (hconn : call.conn? ≠ none)
    (hunique : Unique s) (hping : s.streamOwner[k]? ≠ some .ping) :
    sentOn k s'.actions = sentOn k s.actions := by
  have hnone : ∀ {a : SwarmAction}, a.key? = none →
      Swarm.sentOn k (s.actions ++ [a]) = Swarm.sentOn k s.actions := by
    intro a ha
    refine sentOn_concat ?_
    rw [ha]
    rintro ⟨⟩
  have hother : ∀ {a : SwarmAction} {k' : StreamKey}, a.key? = some k' → k' ≠ k →
      Swarm.sentOn k (s.actions ++ [a]) = Swarm.sentOn k s.actions := by
    intro a k' ha hne
    refine sentOn_concat ?_
    rw [ha]
    exact fun heq => hne (Option.some.inj heq)
  have hcall : ∀ {k' : StreamKey}, call.key? = some k' → k' ≠ k := by
    rintro k' hk' rfl
    exact hkey hk'
  cases h with
  | register c p =>
    rcases yieldTo_cases s c p with ⟨heq, -⟩ | ⟨old, -, -, heq⟩
    · rw [heq]
      rfl
    · rw [heq]
      exact hnone rfl
  | rebind c p =>
    simp only [attach, migrateFrom]
    split
    · rfl
    · rfl
  | close c =>
    rcases detach_cases s c with ⟨p, -, -, heq⟩ | ⟨-, heq⟩
    · rw [heq]
      rfl
    · rw [heq]
      rfl
  | openStream p c protocolId target hp =>
    simp only [queueOpenProtocolStream, requireConn, hp]
    exact hnone rfl
  | negotiate a k' ha hk' => exact hother ha (hcall hk')
  | pingAction a k' p ha hown =>
    refine hother ha ?_
    rintro rfl
    exact hping hown
  | identifyAction a c k' p ha hk' hknown hp hc =>
    -- the connection of the peer is the one of the stream
    obtain rfl := Option.some.inj ((hunique _ _ hp).symm.trans hc)
    exact hother ha (hcall hk')
  | userAction a k' p ha hown hp happ => exact absurd happ hconn
  | disconnect p c => exact hnone rfl
  | _ => rfl

omit [Sha256] in
theorem executePingAction_sentOn (a : Ping.PingAction) (hping : s.streamOwner[k]? ≠ some .ping) :
    sentOn k (s.executePingAction a).actions = sentOn k s.actions := by
  have howned : ∀ {p : PeerId} {t : StreamId} {c : ConnectionId} {action : SwarmAction},
      s.connForOwnedStream p t .ping = some c → action.key? = some ⟨c, t⟩ →
      sentOn k (s.actions ++ [action]) = sentOn k s.actions := by
    intro p t c action hfound hkey
    obtain ⟨k', owner, hk', hif⟩ := BTreeMap.exists_of_findMap_eq_some hfound
    split at hif
    · next hcond =>
      obtain ⟨rfl, rfl, -⟩ := hcond
      obtain rfl : k'.conn = c := Option.some.inj hif
      refine sentOn_concat ?_
      rw [hkey]
      rintro ⟨⟩
      exact hping hk'
    · cases hif
  cases a with
  | send p t data =>
    simp only [executePingAction]
    split
    · next c hfound => exact howned hfound rfl
    · rfl
  | closeStreamWrite p t =>
    simp only [executePingAction]
    split
    · next c hfound => exact howned hfound rfl
    · rfl
  | resetStream p t =>
    simp only [executePingAction]
    split
    · next c hfound => exact howned hfound rfl
    · rfl

variable [MultihashCodec]

omit [Sha256] in
theorem handlePingOutput_sentOn (o : PingOutput) (hping : s.streamOwner[k]? ≠ some .ping) :
    sentOn k (s.handlePingOutput o).actions = sentOn k s.actions := by
  cases o with
  | action a => exact executePingAction_sentOn a hping
  | event e =>
    simp only [handlePingOutput, handlePingEvent]
    split <;> rfl

omit [Sha256] in
theorem drainPingOutputs_sentOn (hping : s.streamOwner[k]? ≠ some .ping) :
    sentOn k s.drainPingOutputs.actions = sentOn k s.actions := by
  have hloop : ∀ (outputs : List PingOutput) (t : SwarmCore), t.streamOwner[k]? ≠ some .ping →
      sentOn k (outputs.foldl handlePingOutput t).actions = sentOn k t.actions := by
    intro outputs
    induction outputs with
    | nil => exact fun _ _ => rfl
    | cons o outputs ih =>
      intro t ht
      rw [List.foldl_cons, ih, handlePingOutput_sentOn o ht]
      rw [(tables_oblivious.handlePingOutput t o).streamOwner]
      exact ht
  exact hloop _ { s with ping := s.ping.drainOutputs.2 } hping

omit [Sha256] [MultihashCodec] in
theorem queueOpenProtocolStream_sentOn (s : SwarmCore) (p : PeerId) (protocolId : String)
    (target : ProtocolKind) :
    sentOn k (s.queueOpenProtocolStream p protocolId target).1.actions = sentOn k s.actions := by
  unfold queueOpenProtocolStream
  split
  · rfl
  · exact sentOn_concat (by rintro ⟨⟩)

omit [Sha256] in
theorem handleTick_sentOn (hidle : s.Idle) (nowMs : UInt64)
    (hping : s.streamOwner[k]? ≠ some .ping) :
    sentOn k (s.handleTick nowMs).actions = sentOn k s.actions := by
  have hquiet : (s.feedPing (.tick nowMs)).drainIdentifyOutputs = s.feedPing (.tick nowMs) :=
    drainIdentifyOutputs_of_idle (drainPingOutputs_idle
      (s := { s with ping := (s.ping.handleInput (.tick nowMs)).1 }) hidle.identify).identify
  rw [handleTick, hquiet]
  exact drainPingOutputs_sentOn (s := { s with ping := (s.ping.handleInput (.tick nowMs)).1 }) hping

omit [Sha256] in
theorem pingPeer_sentOn (p : PeerId) (payload : Ping.Payload) (nowMs : UInt64)
    (hping : s.streamOwner[k]? ≠ some .ping) :
    sentOn k (s.pingPeer p payload nowMs).1.actions = sentOn k s.actions := by
  unfold pingPeer
  split
  · rfl
  · split
    · split
      · next ping _ => exact drainPingOutputs_sentOn (s := { s with ping := ping }) hping
      · rfl
    · dsimp only
      split
      · rfl
      · exact queueOpenProtocolStream_sentOn
          { s with pendingPings := s.pendingPings.insert p payload } p _ _

omit [Sha256] [MultihashCodec] in
/-- What the application does with a stream of its own. -/
theorem userStreamAction_sentOn (p : PeerId) (t : StreamId) {action : ConnectionId → SwarmAction}
    (haction : ∀ c, (action c).bytesOn k = []) :
    sentOn k (s.userStreamAction p t action).1.actions = sentOn k s.actions := by
  unfold userStreamAction
  split
  · next c _ =>
    show sentOn k (s.actions ++ [action c]) = _
    rw [sentOn_append, sentOn, sentOn, List.flatMap_singleton, haction, List.append_nil]
  · rfl

omit [Sha256] [MultihashCodec] in
theorem sendUserStream_sentOn (p : PeerId) (t : StreamId) (data : Bytes) :
    sentOn k (s.sendUserStream p t data).1.actions =
      sentOn k s.actions ++ submittedBy k s (.sendUserStream p t data) := by
  simp only [sendUserStream, userStreamAction, submittedBy]
  cases s.requireUserStreamConn p t with
  | ok c =>
    show sentOn k (s.actions ++ [_]) = _
    rw [sentOn_append, sentOn, sentOn, List.flatMap_singleton]
    rfl
  | error e => exact (List.append_nil _).symm

/-- A call about another stream, or about none, sends on the stream what the application hands over
with it. -/
theorem step_sentOn (hcoh : Coherent calls s) (hcontract : TransportContract calls call)
    (hclash : NoClash s call) (hunique : Unique s) (hpoll : call ≠ .pollOutput)
    (hkey : call.key? ≠ some k) (hping : s.streamOwner[k]? ≠ some .ping) :
    sentOn k (step s call).actions = sentOn k s.actions ++ submittedBy k s call := by
  by_cases hconn : call.conn? = none
  · rcases call with (⟨event, nowMs⟩ | nowMs | _ | ⟨token, reason, nowMs⟩ | error) | _
    case input.transport =>
      cases event with
      | listening addr => exact (List.append_nil _).symm
      | _ => cases hconn
    case input.tick => exact (handleTick_sentOn hcoh.idle nowMs hping).trans (List.append_nil _).symm
    case input.streamOpened => cases hconn
    case input.openStreamFailed =>
      refine Eq.trans ?_ (List.append_nil _).symm
      simp only [step, handleInput, handleOpenStreamFailed]
      split <;> rfl
    case input.runtimeError => exact (List.append_nil _).symm
    case pollOutput => exact absurd rfl hpoll
    case setLocalAddresses => exact (List.append_nil _).symm
    case addUserProtocol => exact (List.append_nil _).symm
    case ping p payload nowMs =>
      exact (pingPeer_sentOn p payload nowMs hping).trans (List.append_nil _).symm
    case openUserStream p protocolId =>
      refine Eq.trans ?_ (List.append_nil _).symm
      simp only [step, openUserStream]
      repeat' split
      all_goals first | rfl | exact queueOpenProtocolStream_sentOn s p protocolId _
    case sendUserStream p t data => exact sendUserStream_sentOn p t data
    case closeUserStreamWrite p t =>
      exact (userStreamAction_sentOn p t fun _ => rfl).trans (List.append_nil _).symm
    case resetUserStream p t =>
      exact (userStreamAction_sentOn p t fun _ => rfl).trans (List.append_nil _).symm
    case disconnect p =>
      refine Eq.trans ?_ (List.append_nil _).symm
      simp only [step, disconnect]
      split
      · exact sentOn_concat (by rintro ⟨⟩)
      · rfl
  · have hnone : submittedBy k s call = [] := by
      unfold submittedBy
      split
      · exact absurd rfl hconn
      · rfl
    rw [hnone, List.append_nil]
    have hkept : Primary (step s call) ∧ Unique (step s call) ∧ LeAt k s (step s call) ∧
        sentOn k (step s call).actions = sentOn k s.actions := by
      refine @Runs.keeps_of_chain _ _ (fun t => Primary t ∧ Unique t ∧ LeAt k s t ∧
        sentOn k t.actions = sentOn k s.actions) _ _ (step_moves hcoh hcontract hpoll) ?_
        ⟨hcoh.primary, hunique, .of_same ⟨rfl, rfl, rfl⟩, rfl⟩
      rintro t t' hmove ⟨hprimary, ht, hle, hsent⟩
      have hping' : t.streamOwner[k]? ≠ some .ping := fun h => hping (hle.owner _ h)
      exact ⟨hmove.primary hprimary, hmove.unique hclash hprimary ht, hle.trans (hmove.leAt hkey),
        (hmove.sentOn hkey hconn ht hping').trans hsent⟩
    exact hkept.2.2.2

end Quiet

/-! ## The protocols of requested streams -/

/-- A stream that is requested for the application is requested for its protocol. -/
def Asked (s : SwarmCore) : Prop :=
  ∀ (token : OpenStreamToken) (pending : PendingOpen), s.pendingOpens[token]? = some pending →
    ∀ protocol, pending.target = .user protocol → pending.protocol = protocol

section Requests

variable {s s' : SwarmCore} {call : Call} {calls : List Call}

theorem Asked.shrink (hs : Asked s) (h : ∀ (token : OpenStreamToken) (pending : PendingOpen),
    s'.pendingOpens[token]? = some pending → s.pendingOpens[token]? = some pending) : Asked s' :=
  fun token pending hpending => hs token pending (h token pending hpending)

theorem Asked.same (hs : Asked s) (h : s'.pendingOpens = s.pendingOpens) : Asked s' :=
  hs.shrink fun _ _ hpending => h ▸ hpending

theorem Asked.erase (hs : Asked s) {token : OpenStreamToken}
    (h : s'.pendingOpens = s.pendingOpens.erase token) : Asked s' :=
  hs.shrink fun _ _ hpending => (BTreeMap.getElem?_erase_eq_some_iff.mp (h ▸ hpending)).2

theorem Asked.withoutConn (hs : Asked s) {c : ConnectionId}
    (h : s'.pendingOpens = (s.withoutConn c).pendingOpens) : Asked s' :=
  hs.shrink fun _ _ hpending => (BTreeMap.getElem?_filter_eq_some_iff.mp (h ▸ hpending)).1

theorem Asked.yieldTo (hs : Asked s) (c : ConnectionId) (p : PeerId) : Asked (s.yieldTo c p) := by
  rcases yieldTo_requests_cases s c p with ⟨heq, -⟩ | ⟨old, -, -, heq, -⟩
  · exact hs.same heq
  · exact hs.withoutConn heq

theorem Asked.queueOpen (hs : Asked s) (p : PeerId) {protocolId : String} {target : ProtocolKind}
    (htarget : ∀ protocol, target = .user protocol → protocolId = protocol) :
    Asked (s.queueOpenProtocolStream p protocolId target).1 := by
  unfold queueOpenProtocolStream
  split
  · exact hs
  · intro token pending hpending
    rcases BTreeMap.getElem?_insert_eq_some_iff.mp hpending with ⟨-, rfl⟩ | ⟨-, hold⟩
    · exact htarget
    · exact hs token pending hold

theorem Asked.openOrReport (hs : Asked s) (p : PeerId) (c : ConnectionId) {protocolId : String}
    {target : ProtocolKind} (htarget : ∀ protocol, target = .user protocol → protocolId = protocol)
    (kind : SwarmErrorKind) (detail : SwarmError → String) :
    Asked (s.openOrReport p c protocolId target kind detail) := by
  have hqueued := hs.queueOpen p htarget
  unfold SwarmCore.openOrReport
  split
  · next heq =>
    rw [heq] at hqueued
    exact hqueued
  · next heq =>
    rw [heq] at hqueued
    exact hqueued.same rfl

theorem Asked.announceConnection [MultihashCodec] (hs : Asked s) (c : ConnectionId) (p : PeerId) :
    Asked (s.announceConnection c p) := by
  have hestablished : Asked ({ s with establishedPeers := s.establishedPeers.insert p }.pushEvent
      (.connectionEstablished p)) := hs.same rfl
  simp only [SwarmCore.announceConnection]
  split
  · exact (hestablished.openOrReport _ _ (by rintro _ ⟨⟩) _ _).openOrReport _ _ (by rintro _ ⟨⟩) _ _
  · exact hestablished.openOrReport _ _ (by rintro _ ⟨⟩) _ _

variable [Sha256]

/-- A turn of a call that asks for no stream. -/
theorem Turn.keeps_asked {s₀ : SwarmCore} (h : Turn s₀ call s s') (hnone : s₀.requestTokens call = [])
    (hs : Asked s) : Asked s' := by
  cases h with
  | register c p => exact (hs.yieldTo c p).same rfl
  | rebind c p =>
    refine hs.same ?_
    rw [(tables_oblivious.tryEmitPeerReady _ p).pendingOpens]
    simp only [attach, migrateFrom]
    split <;> rfl
  | close c => exact hs.withoutConn (detach_requests s c).1
  | ask p c protocolId target htoken =>
    rw [hnone] at htoken
    cases htoken
  | refuse token e => exact hs.erase rfl
  | opened k token pending negotiator => exact hs.erase rfl
  | received k p info =>
    exact hs.same (tables_oblivious.handleIdentifyOutput s (.event (.received p info))).pendingOpens
  | _ => exact hs.same rfl

variable [MultihashCodec]

theorem step_asked (hcoh : Coherent calls s) (hcontract : TransportContract calls call)
    (hcall : Identifies s call) (hs : Asked s) : Asked (step s call) := by
  have hturns : call ≠ .pollOutput → s.requestTokens call = [] → Asked (step s call) :=
    fun hpoll hnone => Runs.keeps_of_chain (J := Asked) (step_turns hcoh hcontract hpoll)
      (fun _ _ hturn => hturn.keeps_asked hnone) hs
  rcases call with (⟨event, nowMs⟩ | nowMs | _ | ⟨token, reason, nowMs⟩ | error) | _
  case input.transport =>
    cases event with
    | connected c endpoint =>
      cases hendpoint : endpoint.peerId with
      | none =>
        simp only [step, handleInput, handleTransportEvent, hendpoint, ensurePeerIdForConn]
        split <;> exact hs.same rfl
      | some p =>
        let t : SwarmCore := { s with
          activeConnections := s.activeConnections.insert c true
          connToRemoteAddr := s.connToRemoteAddr.insert c endpoint.transport }
        have hother : t.supersedeOther c p = t.yieldTo c p :=
          supersedeOther_eq (s := t) ⟨hcoh.idle.ping, hcoh.idle.identify⟩ (hcoh.primary p)
        have hinserted : Asked t := hs.same rfl
        have hyield : Asked (t.yieldTo c p) := hinserted.yieldTo c p
        have hattached : Asked { t.yieldTo c p with
            connToPeer := (t.yieldTo c p).connToPeer.insert c p
            peerToConn := (t.yieldTo c p).peerToConn.insert p c } := hyield.same rfl
        have hstep : step s (.input (.transport (.connected c endpoint) nowMs)) =
            t.registerConnection c p := by
          simp only [step, handleInput, handleTransportEvent, hendpoint]
          rfl
        rw [hstep]
        simp only [registerConnection, hother]
        split
        · exact hattached.announceConnection c p
        · exact hattached
    | peerIdentityVerified c endpoint previous =>
      -- the connection is known under its peer
      simp only [step, handleInput, handleTransportEvent]
      split
      · next p hp =>
        have hknown := hcall.verifies c p ⟨endpoint, previous, nowMs, rfl, hp⟩
        simp only [upgradeConnectionIdentity, hknown, ↓reduceIte]
        exact hs.same rfl
      · exact hs.same rfl
    | _ => exact hturns (by rintro ⟨⟩) rfl
  case pollOutput =>
    obtain ⟨events, actions, heq⟩ := pollOutput_eq s
    rw [step, heq]
    exact hs.same rfl
  case ping p payload nowMs =>
    simp only [step, pingPeer]
    split
    · exact hs
    · split
      · split
        · next ping _ =>
          have hsent : Asked { s with ping := ping } := hs.same rfl
          exact hsent.same (tables_oblivious.drainPingOutputs _).pendingOpens
        · exact hs.same rfl
      · split
        · exact hs.same rfl
        · have hdeferred : Asked { s with pendingPings := s.pendingPings.insert p payload } :=
            hs.same rfl
          exact hdeferred.queueOpen p (by rintro _ ⟨⟩)
  case openUserStream p protocolId =>
    simp only [step, openUserStream]
    repeat' split
    all_goals first | exact hs | exact hs.queueOpen p (by rintro _ ⟨⟩; rfl)
  all_goals exact hturns (by rintro ⟨⟩) rfl

end Requests

end Minip2p.Swarm
