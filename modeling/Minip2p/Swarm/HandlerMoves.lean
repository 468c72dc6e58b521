import Minip2p.Swarm.Tables

/-!
# Draining and polling as moves

What the core does with the outputs of a protocol handler or of a negotiator is a chain of moves.
`At` is the setting of most of them: the call is about a stream of a tracked connection.
-/

namespace Minip2p.Swarm

open Identify (IdentifyInput IdentifyOutput IdentifyProtocol identifyProtocolId)
open Multistream (MultistreamOutput)
open Ping (PingInput PingOutput PingProtocol pingProtocolId)
open SwarmCore

theorem Call.conn?_of_eventConn? {call : Call} {c : ConnectionId} (h : call.eventConn? = some c) :
    call.conn? = some c := by
  rcases call with (⟨event, nowMs⟩ | _ | _ | _ | _) | _
  all_goals first | exact h | cases h

section Chains

variable [Sha256] [MultihashCodec] {s₀ s : SwarmCore} {call : Call}

/-! ## Idle handlers stay idle -/

omit [MultihashCodec] in
theorem Move.idle {s s' : SwarmCore} (h : Move s₀ call s s') (hs : s.Idle) : s'.Idle := by
  cases h with
  | register c p => exact ⟨(hs.yieldTo c p).ping, (hs.yieldTo c p).identify⟩
  | rebind c p => exact ⟨(hs.migrateFrom c p).ping, (hs.migrateFrom c p).identify⟩
  | close c => exact hs.detach c
  | openStream p c protocolId target => exact hs.queueOpen p protocolId target
  | ping ping hidle => exact ⟨hidle, hs.identify⟩
  | identify identify hidle => exact ⟨hs.ping, hidle⟩
  | _ => exact ⟨hs.ping, hs.identify⟩

omit [MultihashCodec] in
theorem Moves.idle {s' : SwarmCore} (h : Moves s₀ call s s') (hs : s.Idle) : s'.Idle :=
  Runs.keeps_of_chain h (fun _ _ hmove => hmove.idle) hs

/-! ## Draining the handlers -/

omit [MultihashCodec] in
theorem moves_executePingAction (a : Ping.PingAction)
    (hcause : ∀ c, call.conn? = some c → s.connToPeer[c]? = some a.peerId) :
    Moves s₀ call s (s.executePingAction a) := by
  -- the three actions find their connection the same way
  have howned : ∀ {p : PeerId} {t : StreamId} {c : ConnectionId} {action : SwarmAction},
      (∀ c, call.conn? = some c → s.connToPeer[c]? = some p) →
      s.connForOwnedStream p t .ping = some c → action.key? = some ⟨c, t⟩ →
      Moves s₀ call s (s.pushAction action) := by
    intro p t c action hp hfound hkey
    obtain ⟨k, owner, hk, hif⟩ := BTreeMap.exists_of_findMap_eq_some hfound
    split at hif
    · next hcond =>
      obtain ⟨rfl, rfl, hpeer⟩ := hcond
      obtain rfl : k.conn = c := Option.some.inj hif
      exact .single (.pingAction action k p hkey hk hpeer hp)
    · cases hif
  cases a with
  | send p t data =>
    simp only [executePingAction]
    split
    · next c hfound => exact howned hcause hfound rfl
    · exact .refl
  | closeStreamWrite p t =>
    simp only [executePingAction]
    split
    · next c hfound => exact howned hcause hfound rfl
    · exact .refl
  | resetStream p t =>
    simp only [executePingAction]
    split
    · next c hfound => exact howned hcause hfound rfl
    · exact .refl

theorem moves_handlePingEvent (e : Ping.PingEvent)
    (htracked : ∀ c, call.eventConn? = some c → c ∈ s.connToPeer) :
    Moves s₀ call s (s.handlePingEvent e) := by
  simp only [handlePingEvent]
  split
  · exact .single (.plainEvent _ rfl rfl (.inr htracked))
  · exact .single (.plainEvent _ rfl rfl (.inr htracked))
  · exact .single (.plainEvent _ rfl rfl (.inl rfl))
  · exact .refl

theorem moves_pingOutputs (outputs : List PingOutput)
    (hcause : ∀ a, .action a ∈ outputs →
      ∀ c, call.conn? = some c → s.connToPeer[c]? = some a.peerId)
    (htracked : ∀ c, call.eventConn? = some c → c ∈ s.connToPeer) :
    Moves s₀ call s (outputs.foldl handlePingOutput s) := by
  induction outputs generalizing s with
  | nil => exact .refl
  | cons o outputs ih =>
    have hfirst : Moves s₀ call s (s.handlePingOutput o) := by
      cases o with
      | action a => exact moves_executePingAction a (hcause a List.mem_cons_self)
      | event e => exact moves_handlePingEvent e htracked
    have htables := tables_oblivious.handlePingOutput s o
    refine hfirst.trans (ih ?_ ?_)
    · intro a ha
      rw [htables.connToPeer]
      exact hcause a (List.mem_cons_of_mem _ ha)
    · rw [htables.connToPeer]
      exact htracked

/-- A handler's outputs after an input: the machine, then what it had to say. -/
theorem moves_drainPing {ping : PingProtocol}
    (hcause : ∀ a ∈ ping.pendingActions,
      ∀ c, call.conn? = some c → s.connToPeer[c]? = some a.peerId)
    (htracked : ∀ c, call.eventConn? = some c → c ∈ s.connToPeer)
    (hpeers : ∀ q, q ∈ ping.peers →
      q ∈ s.ping.peers ∨ ∃ c, call.eventConn? = some c ∧ s.connToPeer[c]? = some q) :
    Moves s₀ call s { s with ping := ping }.drainPingOutputs := by
  -- the machine changes first, as its outputs are a snapshot
  have hdrained : Moves s₀ call s { s with ping := ping.drainOutputs.2 } :=
    .single (.ping _ ⟨rfl, rfl⟩ hpeers)
  refine hdrained.trans (moves_pingOutputs _ ?_ htracked)
  intro a ha
  refine hcause a ?_
  simpa only [PingProtocol.drainOutputs, List.mem_append, List.mem_map, PingOutput.action.injEq,
    exists_eq_right, reduceCtorEq, and_false, exists_false, or_false] using ha

omit [MultihashCodec] in
theorem moves_tryEmitPeerReady (p : PeerId)
    (htracked : ∀ c, call.eventConn? = some c → c ∈ s.connToPeer) :
    Moves s₀ call s (s.tryEmitPeerReady p) := by
  rcases tryEmitPeerReady_cases s p with heq | ⟨info, hinfo, hconn, heq⟩
  · rw [heq]
  · rw [heq]
    -- PeerReady needs the answer of identify and a connection
    have hready : Move s₀ call s { s with readyPeers := s.readyPeers.insert p } :=
      .ready p (BTreeMap.mem_of_getElem? hinfo) hconn
    exact (Relation.ReflTransGen.single hready).tail (.plainEvent _ rfl rfl (.inr htracked))

/-- A call about a stream the core knows, of a connection that is tracked as `p`. -/
structure At (s₀ : SwarmCore) (call : Call) (k : StreamKey) (p : PeerId) (s : SwarmCore) :
    Prop where
  key : call.key? = some k
  eventConn : call.eventConn? = some k.conn
  known : s₀.Files k ∨ call.announces? = some k
  peer : s.connToPeer[k.conn]? = some p

section At

variable {k : StreamKey} {p : PeerId}

omit [Sha256] [MultihashCodec] in
theorem At.tracked (h : At s₀ call k p s) (c : ConnectionId) (hc : call.eventConn? = some c) :
    c ∈ s.connToPeer := by
  obtain rfl : k.conn = c := Option.some.inj (h.eventConn.symm.trans hc)
  exact Std.ExtTreeMap.mem_iff_isSome_getElem?.mpr (by rw [h.peer]; rfl)

omit [Sha256] [MultihashCodec] in
theorem At.conn_tracked (h : At s₀ call k p s) : k.conn ∈ s.connToPeer :=
  h.tracked k.conn h.eventConn

omit [Sha256] [MultihashCodec] in
theorem At.cause (h : At s₀ call k p s) (c : ConnectionId) (hc : call.conn? = some c) :
    s.connToPeer[c]? = some p := by
  have hconn : call.conn? = some k.conn := Call.conn?_of_eventConn? h.eventConn
  obtain rfl : k.conn = c := Option.some.inj (hconn.symm.trans hc)
  exact h.peer

omit [Sha256] [MultihashCodec] in
theorem At.of_connToPeer {s' : SwarmCore} (h : At s₀ call k p s)
    (hs : s'.connToPeer = s.connToPeer) : At s₀ call k p s' :=
  ⟨h.key, h.eventConn, h.known, by rw [hs]; exact h.peer⟩

omit [Sha256] [MultihashCodec] in
/-- A peer that a handler knows after an input about `p`: an old one, or the peer of the call. -/
theorem At.old_or_peer (h : At s₀ call k p s) {q : PeerId} {old : Prop} (hq : old ∨ q = p) :
    old ∨ ∃ c, call.eventConn? = some c ∧ s.connToPeer[c]? = some q := by
  rcases hq with hold | rfl
  · exact .inl hold
  · exact .inr ⟨k.conn, h.eventConn, h.peer⟩

omit [MultihashCodec] in
/-- An event about the stream of the call, for the peer of its connection. -/
theorem At.userEvent (h : At s₀ call k p s) (e : SwarmEvent) (hplain : e.lifecycle? = none)
    (huser : e.userStream? = some (p, k.stream)) (hdata : e.isUserData → call.isData) :
    Move s₀ call s (s.pushEvent e) := by
  refine .event e hplain (.inr h.tracked) ?_ hdata
  intro q t hq
  obtain ⟨rfl, rfl⟩ := Prod.mk.inj (Option.some.inj (huser.symm.trans hq))
  exact ⟨k.conn, h.key, h.peer⟩

/-- Draining ping after an input about the peer of the stream. -/
theorem moves_drainPing_at (h : At s₀ call k p s) {ping : PingProtocol}
    (hfor : PingProtocol.For p s.ping ping) (hidle : s.ping.Idle) :
    Moves s₀ call s { s with ping := ping }.drainPingOutputs := by
  refine moves_drainPing ?_ h.tracked ?_
  · intro a ha c hc
    have hpeer : a.peerId = p := by
      -- nothing was queued before the input
      refine (hfor.actions a ha).resolve_left ?_
      rw [hidle.1]
      exact List.not_mem_nil
    rw [hpeer]
    exact h.cause c hc
  · intro q hq
    exact h.old_or_peer (hfor.peers q hq)

omit [MultihashCodec] in
/-- An input that ping rejects leaves nothing to drain. -/
theorem moves_rejectedPing_at (h : At s₀ call k p s) (hidle : s.ping.Idle) {input : PingInput}
    (hinput : input.peer? = some p) {ping : PingProtocol} {e : Ping.PingError}
    (hres : s.ping.handleInput input = (ping, .error e)) :
    Moves s₀ call s { s with ping := ping } := by
  have hfor : PingProtocol.For p s.ping (s.ping.handleInput input).1 :=
    PingProtocol.handleInput_for s.ping hinput
  have hidle' : (s.ping.handleInput input).1.Idle :=
    PingProtocol.idle_of_error hidle (congrArg Prod.snd hres)
  rw [hres] at hfor hidle'
  exact .single (.ping ping hidle' fun q hq => h.old_or_peer (hfor.peers q hq))

theorem moves_feedPing_at (h : At s₀ call k p s) (hidle : s.ping.Idle) {input : PingInput}
    (hinput : input.peer? = some p) : Moves s₀ call s (s.feedPing input) :=
  moves_drainPing_at h (PingProtocol.handleInput_for s.ping hinput) hidle

omit [MultihashCodec] in
theorem moves_executeIdentifyAction (h : At s₀ call k p s) (a : Identify.IdentifyAction)
    (ha : a.target = (p, k.stream)) : Moves s₀ call s (s.executeIdentifyAction a) := by
  cases a with
  | send peerId t data =>
    obtain ⟨rfl, rfl⟩ : peerId = p ∧ t = k.stream := Prod.mk.inj ha
    simp only [executeIdentifyAction]
    split
    · next c hc => exact .single (.identifyAction _ c k peerId rfl h.key h.known h.peer hc)
    · exact .refl
  | closeStreamWrite peerId t =>
    obtain ⟨rfl, rfl⟩ : peerId = p ∧ t = k.stream := Prod.mk.inj ha
    simp only [executeIdentifyAction]
    split
    · next c hc => exact .single (.identifyAction _ c k peerId rfl h.key h.known h.peer hc)
    · exact .refl

omit [MultihashCodec] in
theorem moves_handleIdentifyEvent (h : At s₀ call k p s) (e : Identify.IdentifyEvent)
    (he : e.peerId = p) : Moves s₀ call s (s.handleIdentifyEvent e) := by
  cases e with
  | received peerId info =>
    obtain rfl : peerId = p := he
    have hinfo : Moves s₀ call s { s with peerInfo := s.peerInfo.insert peerId info } :=
      .single (.info peerId info k.conn h.eventConn h.peer)
    have hreceived := hinfo.tail
      (.plainEvent (.identifyReceived peerId info) rfl rfl (.inr h.tracked))
    exact hreceived.trans (moves_tryEmitPeerReady peerId h.tracked)
  | error peerId t error => exact .single (.plainEvent _ rfl rfl (.inl rfl))

omit [MultihashCodec] in
theorem moves_identifyOutputs (h : At s₀ call k p s) (outputs : List IdentifyOutput)
    (hactions : ∀ a, .action a ∈ outputs → a.target = (p, k.stream))
    (hevents : ∀ e, .event e ∈ outputs → e.peerId = p) :
    Moves s₀ call s (outputs.foldl handleIdentifyOutput s) := by
  induction outputs generalizing s with
  | nil => exact .refl
  | cons o outputs ih =>
    have hfirst : Moves s₀ call s (s.handleIdentifyOutput o) := by
      cases o with
      | action a => exact moves_executeIdentifyAction h a (hactions a List.mem_cons_self)
      | event e => exact moves_handleIdentifyEvent h e (hevents e List.mem_cons_self)
    have hnext : At s₀ call k p (s.handleIdentifyOutput o) :=
      h.of_connToPeer (tables_oblivious.handleIdentifyOutput s o).connToPeer
    refine hfirst.trans (ih hnext ?_ ?_)
    · exact fun a ha => hactions a (List.mem_cons_of_mem _ ha)
    · exact fun e he => hevents e (List.mem_cons_of_mem _ he)

omit [MultihashCodec] in
/-- Draining identify after an input about the stream. -/
theorem moves_drainIdentify_at (h : At s₀ call k p s) {identify : IdentifyProtocol}
    (hfor : IdentifyProtocol.For p k.stream s.identify identify) (hidle : s.identify.Idle) :
    Moves s₀ call s { s with identify := identify }.drainIdentifyOutputs := by
  obtain ⟨hactions, hevents⟩ := hfor.of_idle hidle
  have hdrained : Moves s₀ call s { s with identify := identify.drainOutputs.2 } := by
    refine .single (.identify _ ⟨rfl, rfl⟩ ?_)
    intro q hq
    exact h.old_or_peer (hfor.peers q hq)
  have hat : At s₀ call k p { s with identify := identify.drainOutputs.2 } := h.of_connToPeer rfl
  refine hdrained.trans (moves_identifyOutputs hat _ ?_ ?_)
  · intro a ha
    refine hactions a ?_
    simpa only [IdentifyProtocol.drainOutputs, List.mem_append, List.mem_map,
      IdentifyOutput.action.injEq, exists_eq_right, reduceCtorEq, and_false, exists_false,
      or_false] using ha
  · intro e he
    refine hevents e ?_
    simpa only [IdentifyProtocol.drainOutputs, List.mem_append, List.mem_map,
      IdentifyOutput.event.injEq, exists_eq_right, reduceCtorEq, and_false, exists_false,
      false_or] using he

theorem moves_feedIdentify_at (h : At s₀ call k p s) (hidle : s.identify.Idle)
    {input : IdentifyInput} (hinput : input.target? = some (p, k.stream)) :
    Moves s₀ call s (s.feedIdentify input) :=
  moves_drainIdentify_at h (IdentifyProtocol.handleInput_for s.identify hinput) hidle

end At

/-! ## Negotiation -/

omit [MultihashCodec] in
theorem moves_handleMultistreamOutput {k : StreamKey} (hk : call.key? = some k)
    (hknown : s₀.Files k ∨ call.announces? = some k)
    (hc : call.eventConn? = some k.conn ∨ k.conn ∈ s.connToPeer) (o : MultistreamOutput)
    (negotiated : Option String) :
    Moves s₀ call s (s.handleMultistreamOutput k o negotiated).1 := by
  cases o with
  | outboundData bytes => exact .single (.negotiate _ k rfl hk hknown hc)
  | negotiated protocol => exact .refl
  | notAvailable => exact .refl
  | protocolError reason => exact .single (.plainEvent _ rfl rfl (.inl rfl))

omit [MultihashCodec] in
theorem moves_pollInbound {k : StreamKey} (hk : call.key? = some k)
    (hknown : s₀.Files k ∨ call.announces? = some k) (hc : call.eventConn? = some k.conn)
    (outputs : List MultistreamOutput) (negotiated : Option String) :
    Moves s₀ call s (pollInbound k outputs s negotiated).1 := by
  induction outputs generalizing s negotiated with
  | nil => exact .refl
  | cons o outputs ih =>
    have hone : Moves s₀ call s (s.handleMultistreamOutput k o negotiated).1 :=
      moves_handleMultistreamOutput hk hknown (.inl hc) o negotiated
    rw [pollInbound]
    split
    · next heq => simpa only [heq] using hone
    · next heq =>
      rw [heq] at hone
      exact hone.trans (ih _)

omit [MultihashCodec] in
theorem moves_pollOutbound {k : StreamKey} (hk : call.key? = some k)
    (hknown : s₀.Files k ∨ call.announces? = some k) (hc : call.eventConn? = some k.conn)
    (outputs : List MultistreamOutput) (s : SwarmCore) (negotiated : Bool) :
    Moves s₀ call s (pollOutbound k outputs s negotiated).1 := by
  fun_induction pollOutbound k outputs s negotiated with
  | case1 => exact .refl
  | case2 _ _ _ _ ih => exact ih
  | case3 => exact .single (.plainEvent _ rfl rfl (.inl rfl))
  | case4 o _ s _ _ _ s' _ heq =>
    have hone : Moves s₀ call s (s.handleMultistreamOutput k o none).1 :=
      moves_handleMultistreamOutput hk hknown (.inl hc) o none
    simpa only [heq] using hone
  | case5 o _ s _ _ _ s' _ heq ih =>
    have hone : Moves s₀ call s (s.handleMultistreamOutput k o none).1 :=
      moves_handleMultistreamOutput hk hknown (.inl hc) o none
    rw [heq] at hone
    exact hone.trans ih

omit [MultihashCodec] in
theorem moves_pollStart {k : StreamKey} (hk : call.key? = some k)
    (hknown : s₀.Files k ∨ call.announces? = some k)
    (hc : call.eventConn? = some k.conn ∨ k.conn ∈ s.connToPeer)
    (outputs : List MultistreamOutput) : Moves s₀ call s (pollStart k outputs s) := by
  induction outputs generalizing s with
  | nil => exact .refl
  | cons o outputs ih =>
    have hone : Moves s₀ call s (s.handleMultistreamOutput k o none).1 :=
      moves_handleMultistreamOutput hk hknown hc o none
    refine hone.trans (ih ?_)
    rw [(tables_oblivious.handleMultistreamOutput s k o none).connToPeer]
    exact hc

omit [Sha256] [MultihashCodec] in
/-- A protocol the polling loop reports was among the outputs. -/
theorem negotiated_of_pollInbound {k : StreamKey} {outputs : List MultistreamOutput}
    {s s' : SwarmCore} {negotiated : Option String} {protocol : String} {failed : Bool}
    (h : pollInbound k outputs s negotiated = (s', some protocol, failed)) :
    negotiated = some protocol ∨ .negotiated protocol ∈ outputs := by
  induction outputs generalizing s negotiated with
  | nil =>
    obtain ⟨-, h, -⟩ : s = s' ∧ negotiated = some protocol ∧ false = failed := by
      simpa only [pollInbound, Prod.mk.injEq] using h
    exact .inl h
  | cons o outputs ih =>
    -- an output other than `negotiated` leaves the protocol as it was
    have hkept : ∀ {s₁ : SwarmCore} {negotiated₁ : Option String} {failed₁ : Bool},
        s.handleMultistreamOutput k o negotiated = (s₁, negotiated₁, failed₁) →
        negotiated₁ = some protocol →
          negotiated = some protocol ∨ .negotiated protocol ∈ o :: outputs := by
      intro s₁ negotiated₁ failed₁ hone hsome
      cases o with
      | negotiated other =>
        obtain ⟨-, rfl, -⟩ : s = s₁ ∧ some other = negotiated₁ ∧ false = failed₁ := by
          simpa only [handleMultistreamOutput, Prod.mk.injEq] using hone
        obtain rfl : other = protocol := Option.some.inj hsome
        exact .inr List.mem_cons_self
      | outboundData bytes =>
        simp only [handleMultistreamOutput, Prod.mk.injEq] at hone
        exact .inl (hone.2.1.trans hsome)
      | notAvailable =>
        simp only [handleMultistreamOutput, Prod.mk.injEq] at hone
        exact .inl (hone.2.1.trans hsome)
      | protocolError reason =>
        simp only [handleMultistreamOutput, Prod.mk.injEq] at hone
        exact .inl (hone.2.1.trans hsome)
    rw [pollInbound] at h
    split at h
    · next hone =>
      simp only [Prod.mk.injEq] at h
      exact hkept hone h.2.1
    · next hone =>
      rcases ih h with hsome | hmem
      · exact hkept hone hsome
      · exact .inr (List.mem_cons_of_mem _ hmem)

end Chains

end Minip2p.Swarm
