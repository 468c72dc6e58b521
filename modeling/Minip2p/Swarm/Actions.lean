import Minip2p.Swarm.ConnectionMaps

/-!
# Queued actions

Every action a call queues has one of five reasons (`Justified`). From them: while the connection
maps are mutually inverse, an action names a stream that was announced on its own connection, and
a call about one connection queues stream actions for that connection only.
-/

namespace Minip2p.Swarm

open SwarmCore

/-- Why a call, made in `s₀`, queues an action in state `s`. -/
inductive Justified (s₀ : SwarmCore) (call : Call) (s : SwarmCore) (a : SwarmAction) : Prop
  /-- A stream is opened on, or a close asked of, the connection of a peer. -/
  | connection (p : PeerId) (ha : a.key? = none) (hp : s.peerToConn[p]? = some a.conn)
  /-- The stream of the call is being negotiated. -/
  | negotiation (k : StreamKey) (ha : a.key? = some k) (hk : call.key? = some k)
      (hknown : s₀.Files k ∨ call.announces? = some k)
      (hc : call.eventConn? = some k.conn ∨ k.conn ∈ s.connToPeer)
  /-- Ping answers on a stream it owns. -/
  | ping (k : StreamKey) (p : PeerId) (ha : a.key? = some k) (hown : k ∈ s.streamOwner)
      (hp : s.connToPeer[k.conn]? = some p)
      (hcause : ∀ c, call.conn? = some c → s.connToPeer[c]? = some p)
  /-- Identify answers on the connection of the peer. -/
  | identify (k : StreamKey) (p : PeerId) (ha : a.key? = some ⟨a.conn, k.stream⟩)
      (hk : call.key? = some k) (hknown : s₀.Files k ∨ call.announces? = some k)
      (hp : s.connToPeer[k.conn]? = some p) (hc : s.peerToConn[p]? = some a.conn)
  /-- The application uses a stream of its own. -/
  | user (k : StreamKey) (p : PeerId) (ha : a.key? = some k) (hown : k ∈ s.streamOwner)
      (hp : s.connToPeer[k.conn]? = some p) (happ : call.conn? = none)

theorem SwarmAction.conn_of_key? {a : SwarmAction} {k : StreamKey} (h : a.key? = some k) :
    a.conn = k.conn := by
  cases a with
  | openStream c token => cases h
  | closeConnection c => cases h
  | sendStream c t data => exact congrArg StreamKey.conn (Option.some.inj h)
  | closeStreamWrite c t => exact congrArg StreamKey.conn (Option.some.inj h)
  | resetStream c t => exact congrArg StreamKey.conn (Option.some.inj h)

/-- A list that starts with what was left of `old` and goes on with elements that satisfy `P`. -/
def Extends {α : Type} (P : α → Prop) (old new : List α) : Prop :=
  ∃ kept added, new = kept ++ added ∧ kept <:+ old ∧ ∀ a ∈ added, P a

section Moves

variable [Sha256] {s₀ s s' : SwarmCore} {call : Call}

/-- The actions a move queues, with their reason. -/
theorem Move.justified (h : Move s₀ call s s') :
    ∃ added, s'.actions = s.actions ++ added ∧ ∀ a ∈ added, Justified s₀ call s a := by
  have hnone : ∀ {actions : List SwarmAction}, actions = s.actions →
      ∃ added, actions = s.actions ++ added ∧ ∀ a ∈ added, Justified s₀ call s a := by
    intro actions heq
    refine ⟨[], by rw [heq, List.append_nil], ?_⟩
    intro a ha
    cases ha
  have hone : ∀ {action : SwarmAction}, Justified s₀ call s action →
      ∃ added, s.actions ++ [action] = s.actions ++ added ∧
        ∀ a ∈ added, Justified s₀ call s a := by
    intro action hjust
    refine ⟨[action], rfl, ?_⟩
    intro a ha
    rw [List.mem_singleton.mp ha]
    exact hjust
  cases h with
  | register c p =>
    rcases yieldTo_cases s c p with ⟨heq, -⟩ | ⟨old, hold, -, heq⟩
    · rw [heq]
      exact hnone rfl
    · rw [heq]
      exact hone (.connection p rfl hold)
  | rebind c p =>
    refine hnone ?_
    simp only [attach, migrateFrom]
    split
    · rfl
    · rfl
  | close c =>
    refine hnone ?_
    rcases detach_cases s c with ⟨p, -, -, heq⟩ | ⟨-, heq⟩
    · rw [heq]
      rfl
    · rw [heq]
      rfl
  | openStream p c protocolId target hp =>
    simp only [queueOpenProtocolStream, requireConn, hp]
    exact hone (.connection p rfl hp)
  | negotiate a k ha hk hknown hc => exact hone (.negotiation k ha hk hknown hc)
  | pingAction a k p ha hown hp hcause =>
    exact hone (.ping k p ha (BTreeMap.mem_of_getElem? hown) hp hcause)
  | identifyAction a c k p ha hk hknown hp hc =>
    obtain rfl : a.conn = c := SwarmAction.conn_of_key? ha
    exact hone (.identify k p ha hk hknown hp hc)
  | userAction a k p ha hown hp happ => exact hone (.user k p ha hown hp happ)
  | disconnect p c hp => exact hone (.connection p rfl hp)
  | _ => exact hnone rfl

/-- If every reason an action can have in a state with `J` makes it satisfy `P`, the actions a
call queues satisfy `P`. -/
theorem Moves.actions_added {J : SwarmCore → Prop} {P : SwarmAction → Prop}
    (h : Moves s₀ call s₀ s) (hstart : J s₀)
    (hkeeps : ∀ t t', Move s₀ call t t' → J t → J t')
    (hjust : ∀ t a, J t → Justified s₀ call t a → P a) :
    ∃ added, s.actions = s₀.actions ++ added ∧ ∀ a ∈ added, P a := by
  refine Runs.appends_of_chain (J := J) h ?_ hstart
  intro t t' hmove hJ
  obtain ⟨added, heq, hreason⟩ := hmove.justified
  exact ⟨hkeeps t t' hmove hJ, added, heq, fun a ha => hjust t a hJ (hreason a ha)⟩

omit [Sha256] in
/-- A poll queues nothing. -/
theorem pollOutput_actions (P : SwarmAction → Prop) (s : SwarmCore) :
    Extends P s.actions s.pollOutput.1.actions := by
  have hnil : ∀ a ∈ ([] : List SwarmAction), P a := fun a ha => absurd ha List.not_mem_nil
  rcases pollOutput_cases s with ⟨a, actions, hs, h⟩ | ⟨e, events, -, -, h⟩ | ⟨-, -, h⟩
  · rw [h, hs]
    exact ⟨actions, [], by rw [List.append_nil], List.suffix_cons a actions, hnil⟩
  · rw [h]
    exact ⟨s.actions, [], by rw [List.append_nil], List.suffix_rfl, hnil⟩
  · rw [h]
    exact ⟨s.actions, [], by rw [List.append_nil], List.suffix_rfl, hnil⟩

/-- The tables a call without a connection does not touch. -/
structure SameOwners (s s' : SwarmCore) : Prop where
  connToPeer : s'.connToPeer = s.connToPeer
  peerToConn : s'.peerToConn = s.peerToConn
  streamOwner : s'.streamOwner = s.streamOwner

/-- A call that is about no connection moves none of them. -/
theorem Move.sameOwners (h : Move s₀ call s s') (happ : call.conn? = none)
    (hs : SameOwners s₀ s) : SameOwners s₀ s' := by
  have hkey : ∀ {k : StreamKey}, call.key? ≠ some k := by
    intro k hk
    rw [Call.conn?_of_key? hk] at happ
    cases happ
  have hevent : ∀ {c : ConnectionId}, call.eventConn? ≠ some c := by
    intro c hc
    rw [Call.conn?_of_eventConn? hc] at happ
    cases happ
  cases h with
  | placeholder c hneeds => exact absurd hneeds.eventConn hevent
  | register c p hcall => exact absurd hcall.eventConn hevent
  | rebind c p hcall => exact absurd hcall.eventConn hevent
  | close c hcall => exact absurd (Call.eventConn?_of_closes? hcall) hevent
  | openStream p c protocolId target hp =>
    simp only [queueOpenProtocolStream, requireConn, hp]
    exact ⟨hs.connToPeer, hs.peerToConn, hs.streamOwner⟩
  | own k owner hk => exact absurd hk hkey
  | disown k hk => exact absurd hk hkey
  | _ => exact ⟨hs.connToPeer, hs.peerToConn, hs.streamOwner⟩

end Moves

/-! ## Routing -/

/-- A stream action a call may queue: on the connection the call is about, or, if it is about
none, on a stream that is owned, of the only connection of its peer. -/
def Routed (s : SwarmCore) (call : Call) (k : StreamKey) : Prop :=
  (∀ c, call.conn? = some c → k.conn = c) ∧
    (call.conn? = none → k ∈ s.streamOwner ∧
      ∃ p, s.connToPeer[k.conn]? = some p ∧ s.peerToConn[p]? = some k.conn)

section Routing

variable {s₀ s : SwarmCore} {call : Call} {calls : List Call} {a : SwarmAction}

/-- What holds on the way of a call when the maps are mutually inverse. -/
structure Routable (calls : List Call) (s₀ : SwarmCore) (call : Call) (s : SwarmCore) : Prop where
  coherent : Coherent (calls ++ [call]) s
  unique : Unique s
  sameOwners : call.conn? = none → SameOwners s₀ s

/-- Where a stream action comes from: it is about the stream of the call, or about an owned stream
of the peer whose connection the call is about, if it is about one. -/
theorem Justified.origin (h : Justified s₀ call s a) (hunique : Unique s) {k : StreamKey}
    (hk : a.key? = some k) :
    (call.key? = some k ∧ (s₀.Files k ∨ call.announces? = some k)) ∨
      k ∈ s.streamOwner ∧ ∃ p, s.connToPeer[k.conn]? = some p ∧
        ∀ c, call.conn? = some c → s.connToPeer[c]? = some p := by
  cases h with
  | connection p ha hp =>
    rw [ha] at hk
    cases hk
  | negotiation k' ha hk' hknown =>
    obtain rfl : k' = k := Option.some.inj (ha.symm.trans hk)
    exact .inl ⟨hk', hknown⟩
  | ping k' p ha hown hp hcause =>
    obtain rfl : k' = k := Option.some.inj (ha.symm.trans hk)
    exact .inr ⟨hown, p, hp, hcause⟩
  | identify k' p ha hk' hknown hp hc =>
    -- identify answers through the peer, whose connection is the one of the call
    have hconn : a.conn = k'.conn := Option.some.inj (hc.symm.trans (hunique k'.conn p hp))
    obtain rfl : k' = k := by
      rw [ha, hconn] at hk
      exact Option.some.inj hk
    exact .inl ⟨hk', hknown⟩
  | user k' p ha hown hp happ =>
    obtain rfl : k' = k := Option.some.inj (ha.symm.trans hk)
    refine .inr ⟨hown, p, hp, ?_⟩
    intro c hc
    rw [happ] at hc
    cases hc

theorem Justified.routed (h : Justified s₀ call s a) (hs : Routable calls s₀ call s)
    {k : StreamKey} (hk : a.key? = some k) : Routed s₀ call k := by
  rcases h.origin hs.unique hk with ⟨hkey, -⟩ | ⟨hown, p, hp, hcause⟩
  · have hconn : call.conn? = some k.conn := Call.conn?_of_key? hkey
    refine ⟨?_, ?_⟩
    · intro c hc
      exact Option.some.inj (hconn.symm.trans hc)
    · intro hnone
      rw [hconn] at hnone
      cases hnone
  · have hprimary : s.peerToConn[p]? = some k.conn := hs.unique k.conn p hp
    refine ⟨?_, ?_⟩
    · -- the peer has one connection, so the call is about the one of the stream
      intro c hc
      have hc' : s.peerToConn[p]? = some c := hs.unique c p (hcause c hc)
      exact Option.some.inj (hprimary.symm.trans hc')
    · intro hnone
      obtain ⟨hconn, hpeer, howner⟩ := hs.sameOwners hnone
      rw [← hconn, ← hpeer, ← howner]
      exact ⟨hown, p, hp, hprimary⟩

theorem Justified.announced (h : Justified s₀ call s a) (hs₀ : Coherent calls s₀)
    (hs : Routable calls s₀ call s) {k : StreamKey} (hk : a.key? = some k) :
    Announced (calls ++ [call]) k := by
  rcases h.origin hs.unique hk with ⟨-, hfiles | hnew⟩ | ⟨hown, -⟩
  · exact (hs₀.announced k hfiles).concat
  · exact announced_of_announces hnew
  · exact hs.coherent.announced k (.inr (.inr hown))

variable [Sha256] [MultihashCodec]

/-- The stream actions a call queues are routed by it and name announced streams. -/
theorem step_actions (hs₀ : Coherent calls s₀) (hunique : Unique s₀)
    (hcontract : TransportContract calls call) (hclash : NoClash s₀ call) :
    Extends (fun a => ∀ k, a.key? = some k → Routed s₀ call k ∧ Announced (calls ++ [call]) k)
      s₀.actions (step s₀ call).actions := by
  by_cases hpoll : call = .pollOutput
  · rw [hpoll, step]
    exact pollOutput_actions _ s₀
  · have hkeeps : ∀ t t', Move s₀ call t t' → Routable calls s₀ call t →
        Routable calls s₀ call t' := by
      intro t t' hmove ht
      exact ⟨hmove.coherent hs₀ hcontract ht.coherent,
        hmove.unique hclash ht.coherent.primary ht.unique,
        fun happ => hmove.sameOwners happ (ht.sameOwners happ)⟩
    have hstart : Routable calls s₀ call s₀ :=
      ⟨hs₀.concat, hunique, fun _ => ⟨rfl, rfl, rfl⟩⟩
    obtain ⟨added, heq, hadded⟩ := (step_moves hs₀ hcontract hpoll).actions_added hstart hkeeps
      (P := fun a => ∀ k, a.key? = some k → Routed s₀ call k ∧ Announced (calls ++ [call]) k)
      (fun t a ht hjust k hk => ⟨hjust.routed ht hk, hjust.announced hs₀ ht hk⟩)
    exact ⟨s₀.actions, added, heq, List.suffix_rfl, hadded⟩

/-- In a run without a clash every queued stream action names a stream that was announced on its
own connection, and no call routes one to another connection. -/
theorem actions_announced_of_noClash (identifyConfig : Identify.IdentifyConfig)
    (pingConfig : Ping.PingConfig) (calls : List Call)
    (hrun : ClashFreeRun identifyConfig pingConfig calls) :
    (∀ a ∈ (run (SwarmCore.new identifyConfig pingConfig) calls).actions,
      ∀ k, a.key? = some k → Announced calls k) ∧
    ∀ before call after, calls = before ++ call :: after →
      Extends
        (fun a => ∀ k, a.key? = some k →
          Routed (run (SwarmCore.new identifyConfig pingConfig) before) call k)
        (run (SwarmCore.new identifyConfig pingConfig) before).actions
        (run (SwarmCore.new identifyConfig pingConfig) (before ++ [call])).actions := by
  constructor
  · have hinv : Unique (run (SwarmCore.new identifyConfig pingConfig) calls) ∧
        ∀ a ∈ (run (SwarmCore.new identifyConfig pingConfig) calls).actions,
          ∀ k, a.key? = some k → Announced calls k := by
      refine run_invariant identifyConfig pingConfig
        (I := fun calls s => Unique s ∧ ∀ a ∈ s.actions, ∀ k, a.key? = some k → Announced calls k)
        hrun ⟨?_, ?_⟩ ?_
      · intro c p h
        simp [SwarmCore.new] at h
      · intro a ha
        simp [SwarmCore.new] at ha
      · rintro before call s rfl hcoherent hcontract hclash ⟨hunique, hactions⟩
        refine ⟨step_unique hcoherent hcontract hclash hunique, ?_⟩
        obtain ⟨kept, added, heq, hkept, hadded⟩ :=
          step_actions hcoherent hunique hcontract hclash
        intro a ha k hk
        rw [heq] at ha
        rcases List.mem_append.mp ha with ha | ha
        · exact (hactions a (hkept.subset ha) k hk).concat
        · exact (hadded a ha k hk).2
    exact hinv.2
  · intro before call after hcalls
    obtain ⟨hbefore, hcontract, hclash⟩ := Runs.EachStep.split hrun hcalls
    have hcoherent := coherent_run identifyConfig pingConfig (ClashFreeRun.contract hbefore)
    obtain ⟨kept, added, heq, hkept, hadded⟩ :=
      step_actions hcoherent (ClashFreeRun.unique hbefore) hcontract hclash
    rw [run_concat]
    exact ⟨kept, added, heq, hkept, fun a ha k hk => (hadded a ha k hk).1⟩

end Routing

/-! ## Concrete runs -/

/-- Alice's connection negotiates identify on stream 4 and gets a whole message. -/
def identifyRun : List Call :=
  [.event (.connected ⟨1⟩ (Sample.endpoint (some Sample.alice))),
    .input (.streamOpened ⟨1⟩ ⟨4⟩ ⟨1⟩ 0),
    .event (.streamData ⟨1⟩ ⟨4⟩ (Multistream.encodeMessage Multistream.multistreamProtocolId ++
      Multistream.encodeMessage Identify.identifyProtocolId)),
    .event (.streamRemoteWriteClosed ⟨1⟩ ⟨4⟩)]

theorem actions_announced_of_identifyRun :
    SwarmAction.closeStreamWrite ⟨1⟩ ⟨4⟩ ∈ (Sample.run identifyRun).actions ∧
      ∀ a ∈ (Sample.run identifyRun).actions, ∀ k, a.key? = some k → Announced identifyRun k := by
  refine ⟨by decide +kernel,
    (@actions_announced_of_noClash Sample.sha256 multihashCodec _ _ identifyRun ?_).1⟩
  refine ⟨⟨by decide, by rintro ⟨⟩⟩, ⟨by decide, trivial⟩, ⟨by decide, ?_⟩,
    ⟨by decide, trivial⟩, trivial⟩
  intro _ hnone
  exact absurd hnone (by decide)

/-- The same, while a second connection turns out to be Alice's. -/
def misroutedRun : List Call :=
  [.event (.connected ⟨1⟩ (Sample.endpoint (some Sample.alice))),
    .input (.streamOpened ⟨1⟩ ⟨4⟩ ⟨1⟩ 0),
    .event (.streamData ⟨1⟩ ⟨4⟩ (Multistream.encodeMessage Multistream.multistreamProtocolId ++
      Multistream.encodeMessage Identify.identifyProtocolId)),
    .event (.connected ⟨2⟩ (Sample.endpoint none)),
    .event (.peerIdentityVerified ⟨2⟩ (Sample.endpoint (some Sample.alice)) none),
    .event (.streamRemoteWriteClosed ⟨1⟩ ⟨4⟩)]

/-- Identify answers on the second connection, where the stream was never announced. -/
theorem misroutedRun_names_unannounced_stream :
    ContractRun misroutedRun ∧
      SwarmAction.closeStreamWrite ⟨2⟩ ⟨4⟩ ∈ (Sample.run misroutedRun).actions ∧
      ¬ Announced misroutedRun ⟨⟨2⟩, ⟨4⟩⟩ :=
  ⟨by decide, by decide +kernel, by decide⟩

end Minip2p.Swarm
