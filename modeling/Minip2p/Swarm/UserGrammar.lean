import Minip2p.Swarm.HandshakeTurns

/-!
# The grammar of user streams

The application knows a stream by its peer and its id, and ids repeat from one connection of a peer
to the next. In a run of a transport that identifies its peers in the handshake, data and ends are
still reported only for a stream that was reported as ready and not as closed since: a stream that
the application owns is live, and no two streams of one peer have the same id.
-/

namespace Minip2p.Swarm

open Logs (Since)
open SwarmCore

/-- The stream an event reports as ready. -/
def SwarmEvent.ready? : SwarmEvent → Option (PeerId × StreamId)
  | userStreamReady peerId streamId _ _ => some (peerId, streamId)
  | _ => none

/-- The stream whose data or end an event reports. -/
def SwarmEvent.follows? : SwarmEvent → Option (PeerId × StreamId)
  | userStreamData peerId streamId _ => some (peerId, streamId)
  | userStreamRemoteWriteClosed peerId streamId => some (peerId, streamId)
  | userStreamClosed peerId streamId => some (peerId, streamId)
  | _ => none

/-- The stream was reported as ready, and not as closed since. -/
def Live (p : PeerId) (t : StreamId) (log : List SwarmEvent) : Prop :=
  Since (fun e => e.ready? = some (p, t)) (· = .userStreamClosed p t) log

/-- Data and ends are reported for live streams. -/
def FollowsReady (before : List SwarmEvent) (e : SwarmEvent) : Prop :=
  ∀ p t, e.follows? = some (p, t) → Live p t before

section Log

variable {log : List SwarmEvent} {p : PeerId} {t : StreamId} {e : SwarmEvent}

/-- Only its close ends a stream. -/
theorem Live.concat (h : Live p t log) (he : e ≠ .userStreamClosed p t) : Live p t (log ++ [e]) :=
  Logs.since_concat.mpr (.inr ⟨he, h⟩)

theorem live_ready (protocolId : String) (initiatedLocally : Bool) :
    Live p t (log ++ [.userStreamReady p t protocolId initiatedLocally]) :=
  Logs.since_concat.mpr (.inl rfl)

theorem follows?_of_userStream? (h : e.userStream? = none) : e.follows? = none := by
  cases e <;> first | rfl | cases h

end Log

/-- The events of the log are in order, and the streams the application owns are live under the
peers of their connections. -/
structure LiveOwners (log : List SwarmEvent) (s : SwarmCore) : Prop where
  grammar : Runs.EachStep FollowsReady [] log
  live : ∀ (k : StreamKey) (protocolId : String), s.streamOwner[k]? = some (.user protocolId) →
    ∃ p, s.connToPeer[k.conn]? = some p ∧ Live p k.stream log

namespace LiveOwners

variable {log : List SwarmEvent} {s s' : SwarmCore} {k : StreamKey} {p : PeerId}
  {protocolId : String}

/-- The streams the application owns were its own before, on the connections they are on. -/
theorem shrink (hs : LiveOwners log s)
    (howners : ∀ (k : StreamKey) (protocolId : String),
      s'.streamOwner[k]? = some (.user protocolId) →
        s.streamOwner[k]? = some (.user protocolId) ∧
          ∀ p, s.connToPeer[k.conn]? = some p → s'.connToPeer[k.conn]? = some p) :
    LiveOwners log s' := by
  refine ⟨hs.grammar, ?_⟩
  intro k protocolId hk
  obtain ⟨hown, hconn⟩ := howners k protocolId hk
  obtain ⟨p, hp, hlive⟩ := hs.live k protocolId hown
  exact ⟨p, hconn p hp, hlive⟩

theorem same (hs : LiveOwners log s) (howner : s'.streamOwner = s.streamOwner)
    (hconn : s'.connToPeer = s.connToPeer) : LiveOwners log s' := by
  refine hs.shrink ?_
  rw [howner, hconn]
  exact fun _ _ hk => ⟨hk, fun _ hp => hp⟩

/-- The peer of a stream the application owns reads what belongs to it. -/
theorem live_of_owner (hs : LiveOwners log s) (hown : s.streamOwner[k]? = some (.user protocolId))
    (hp : s.connToPeer[k.conn]? = some p) : Live p k.stream log := by
  obtain ⟨q, hq, hlive⟩ := hs.live k protocolId hown
  rw [hp] at hq
  rw [Option.some.inj hq]
  exact hlive

/-! ## Events -/

/-- An event about no stream of the application. -/
theorem concat (hs : LiveOwners log s) {e : SwarmEvent} (he : e.userStream? = none) :
    LiveOwners (log ++ [e]) s := by
  constructor
  · refine Logs.eachStep_concat.mpr ⟨hs.grammar, ?_⟩
    intro p t h
    rw [follows?_of_userStream? he] at h
    cases h
  · intro k protocolId hk
    obtain ⟨p, hp, hlive⟩ := hs.live k protocolId hk
    refine ⟨p, hp, hlive.concat ?_⟩
    rintro rfl
    cases he

/-- Data or the end of what the peer sends, for a stream the application owns. -/
theorem deliver (hs : LiveOwners log s) {e : SwarmEvent}
    (hown : s.streamOwner[k]? = some (.user protocolId)) (hp : s.connToPeer[k.conn]? = some p)
    (he : (∃ data, e = .userStreamData p k.stream data) ∨
      e = .userStreamRemoteWriteClosed p k.stream) : LiveOwners (log ++ [e]) s := by
  have hfollows : e.follows? = some (p, k.stream) := by
    rcases he with ⟨data, rfl⟩ | rfl
    · rfl
    · rfl
  constructor
  · refine Logs.eachStep_concat.mpr ⟨hs.grammar, ?_⟩
    intro q t h
    rw [hfollows] at h
    cases h
    exact hs.live_of_owner hown hp
  · intro k' protocolId' hk'
    obtain ⟨q, hq, hlive⟩ := hs.live k' protocolId' hk'
    refine ⟨q, hq, hlive.concat ?_⟩
    rintro rfl
    rcases he with ⟨data, he⟩ | he
    · cases he
    · cases he

/-- A stream becomes one of the application, and is reported. -/
theorem ready (hs : LiveOwners log s) (initiatedLocally : Bool)
    (hp : s.connToPeer[k.conn]? = some p) (hconn : s'.connToPeer = s.connToPeer)
    (howner : s'.streamOwner = s.streamOwner.insert k (.user protocolId)) :
    LiveOwners (log ++ [.userStreamReady p k.stream protocolId initiatedLocally]) s' := by
  constructor
  · refine Logs.eachStep_concat.mpr ⟨hs.grammar, ?_⟩
    intro q t h
    cases h
  · intro k' protocolId' hk'
    rw [howner] at hk'
    rw [hconn]
    rcases BTreeMap.getElem?_insert_eq_some_iff.mp hk' with ⟨rfl, -⟩ | ⟨-, hk'⟩
    · exact ⟨p, hp, live_ready protocolId initiatedLocally⟩
    · obtain ⟨q, hq, hlive⟩ := hs.live k' protocolId' hk'
      exact ⟨q, hq, hlive.concat (by rintro ⟨⟩)⟩

/-- A stream of the application is closed. No other one has its peer and its id. -/
theorem close (hs : LiveOwners log s) (hinverse : Inverse s)
    (hown : s.streamOwner[k]? = some (.user protocolId)) (hp : s.connToPeer[k.conn]? = some p)
    (hconn : s'.connToPeer = s.connToPeer) (howner : s'.streamOwner = s.streamOwner.erase k) :
    LiveOwners (log ++ [.userStreamClosed p k.stream]) s' := by
  constructor
  · refine Logs.eachStep_concat.mpr ⟨hs.grammar, ?_⟩
    intro q t h
    cases h
    exact hs.live_of_owner hown hp
  · intro k' protocolId' hk'
    rw [howner] at hk'
    rw [hconn]
    obtain ⟨hne, hk'⟩ := BTreeMap.getElem?_erase_eq_some_iff.mp hk'
    obtain ⟨q, hq, hlive⟩ := hs.live k' protocolId' hk'
    refine ⟨q, hq, hlive.concat ?_⟩
    intro heq
    obtain ⟨hpeer, hstream⟩ := SwarmEvent.userStreamClosed.inj heq
    -- a peer has one connection
    have hsame : s.peerToConn[p]? = some k.conn := (hinverse p k.conn).mpr hp
    rw [hpeer, (hinverse q k'.conn).mpr hq] at hsame
    apply hne
    rw [StreamKey.mk.injEq]
    exact ⟨Option.some.inj hsame, hstream.symm⟩

/-! ## Connections -/

theorem track (hs : LiveOwners log s) {c : ConnectionId} (hnew : s.connToPeer[c]? = none)
    (hconn : s'.connToPeer = s.connToPeer.insert c p) (howner : s'.streamOwner = s.streamOwner) :
    LiveOwners log s' := by
  refine hs.shrink ?_
  intro k protocolId hk
  rw [howner] at hk
  refine ⟨hk, ?_⟩
  intro q hq
  rw [hconn]
  refine BTreeMap.getElem?_insert_eq_some_iff.mpr (.inr ⟨?_, hq⟩)
  intro h
  rw [h, hnew] at hq
  cases hq

/-- The streams of a connection go with it. -/
theorem withoutConn (hs : LiveOwners log s) (c : ConnectionId) :
    LiveOwners log (s.withoutConn c) := by
  refine hs.shrink ?_
  intro k protocolId hk
  obtain ⟨hown, hkept⟩ := BTreeMap.getElem?_filter_eq_some_iff.mp hk
  have hne : k.conn ≠ c := of_decide_eq_true hkept
  exact ⟨hown, fun q hq => BTreeMap.getElem?_erase_eq_some_iff.mpr ⟨hne, hq⟩⟩

theorem register (hs : LiveOwners log s) {c : ConnectionId} (hnew : s.connToPeer[c]? = none)
    (p : PeerId) :
    LiveOwners (log ++ [.connectionEstablished p]) ((s.yieldTo c p).attach c p) := by
  refine concat ?_ rfl
  rcases yieldTo_cases s c p with ⟨heq, -⟩ | ⟨old, -, -, heq⟩
  · rw [heq]
    exact hs.track hnew rfl rfl
  · rw [heq]
    have hpeer : LiveOwners log (s.withoutPeer p) := hs.same rfl rfl
    refine (hpeer.withoutConn old).track ?_ rfl rfl
    exact BTreeMap.getElem?_erase_eq_none_iff.mpr (.inr hnew)

theorem detach {polled : List SwarmEvent} (hs : LiveOwners (polled ++ s.events) s)
    (c : ConnectionId) : LiveOwners (polled ++ (s.detach c).events) (s.detach c) := by
  have hleft : LiveOwners (polled ++ s.events) (s.withoutConn c) := hs.withoutConn c
  rcases detach_cases s c with ⟨q, -, -, heq⟩ | ⟨-, heq⟩
  · rw [heq]
    show LiveOwners (polled ++ (s.events ++ [.connectionClosed q])) _
    rw [← List.append_assoc]
    exact (hleft.concat rfl).same rfl rfl
  · rw [heq]
    exact hleft

end LiveOwners

/-! ## Turns and runs -/

theorem Turn.liveOwners [Sha256] {s₀ s s' : SwarmCore} {call : Call} {polled : List SwarmEvent}
    (h : Turn s₀ call s s') (hcall : Identifies s₀ call) (hinverse : Inverse s)
    (hs : LiveOwners (polled ++ s.events) s) : LiveOwners (polled ++ s'.events) s' := by
  cases h with
  | report e he =>
    have hplain : e.userStream? = none := by
      cases e <;> first | rfl | cases he
    show LiveOwners (polled ++ (s.events ++ [e])) _
    rw [← List.append_assoc]
    exact (hs.concat hplain).same rfl rfl
  | refuse token e he =>
    have hplain : e.userStream? = none := by
      cases e <;> first | rfl | cases he
    show LiveOwners (polled ++ (s.events ++ [e])) _
    rw [← List.append_assoc]
    exact (hs.concat hplain).same rfl rfl
  | placeholder c hneeds hnew => exact hs.track hnew rfl rfl
  | register c p hconnects hnew =>
    have hlog := hs.register hnew p
    rw [List.append_assoc, ← yieldTo_events s c p] at hlog
    exact hlog
  | rebind c p hverifies hne hagrees =>
    exact absurd (hcall.bound hverifies hagrees) hne
  | close c => exact hs.detach c
  | ask p c protocolId target htoken hp =>
    simp only [queueOpenProtocolStream, requireConn, hp]
    exact hs.same rfl rfl
  | own k owner howner =>
    refine hs.shrink ?_
    intro k' protocolId hk'
    refine ⟨?_, fun _ hp => hp⟩
    rcases howner with rfl | rfl
    · exact BTreeMap.getElem?_of_insert hk' (by rintro ⟨⟩)
    · exact BTreeMap.getElem?_of_insert hk' (by rintro ⟨⟩)
  | disown k =>
    refine hs.shrink ?_
    intro k' protocolId hk'
    exact ⟨(BTreeMap.getElem?_erase_eq_some_iff.mp hk').2, fun _ hp => hp⟩
  | promote k pending hpending htarget =>
    refine hs.shrink ?_
    intro k' protocolId hk'
    refine ⟨BTreeMap.getElem?_of_insert hk' ?_, fun _ hp => hp⟩
    rcases htarget with htarget | htarget
    · rw [htarget]
      rintro ⟨⟩
    · rw [htarget]
      rintro ⟨⟩
  | promotePing k pending p hpending htarget hp =>
    refine hs.shrink ?_
    intro k' protocolId hk'
    exact ⟨BTreeMap.getElem?_of_insert hk' (by rintro ⟨⟩), fun _ hp => hp⟩
  | promoteUser k pending protocolId p hpending htarget hp =>
    show LiveOwners (polled ++ (s.events ++ [.userStreamReady p k.stream protocolId true])) _
    rw [← List.append_assoc]
    exact hs.ready true hp rfl rfl
  | acceptUser k protocolId p hp =>
    show LiveOwners (polled ++ (s.events ++ [.userStreamReady p k.stream protocolId false])) _
    rw [← List.append_assoc]
    exact hs.ready false hp rfl rfl
  | deliver k protocolId p e hown hp he =>
    show LiveOwners (polled ++ (s.events ++ [e])) _
    rw [← List.append_assoc]
    exact (hs.deliver hown hp he).same rfl rfl
  | closeUser k protocolId p hown hp =>
    show LiveOwners (polled ++ (s.events ++ [.userStreamClosed p k.stream])) _
    rw [← List.append_assoc]
    exact hs.close hinverse hown hp rfl rfl
  | received k p info hown hp =>
    have hanswered : LiveOwners (polled ++ s.events ++ [.identifyReceived p info]) s :=
      hs.concat rfl
    rcases received_cases s p info with ⟨heq, -⟩ | ⟨heq, -⟩
    · rw [heq]
      simp only [pushEvent]
      rw [← List.append_assoc]
      exact hanswered.same rfl rfl
    · rw [heq]
      simp only [pushEvent]
      rw [← List.append_assoc, ← List.append_assoc]
      exact (hanswered.concat rfl).same rfl rfl
  | _ => exact hs.same rfl rfl

/-- In a run of a transport that identifies its peers in the handshake, whatever is reported for a
stream, data, the end of what the peer sends or its close, is reported after the stream was
reported as ready, and its close is the last report until it is ready again. -/
theorem userStream_grammar [Sha256] [MultihashCodec] (hsha : NoCollision)
    (identifyConfig : Identify.IdentifyConfig) (pingConfig : Ping.PingConfig) (calls : List Call)
    (hrun : HandshakeRun calls) (before after : List SwarmEvent) (e : SwarmEvent) (p : PeerId)
    (t : StreamId)
    (hlog : emittedEvents (SwarmCore.new identifyConfig pingConfig) calls = before ++ e :: after)
    (he : e.follows? = some (p, t)) : Live p t before := by
  have howners : LiveOwners (emittedEvents (SwarmCore.new identifyConfig pingConfig) calls)
      (run (SwarmCore.new identifyConfig pingConfig) calls) := by
    refine handshake_turns hsha identifyConfig pingConfig hrun ⟨trivial, ?_⟩ ?_ ?_
    · intro k protocolId hk
      simp [SwarmCore.new] at hk
    · exact fun _ s events actions hs => hs.same rfl rfl
    · exact fun h hidentifies hinverse _ hs => h.liveOwners hidentifies hinverse hs
  exact (howners.grammar.split hlog).2 p t he

/-- Alice opens a stream on each of two connections; both have the same id, and the first one is
closed late. -/
def repeatedStreamRun : List Call :=
  [.addUserProtocol "/u", .event (.connected ⟨1⟩ (Sample.endpoint (some Sample.alice))),
    .event (.incomingStream ⟨1⟩ ⟨0⟩),
    .event (.streamData ⟨1⟩ ⟨0⟩ (Multistream.encodeMessage Multistream.multistreamProtocolId ++
      Multistream.encodeMessage "/u" ++ [0x41])),
    .event (.connected ⟨2⟩ (Sample.endpoint (some Sample.alice))),
    .event (.incomingStream ⟨2⟩ ⟨0⟩),
    .event (.streamData ⟨2⟩ ⟨0⟩ (Multistream.encodeMessage Multistream.multistreamProtocolId ++
      Multistream.encodeMessage "/u" ++ [0x42])),
    .event (.streamClosed ⟨1⟩ ⟨0⟩), .event (.streamClosed ⟨2⟩ ⟨0⟩)]

theorem repeatedStreamRun_live :
    ∃ before, @emittedEvents Sample.sha256 multihashCodec Sample.core repeatedStreamRun =
        before ++ [.userStreamClosed Sample.alice ⟨0⟩] ∧ Live Sample.alice ⟨0⟩ before := by
  have hconnected := fun c => Sample.alice_ne_syntheticPeerId c
  have hrun : @HandshakeRun Sample.sha256 repeatedStreamRun :=
    ⟨⟨by decide, trivial⟩, ⟨by decide, Sample.alice, rfl, hconnected⟩, ⟨by decide, trivial⟩,
      ⟨by decide, trivial⟩, ⟨by decide, Sample.alice, rfl, hconnected⟩, ⟨by decide, trivial⟩,
      ⟨by decide, trivial⟩, ⟨by decide, trivial⟩, ⟨by decide, trivial⟩, trivial⟩
  have hlog : @emittedEvents Sample.sha256 multihashCodec Sample.core repeatedStreamRun =
      [.connectionEstablished Sample.alice, .userStreamReady Sample.alice ⟨0⟩ "/u" false,
        .userStreamData Sample.alice ⟨0⟩ [0x41], .connectionEstablished Sample.alice,
        .userStreamReady Sample.alice ⟨0⟩ "/u" false,
        .userStreamData Sample.alice ⟨0⟩ [0x42]] ++ [.userStreamClosed Sample.alice ⟨0⟩] := by
    decide +kernel
  exact ⟨_, hlog, @userStream_grammar Sample.sha256 multihashCodec Sample.noCollision _ _
    repeatedStreamRun hrun _ [] _ Sample.alice ⟨0⟩ hlog rfl⟩

end Minip2p.Swarm
