import Minip2p.Peer.Listener

/-!
# Two scripts and a relay

A dialer and a listener on either side of a relay that passes on what they send behind its own
messages. What has come to a party is given as its arrivals, in any pieces and with any waits
between them; a step makes the next bytes come to one of them. What a party has done by then is
its script run on what has come.
-/

namespace Minip2p.Peer

open Prog
open Dcutr (syncFrame)

/-- What has come to either side. -/
structure Delivered where
  toDialer : List Arrival
  toListener : List Arrival

/-- What happens next: some bytes come to a party, or one of its polls fails. -/
inductive RelayAction
  | toDialer (n atMs : ℕ)
  | toListener (n atMs : ℕ)
  | dialerFails (error : String)
  | listenerFails (error : String)

/-- The bytes a party has sent. -/
def sentIn {α : Type} : Option (Except String α × Circuit) → Bytes
  | some (_, circuit) => circuit.outgoing.sent
  | none => []

namespace Setup

variable [MultihashCodec] (setup : Setup)

/-- The dialer's script on what has come to it. -/
def dial (arrivals : List Arrival) : Option (Except String (List Multiaddr × UInt64) × Circuit) :=
  exec (runDial setup.target setup.dialerAddrs setup.dialerStream)
    ⟨arrivals, 0, ⟨setup.dialerRefusal, 0, []⟩⟩

/-- The listener's script on what has come to it. -/
def listen (arrivals : List Arrival) : Option (Except String (PeerId × List Multiaddr) × Circuit) :=
  exec (runListen setup.listenerAddrs setup.listenerStream)
    ⟨arrivals, 0, ⟨setup.listenerRefusal, 0, []⟩⟩

/-- The relay opens a stream to the listener when it is asked for a circuit, and passes on what
comes behind the request. -/
def towardsListener (sent : Bytes) : Bytes :=
  if setup.hopRequest <+: sent then setup.stopRequest ++ sent.drop setup.hopRequest.length else []

/-- The relay answers the dialer when the listener has accepted, and passes on what comes behind
that. -/
def towardsDialer (sent : Bytes) : Bytes :=
  if stopAnswer <+: sent then setup.hopAnswer ++ sent.drop stopAnswer.length else []

/-- The next `n` bytes of what the relay has for a party, of which it has got some. -/
def nextBytes (stream : Bytes) (arrivals : List Arrival) (n : ℕ) : Bytes :=
  (stream.drop (received arrivals).length).take n

/-- What has come to the parties after one more action. -/
def step (delivered : Delivered) : RelayAction → Delivered
  | .toDialer n atMs =>
    let stream := setup.towardsDialer (sentIn (setup.listen delivered.toListener))
    { delivered with toDialer :=
        delivered.toDialer ++ [.data (nextBytes stream delivered.toDialer n) atMs] }
  | .toListener n atMs =>
    let stream := setup.towardsListener (sentIn (setup.dial delivered.toDialer))
    { delivered with toListener :=
        delivered.toListener ++ [.data (nextBytes stream delivered.toListener n) atMs] }
  | .dialerFails error =>
    { delivered with toDialer := delivered.toDialer ++ [.failed error] }
  | .listenerFails error =>
    { delivered with toListener := delivered.toListener ++ [.failed error] }

/-- Some actions, the first one first. -/
def run (actions : List RelayAction) : Delivered := actions.foldl setup.step ⟨[], []⟩

end Setup

/-! ## Arrivals -/

/-- Bytes that arrive later are received later, unless a poll has failed. -/
theorem received_append_data (arrivals : List Arrival) (bytes : Bytes) (atMs : ℕ) :
    received (arrivals ++ [.data bytes atMs]) = received arrivals ∨
      received (arrivals ++ [.data bytes atMs]) = received arrivals ++ bytes := by
  induction arrivals with
  | nil => exact .inr (List.append_nil bytes)
  | cons arrival arrivals ih =>
    cases arrival with
    | failed error => exact .inl rfl
    | data first atMs =>
      rw [List.cons_append, received, received]
      rcases ih with ih | ih
      · exact .inl (by rw [ih])
      · exact .inr (by rw [ih, List.append_assoc])

/-- A poll that fails brings nothing. -/
theorem received_append_failed (arrivals : List Arrival) (error : String) :
    received (arrivals ++ [.failed error]) = received arrivals := by
  induction arrivals with
  | nil => rfl
  | cons arrival arrivals ih =>
    cases arrival with
    | failed error => rfl
    | data first atMs => rw [List.cons_append, received, received, ih]

/-- What has come stays, and what comes next belongs to the stream it is taken from. -/
theorem received_next {whole stream : Bytes} {arrivals : List Arrival}
    (hgot : received arrivals <+: whole) (hstream : stream <+: whole) (n atMs : ℕ) :
    received arrivals <+:
        received (arrivals ++ [.data (Setup.nextBytes stream arrivals n) atMs]) ∧
      (received (arrivals ++ [.data (Setup.nextBytes stream arrivals n) atMs]) =
          received arrivals ∨
        received (arrivals ++ [.data (Setup.nextBytes stream arrivals n) atMs]) <+: stream) := by
  rcases received_append_data arrivals (Setup.nextBytes stream arrivals n) atMs with h | h
  · rw [h]
    exact ⟨List.prefix_rfl, .inl rfl⟩
  · rw [h]
    refine ⟨List.prefix_append _ _, ?_⟩
    unfold Setup.nextBytes
    by_cases hlen : stream.length ≤ (received arrivals).length
    · rw [List.drop_eq_nil_of_le hlen, List.take_nil, List.append_nil]
      exact .inl rfl
    · obtain ⟨rest, hrest⟩ := List.prefix_of_prefix_length_le hgot hstream (by omega)
      refine .inr ?_
      rw [← hrest, List.drop_left]
      exact (List.prefix_append_right_inj _).mpr (List.take_prefix n rest)

/-- An arrival that does not cross the cut keeps it. -/
theorem whole_append_data {bytes : Bytes} {atMs : ℕ} (n : ℕ) (arrivals : List Arrival)
    (h : Whole n arrivals)
    (hbytes : n ≤ (received arrivals).length ∨ (received arrivals).length + bytes.length ≤ n) :
    Whole n (arrivals ++ [.data bytes atMs]) := by
  induction arrivals generalizing n with
  | nil =>
    refine ⟨?_, trivial⟩
    simp only [received, List.length_nil] at hbytes
    omega
  | cons arrival arrivals ih =>
    cases arrival with
    | failed error => exact trivial
    | data first firstMs =>
      obtain ⟨hfirst, hrest⟩ := h
      refine ⟨hfirst, ih _ hrest ?_⟩
      rw [received, List.length_append] at hbytes
      omega

theorem whole_append_failed {error : String} (n : ℕ) (arrivals : List Arrival)
    (h : Whole n arrivals) : Whole n (arrivals ++ [.failed error]) := by
  induction arrivals generalizing n with
  | nil => exact trivial
  | cons arrival arrivals ih =>
    cases arrival with
    | failed error => exact trivial
    | data first firstMs => exact ⟨h.1, ih _ h.2⟩

/-! ## What the relay passes on -/

variable [MultihashCodec] {setup : Setup} {sent : Bytes}

theorem towardsListener_nil (setup : Setup) : setup.towardsListener [] = [] := by
  unfold Setup.towardsListener
  rw [if_neg]
  rw [List.prefix_nil]
  exact hopRequest_ne_nil setup

/-- What the dialer sends behind its request goes to the listener. -/
theorem towardsListener_append (setup : Setup) (behind : Bytes) :
    setup.towardsListener (setup.hopRequest ++ behind) = setup.stopRequest ++ behind := by
  unfold Setup.towardsListener
  rw [if_pos (List.prefix_append _ _), List.drop_left]

theorem towardsListener_request (setup : Setup) :
    setup.towardsListener setup.hopRequest = setup.stopRequest := by
  have h := towardsListener_append setup []
  rwa [List.append_nil, List.append_nil] at h

omit [MultihashCodec] in
theorem towardsDialer_nil (setup : Setup) : setup.towardsDialer [] = [] := by
  unfold Setup.towardsDialer
  rw [if_neg]
  rw [List.prefix_nil]
  exact Wire.encodeFrame_ne_nil _

omit [MultihashCodec] in
/-- What the listener sends behind its answer goes to the dialer. -/
theorem towardsDialer_append (setup : Setup) (behind : Bytes) :
    setup.towardsDialer (Setup.stopAnswer ++ behind) = setup.hopAnswer ++ behind := by
  unfold Setup.towardsDialer
  rw [if_pos (List.prefix_append _ _), List.drop_left]

omit [MultihashCodec] in
theorem towardsDialer_answer (setup : Setup) :
    setup.towardsDialer Setup.stopAnswer = setup.hopAnswer := by
  have h := towardsDialer_append setup []
  rwa [List.append_nil, List.append_nil] at h

/-- The relay has SYNC for the listener only if the whole reply has come to the dialer. -/
theorem Dialed.towardsListener {stream : Bytes} {result : Except String (List Multiaddr × UInt64)}
    (h : Dialed setup stream result sent) :
    setup.towardsListener sent <+: setup.stopRequest ++ setup.offer ∨
      setup.towardsListener sent = setup.stopRequest ++ setup.offer ++ syncFrame ∧
        stream = setup.hopAnswer ++ setup.reply ∧ setup.dialerRefusal 0 = none ∧
        setup.dialerRefusal 1 = none ∧ setup.dialerRefusal 2 = none := by
  cases h with
  | unasked =>
    rw [towardsListener_nil]
    exact .inl List.nil_prefix
  | asked | unoffered =>
    rw [towardsListener_request]
    exact .inl (List.prefix_append _ _)
  | offered =>
    rw [towardsListener_append]
    exact .inl List.prefix_rfl
  | done rttMs h₀ h₁ h₂ hreply =>
    rw [List.append_assoc, towardsListener_append, ← List.append_assoc]
    exact .inr ⟨rfl, hreply, h₀, h₁, h₂⟩

/-- The relay has bytes of the reply for the dialer only if the whole offer has come to the
listener. -/
theorem Listened.towardsDialer {stream : Bytes} {result : Except String (PeerId × List Multiaddr)}
    (h : Listened setup stream result sent) :
    setup.towardsDialer sent <+: setup.hopAnswer ∨
      setup.towardsDialer sent = setup.hopAnswer ++ setup.reply ∧
        setup.stopRequest ++ setup.offer <+: stream := by
  cases h with
  | waiting =>
    rw [towardsDialer_nil]
    exact .inl List.nil_prefix
  | accepted =>
    rw [towardsDialer_answer]
    exact .inl List.prefix_rfl
  | replied h₀ h₁ hoffer =>
    rw [towardsDialer_append]
    exact .inr ⟨rfl, hoffer⟩
  | done h₀ h₁ hsync =>
    rw [towardsDialer_append, hsync]
    exact .inr ⟨rfl, List.prefix_append _ _⟩

/-! ## Runs -/

/-- What has come is what an honest other side may have sent by now, and no piece that came to the
listener holds bytes of both the offer and SYNC. -/
structure Consistent (setup : Setup) (delivered : Delivered) : Prop where
  dialer : received delivered.toDialer <+: setup.hopAnswer ++ setup.reply
  listener : received delivered.toListener <+: setup.stopRequest ++ setup.offer ++ syncFrame
  replied : setup.hopAnswer.length < (received delivered.toDialer).length →
    setup.stopRequest ++ setup.offer <+: received delivered.toListener
  synced : (setup.stopRequest ++ setup.offer).length < (received delivered.toListener).length →
    received delivered.toDialer = setup.hopAnswer ++ setup.reply ∧
      setup.dialerRefusal 0 = none ∧ setup.dialerRefusal 1 = none ∧ setup.dialerRefusal 2 = none
  whole : Whole (setup.stopRequest ++ setup.offer).length delivered.toListener

/-- Nothing has happened yet. -/
theorem consistent_start (setup : Setup) : Consistent setup ⟨[], []⟩ where
  dialer := List.nil_prefix
  listener := List.nil_prefix
  replied h := absurd h (Nat.not_lt_zero _)
  synced h := absurd h (Nat.not_lt_zero _)
  whole := trivial

namespace Consistent

variable {delivered : Delivered}

/-- The dialer's script ends, with what `Dialed` says of it. -/
theorem dialed (hd : Consistent setup delivered) (h : setup.Sound) (hcodec : MultihashCodec.Exact) :
    ∃ result circuit, setup.dial delivered.toDialer = some (result, circuit) ∧
      Dialed setup (received delivered.toDialer) result circuit.outgoing.sent := by
  obtain ⟨result, circuit, hrun, hok, herror⟩ :=
    (h.ends_runDial hcodec hd.dialer).exists_exec
      (s := ⟨delivered.toDialer, 0, ⟨setup.dialerRefusal, 0, []⟩⟩) ⟨rfl, rfl⟩
  refine ⟨result, circuit, hrun, ?_⟩
  cases result with
  | ok p => exact hok p rfl
  | error e => exact herror e rfl

/-- The listener's script ends, with what `Listened` says of it. -/
theorem listened (hd : Consistent setup delivered) (h : setup.Sound)
    (hcodec : MultihashCodec.Exact) :
    ∃ result circuit, setup.listen delivered.toListener = some (result, circuit) ∧
      Listened setup (received delivered.toListener) result circuit.outgoing.sent := by
  obtain ⟨result, circuit, hrun, hok, herror⟩ :=
    (h.ends_runListen hcodec hd.listener).exists_exec
      (s := ⟨delivered.toListener, 0, ⟨setup.listenerRefusal, 0, []⟩⟩) ⟨⟨rfl, hd.whole⟩, rfl⟩
  refine ⟨result, circuit, hrun, ?_⟩
  cases result with
  | ok p => exact hok p rfl
  | error e => exact herror e rfl

/-- More of what the relay has for the dialer comes to it. -/
theorem toDialer (hd : Consistent setup delivered) (h : setup.Sound)
    (hcodec : MultihashCodec.Exact) (n atMs : ℕ) :
    Consistent setup (setup.step delivered (.toDialer n atMs)) := by
  obtain ⟨result, circuit, hrun, hlistened⟩ := hd.listened h hcodec
  have hstep : setup.step delivered (.toDialer n atMs) =
      { delivered with toDialer := delivered.toDialer ++ [.data (Setup.nextBytes
        (setup.towardsDialer circuit.outgoing.sent) delivered.toDialer n) atMs] } := by
    unfold Setup.step
    rw [hrun]
    rfl
  rw [hstep]
  have hstream : setup.towardsDialer circuit.outgoing.sent <+: setup.hopAnswer ++ setup.reply := by
    rcases hlistened.towardsDialer with hanswer | ⟨hall, -⟩
    · exact hanswer.trans (List.prefix_append _ _)
    · exact ⟨[], by rw [hall, List.append_nil]⟩
  obtain ⟨hmore, hnext⟩ := received_next hd.dialer hstream n atMs
  refine ⟨?_, hd.listener, ?_, ?_, hd.whole⟩
  · rcases hnext with hsame | hle
    · dsimp only
      rw [hsame]
      exact hd.dialer
    · exact hle.trans hstream
  · intro hlong
    rcases hnext with hsame | hle
    · dsimp only at hlong
      rw [hsame] at hlong
      exact hd.replied hlong
    · rcases hlistened.towardsDialer with hanswer | ⟨-, hoffer⟩
      · have hshort := (hle.trans hanswer).length_le
        dsimp only at hlong
        omega
      · exact hoffer
  · intro hlong
    obtain ⟨hall, hrefusals⟩ := hd.synced hlong
    refine ⟨?_, hrefusals⟩
    rcases hnext with hsame | hle
    · exact hsame.trans hall
    · apply List.IsPrefix.eq_of_length_le (hle.trans hstream)
      rw [← hall]
      exact hmore.length_le

/-- More of what the relay has for the listener comes to it. -/
theorem toListener (hd : Consistent setup delivered) (h : setup.Sound)
    (hcodec : MultihashCodec.Exact) (n atMs : ℕ) :
    Consistent setup (setup.step delivered (.toListener n atMs)) := by
  obtain ⟨result, circuit, hrun, hdialed⟩ := hd.dialed h hcodec
  have hstep : setup.step delivered (.toListener n atMs) =
      { delivered with toListener := delivered.toListener ++ [.data (Setup.nextBytes
        (setup.towardsListener circuit.outgoing.sent) delivered.toListener n) atMs] } := by
    unfold Setup.step
    rw [hrun]
    rfl
  rw [hstep]
  have hstream : setup.towardsListener circuit.outgoing.sent <+:
      setup.stopRequest ++ setup.offer ++ syncFrame := by
    rcases hdialed.towardsListener with hoffer | ⟨hall, -⟩
    · exact hoffer.trans (List.prefix_append _ _)
    · exact ⟨[], by rw [hall, List.append_nil]⟩
  obtain ⟨hmore, hnext⟩ := received_next hd.listener hstream n atMs
  refine ⟨hd.dialer, ?_, fun hlong => (hd.replied hlong).trans hmore, ?_, ?_⟩
  · rcases hnext with hsame | hle
    · dsimp only
      rw [hsame]
      exact hd.listener
    · exact hle.trans hstream
  · intro hlong
    rcases hnext with hsame | hle
    · dsimp only at hlong
      rw [hsame] at hlong
      exact hd.synced hlong
    · rcases hdialed.towardsListener with hoffer | ⟨-, hsynced⟩
      · have hshort := (hle.trans hoffer).length_le
        dsimp only at hlong
        omega
      · exact hsynced
  · apply whole_append_data _ _ hd.whole
    rcases hdialed.towardsListener with hoffer | ⟨-, hreply, -⟩
    · -- the piece ends with the offer at the latest
      have hlen := hoffer.length_le
      unfold Setup.nextBytes
      rw [List.length_take, List.length_drop]
      omega
    · -- SYNC is sent after the reply has come, and that after the offer
      have hpos := List.length_pos_iff.mpr (Dcutr.connectFrame_ne_nil setup.listenerAddrs)
      have hreplied := hd.replied (by
        rw [hreply, List.length_append]
        exact Nat.lt_add_of_pos_right hpos)
      exact .inl hreplied.length_le

/-- An action keeps both sides consistent. -/
theorem step (hd : Consistent setup delivered) (h : setup.Sound) (hcodec : MultihashCodec.Exact)
    (action : RelayAction) : Consistent setup (setup.step delivered action) := by
  cases action with
  | toDialer n atMs => exact hd.toDialer h hcodec n atMs
  | toListener n atMs => exact hd.toListener h hcodec n atMs
  | dialerFails error =>
    have hsame := received_append_failed delivered.toDialer error
    refine ⟨?_, hd.listener, ?_, ?_, hd.whole⟩
    · show received (delivered.toDialer ++ _) <+: _
      rw [hsame]
      exact hd.dialer
    · show _ < (received (delivered.toDialer ++ _)).length → _
      rw [hsame]
      exact hd.replied
    · show _ → received (delivered.toDialer ++ _) = _ ∧ _
      rw [hsame]
      exact hd.synced
  | listenerFails error =>
    have hsame := received_append_failed delivered.toListener error
    refine ⟨hd.dialer, ?_, ?_, ?_, whole_append_failed _ _ hd.whole⟩
    · show received (delivered.toListener ++ _) <+: _
      rw [hsame]
      exact hd.listener
    · show _ → _ <+: received (delivered.toListener ++ _)
      rw [hsame]
      exact hd.replied
    · show _ < (received (delivered.toListener ++ _)).length → _
      rw [hsame]
      exact hd.synced

/-- Every run keeps both sides consistent. -/
theorem run (h : setup.Sound) (hcodec : MultihashCodec.Exact) (actions : List RelayAction) :
    Consistent setup (setup.run actions) := by
  have hgo : ∀ delivered, Consistent setup delivered →
      Consistent setup (actions.foldl setup.step delivered) := by
    induction actions with
    | nil => exact fun _ hd => hd
    | cons action actions ih => exact fun _ hd => ih _ (hd.step h hcodec action)
  exact hgo _ (consistent_start setup)

end Consistent

/-! ## The rendezvous -/

section

variable {stream : Bytes}

/-- The dialer returns the addresses of the listener. -/
theorem Dialed.addrs_eq {addrs : List Multiaddr} {rttMs : UInt64}
    (h : Dialed setup stream (.ok (addrs, rttMs)) sent) : addrs = setup.listenerAddrs := by
  cases h with
  | done => rfl

/-- The dialer fails only where it was hindered. -/
theorem Dialed.hindered {e : String} (h : Dialed setup stream (.error e) sent) :
    Hindered setup.dialerStream setup.dialerRefusal e := by
  cases h with
  | unasked _ he => exact he
  | asked _ _ he => exact he
  | unoffered _ _ _ he => exact he
  | offered _ _ _ _ he => exact he

/-- A listener that is done has read all of the stream. -/
theorem Listened.of_ok {peer : PeerId} {addrs : List Multiaddr}
    (h : Listened setup stream (.ok (peer, addrs)) sent) :
    peer = setup.dialerId ∧ addrs = setup.dialerAddrs ∧
      stream = setup.stopRequest ++ setup.offer ++ syncFrame := by
  cases h with
  | done _ _ hsync => exact ⟨rfl, rfl, hsync⟩

/-- The listener fails only where it was hindered. -/
theorem Listened.hindered {e : String} (h : Listened setup stream (.error e) sent) :
    Hindered setup.listenerStream setup.listenerRefusal e := by
  cases h with
  | waiting _ he => exact he
  | accepted _ _ _ he => exact he
  | replied _ _ _ _ he => exact he

end

/-- How far a dialer is whose sends were not refused, and what the relay has for the listener. -/
theorem Dialed.stage {stream : Bytes} {result : Except String (List Multiaddr × UInt64)}
    (h : Dialed setup stream result sent) (h₀ : setup.dialerRefusal 0 = none)
    (h₁ : setup.dialerRefusal 1 = none) (h₂ : setup.dialerRefusal 2 = none) :
    (¬ setup.hopAnswer <+: stream ∧ setup.towardsListener sent = setup.stopRequest) ∨
      (stream ≠ setup.hopAnswer ++ setup.reply ∧
        setup.towardsListener sent = setup.stopRequest ++ setup.offer) ∨
      (∃ rttMs, result = .ok (setup.listenerAddrs, rttMs)) ∧
        setup.towardsListener sent = setup.stopRequest ++ setup.offer ++ syncFrame := by
  cases h with
  | unasked hsome =>
    rw [h₀] at hsome
    cases hsome
  | asked _ hanswer => exact .inl ⟨hanswer, towardsListener_request setup⟩
  | unoffered _ hsome =>
    rw [h₁] at hsome
    cases hsome
  | offered _ _ _ hlacks =>
    rcases hlacks with hreply | hsome
    · exact .inr (.inl ⟨hreply, towardsListener_append setup setup.offer⟩)
    · rw [h₂] at hsome
      cases hsome
  | done rttMs =>
    rw [List.append_assoc, towardsListener_append, ← List.append_assoc]
    exact .inr (.inr ⟨⟨rttMs, rfl⟩, rfl⟩)

/-- How far a listener is whose sends were not refused, and what the relay has for the dialer. -/
theorem Listened.stage {stream : Bytes} {result : Except String (PeerId × List Multiaddr)}
    (h : Listened setup stream result sent) (h₀ : setup.listenerRefusal 0 = none)
    (h₁ : setup.listenerRefusal 1 = none) :
    ¬ setup.stopRequest <+: stream ∨
      (¬ setup.stopRequest ++ setup.offer <+: stream ∧
        setup.towardsDialer sent = setup.hopAnswer) ∨
      (stream = setup.stopRequest ++ setup.offer ++ syncFrame →
          result = .ok (setup.dialerId, setup.dialerAddrs)) ∧
        setup.towardsDialer sent = setup.hopAnswer ++ setup.reply := by
  cases h with
  | waiting hrequest =>
    refine .inl fun hall => ?_
    have hsome := hrequest hall
    rw [h₀] at hsome
    cases hsome
  | accepted _ _ hoffer =>
    refine .inr (.inl ⟨fun hall => ?_, towardsDialer_answer setup⟩)
    have hsome := hoffer hall
    rw [h₁] at hsome
    cases hsome
  | replied _ _ _ hsync =>
    exact .inr (.inr ⟨fun hall => absurd hall hsync, towardsDialer_append setup setup.reply⟩)
  | done => exact .inr (.inr ⟨fun _ => rfl, towardsDialer_append setup setup.reply⟩)

/-- A dialer whose sends were not refused is done when the whole reply has come. -/
theorem Dialed.done_of_reply {stream : Bytes} {result : Except String (List Multiaddr × UInt64)}
    (h : Dialed setup stream result sent) (hreply : stream = setup.hopAnswer ++ setup.reply)
    (h₀ : setup.dialerRefusal 0 = none) (h₁ : setup.dialerRefusal 1 = none)
    (h₂ : setup.dialerRefusal 2 = none) :
    ∃ rttMs, result = .ok (setup.listenerAddrs, rttMs) := by
  rcases h.stage h₀ h₁ h₂ with ⟨hanswer, -⟩ | ⟨hne, -⟩ | ⟨hdone, -⟩
  · rw [hreply] at hanswer
    exact absurd (List.prefix_append _ _) hanswer
  · exact absurd hreply hne
  · exact hdone

/-- When no send was refused and all that the relay has for a party has come to it, both are done.
-/
theorem done_of_drained {got taken replied : Bytes}
    {dialed : Except String (List Multiaddr × UInt64)}
    {listened : Except String (PeerId × List Multiaddr)}
    (hdialed : Dialed setup got dialed sent) (hlistened : Listened setup taken listened replied)
    (hdialer : ∀ call, setup.dialerRefusal call = none)
    (hlistener : ∀ call, setup.listenerRefusal call = none)
    (hgot : got = setup.towardsDialer replied) (htaken : taken = setup.towardsListener sent) :
    (∃ rttMs, dialed = .ok (setup.listenerAddrs, rttMs)) ∧
      listened = .ok (setup.dialerId, setup.dialerAddrs) := by
  have hdial := hdialed.stage (hdialer 0) (hdialer 1) (hdialer 2)
  rw [← htaken] at hdial
  rcases hlistened.stage (hlistener 0) (hlistener 1) with hwaits | ⟨hwaits, hanswer⟩ |
    ⟨hdone, hreply⟩
  · -- the dialer has asked for the circuit, so the listener has heard of it
    rcases hdial with ⟨-, hall⟩ | ⟨-, hall⟩ | ⟨-, hall⟩
    · exact absurd ⟨[], by rw [hall, List.append_nil]⟩ hwaits
    · exact absurd ⟨setup.offer, hall.symm⟩ hwaits
    · rw [List.append_assoc] at hall
      exact absurd ⟨_, hall.symm⟩ hwaits
  · -- the dialer has its answer, so it has made its offer
    rw [hanswer] at hgot
    rcases hdial with ⟨hnone, -⟩ | ⟨-, hall⟩ | ⟨-, hall⟩
    · exact absurd ⟨[], by rw [hgot, List.append_nil]⟩ hnone
    · exact absurd ⟨[], by rw [hall, List.append_nil]⟩ hwaits
    · exact absurd ⟨syncFrame, hall.symm⟩ hwaits
  · -- the dialer has the reply, so it has sent SYNC
    rw [hreply] at hgot
    rcases hdial with ⟨hnone, -⟩ | ⟨hne, -⟩ | ⟨hdials, hall⟩
    · exact absurd ⟨setup.reply, hgot.symm⟩ hnone
    · exact absurd hgot hne
    · exact ⟨hdials, hdone hall⟩

/-- What can be said of two scripts at any moment: the dialer returns the listener's addresses or an
error that is not the listener's doing, and the listener returns the dialer's peer id and addresses
or such an error; the listener is done only when the dialer is. -/
structure Meets (setup : Setup) (delivered : Delivered)
    (dialed : Except String (List Multiaddr × UInt64)) (dialer : Circuit)
    (listened : Except String (PeerId × List Multiaddr)) (listener : Circuit) : Prop where
  dial_eq : setup.dial delivered.toDialer = some (dialed, dialer)
  listen_eq : setup.listen delivered.toListener = some (listened, listener)
  dials : ∀ addrs rttMs, dialed = .ok (addrs, rttMs) → addrs = setup.listenerAddrs
  listens : ∀ peer addrs, listened = .ok (peer, addrs) →
    peer = setup.dialerId ∧ addrs = setup.dialerAddrs ∧
      ∃ rttMs, dialed = .ok (setup.listenerAddrs, rttMs)
  dial_fails : ∀ e, dialed = .error e → Hindered setup.dialerStream setup.dialerRefusal e
  listen_fails : ∀ e, listened = .error e → Hindered setup.listenerStream setup.listenerRefusal e
  /-- Nothing is left to come, and no send was refused. -/
  drained : (∀ call, setup.dialerRefusal call = none) →
    (∀ call, setup.listenerRefusal call = none) →
    received delivered.toDialer = setup.towardsDialer listener.outgoing.sent →
    received delivered.toListener = setup.towardsListener dialer.outgoing.sent →
    (∃ rttMs, dialed = .ok (setup.listenerAddrs, rttMs)) ∧
      listened = .ok (setup.dialerId, setup.dialerAddrs)

/-- A dialer and a listener meet over a relay, however what they send is cut into pieces and in
whatever order the pieces come. -/
theorem relayed_rendezvous (hcodec : MultihashCodec.Exact) (h : setup.Sound)
    (actions : List RelayAction) :
    ∃ dialed dialer listened listener,
      Meets setup (setup.run actions) dialed dialer listened listener := by
  have hd := Consistent.run h hcodec actions
  obtain ⟨dialed, dialer, hdial, hdialed⟩ := hd.dialed h hcodec
  obtain ⟨listened, listener, hlisten, hlistened⟩ := hd.listened h hcodec
  refine ⟨dialed, dialer, listened, listener, hdial, hlisten, ?_, ?_, ?_, ?_, ?_⟩
  · rintro addrs rttMs rfl
    exact hdialed.addrs_eq
  · rintro peer addrs rfl
    obtain ⟨hpeer, haddrs, hsync⟩ := hlistened.of_ok
    have hpos := List.length_pos_iff.mpr syncFrame_ne_nil
    obtain ⟨hreply, h₀, h₁, h₂⟩ := hd.synced (by
      rw [hsync]
      simp only [List.length_append]
      omega)
    exact ⟨hpeer, haddrs, hdialed.done_of_reply hreply h₀ h₁ h₂⟩
  · rintro e rfl
    exact hdialed.hindered
  · rintro e rfl
    exact hlistened.hindered
  · exact fun hdialer hlistener hgot htaken =>
      done_of_drained hdialed hlistened hdialer hlistener hgot htaken

/-- Two peers, of which the dialer has an address. -/
def loopbackSetup : Setup where
  target := ⟨0x12, List.replicate 32 2, by decide⟩
  dialerId := ⟨0x12, List.replicate 32 1, by decide⟩
  dialerAddrs := [loopbackAddr]
  listenerAddrs := []
  dialerStream := ⟨0⟩
  listenerStream := ⟨1⟩
  answer := ⟨.status, none, none, none, some .ok⟩
  request :=
    ⟨.connect, some ⟨PeerId.toBytes ⟨0x12, List.replicate 32 1, by decide⟩, []⟩, none, none⟩
  dialerRefusal := fun _ => none
  listenerRefusal := fun _ => none

/-- A run in pieces that goes through to its end. -/
def loopbackRun : List RelayAction :=
  [.toListener 5 1, .toListener 99 2, .toDialer 3 3, .toDialer 99 4, .toListener 7 5,
    .toListener 99 6, .toDialer 99 7, .toListener 99 8]

omit [MultihashCodec] in
theorem loopbackSetup_sound : letI := multihashCodec; loopbackSetup.Sound := by
  let codec := multihashCodec
  exact ⟨rfl, rfl, by decide, rfl, ⟨[], rfl⟩, by decide, by decide, ⟨by decide, by decide⟩,
    ⟨by decide, by decide⟩⟩

omit [MultihashCodec] in
theorem relayed_rendezvous_loopback :
    letI := multihashCodec
    let delivered := loopbackSetup.run loopbackRun
    (loopbackSetup.dial delivered.toDialer).map (·.1) = some (.ok ([], 3)) ∧
      (loopbackSetup.listen delivered.toListener).map (·.1) =
        some (.ok (loopbackSetup.dialerId, [loopbackAddr])) := by
  let codec := multihashCodec
  intro delivered
  obtain ⟨dialed, dialer, listened, listener, hmeets⟩ :=
    relayed_rendezvous multihashCodec_exact loopbackSetup_sound loopbackRun
  have hgot : received delivered.toDialer =
      loopbackSetup.towardsDialer (sentIn (loopbackSetup.listen delivered.toListener)) := by
    decide +kernel
  have htaken : received delivered.toListener =
      loopbackSetup.towardsListener (sentIn (loopbackSetup.dial delivered.toDialer)) := by
    decide +kernel
  have hrtt : ((loopbackSetup.dial delivered.toDialer).bind (·.1.toOption)).map (·.2) =
      some 3 := by
    decide +kernel
  rw [hmeets.listen_eq] at hgot
  rw [hmeets.dial_eq] at htaken hrtt
  obtain ⟨⟨rttMs, rfl⟩, rfl⟩ :=
    hmeets.drained (fun _ => rfl) (fun _ => rfl) hgot htaken
  obtain rfl : rttMs = 3 := Option.some.inj hrtt
  exact ⟨congrArg _ hmeets.dial_eq, congrArg _ hmeets.listen_eq⟩

end Minip2p.Peer
