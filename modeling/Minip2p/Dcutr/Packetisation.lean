import Minip2p.Core.Front
import Minip2p.Dcutr.Session

/-!
# The DCUtR responder and the pieces of its stream

The responder reads a CONNECT from the front of its stream and a SYNC from behind it, and checks
the size of its whole buffer before either. Where it stands is what `Wire.Front` says of the CONNECT
and, once that is accepted, of the bytes behind it (`Shows`).
-/

namespace Minip2p.Dcutr

open SansIoProtocol (Driven)
open Wire (Front)

/-- A message is read from at most `maxMessageSize` bytes. -/
theorem receiveHolePunch_bounded : Wire.Bounded maxMessageSize receiveHolePunch :=
  Wire.receive_bounded _ _ _ _

/-! ## Messages that are accepted -/

/-- The initiator takes a CONNECT. -/
def acceptConnect (msg : HolePunch) : Option HolePunch :=
  if msg.kind = .connect then some msg else none

/-- The responder takes a SYNC behind the CONNECT. -/
def acceptSync (msg : HolePunch) : Option Unit := if msg.kind = .sync then some () else none

/-- What the responder makes of the bytes up to the first message. -/
def readConnect (buf : Bytes) : Front HolePunch := Front.read receiveHolePunch acceptConnect buf

/-- What the responder makes of the bytes behind the first message. -/
def readSync (buf : Bytes) : Front Unit := Front.read receiveHolePunch acceptSync buf

/-- A first message that is accepted was received. -/
theorem receive_of_readConnect {buf rest : Bytes} {msg : HolePunch}
    (h : readConnect buf = .accepted msg rest) :
    receiveHolePunch buf = .ok (.message msg rest) ∧ msg.kind = .connect := by
  rw [readConnect, Front.read] at h
  split at h
  · cases h
  · cases h
  · cases h
  · next msg' rest' hreceive =>
    by_cases hkind : msg'.kind = .connect
    · rw [acceptConnect, if_pos hkind] at h
      obtain ⟨rfl, rfl⟩ := Front.accepted.inj h
      exact ⟨hreceive, hkind⟩
    · rw [acceptConnect, if_neg hkind] at h
      cases h

/-! ## Callers -/

section

variable [MultihashCodec]

namespace DcutrResponder

/-- A responder with its driver. -/
abbrev Caller := Driven DcutrResponder DcutrResponderOutput DcutrError

/-- The outputs that are held. -/
def pending (flow : DcutrResponder) : List DcutrResponderOutput :=
  (if flow.outbound.isEmpty then [] else [.outbound flow.outbound]) ++ flow.events.map .event

/-- The events among some outputs. -/
def eventsOf (outputs : List DcutrResponderOutput) : List ResponderEvent :=
  outputs.filterMap fun output =>
    match output with
    | .event event => some event
    | .outbound _ => none

/-- The bytes for the remote among some outputs. -/
def outboundOf (outputs : List DcutrResponderOutput) : Bytes :=
  outputs.flatMap fun output =>
    match output with
    | .outbound bytes => bytes
    | .event _ => []

/-- What the caller of a responder has seen. -/
structure Seen where
  events : List ResponderEvent
  outbound : Bytes
  failed : Bool
  panicked : Bool
deriving DecidableEq

/-- What a caller sees that polls until it gets no more outputs, of which there are three. -/
def seenBy (caller : Caller) : Seen where
  events := eventsOf (caller.polls 3).outputs
  outbound := outboundOf (caller.polls 3).outputs
  failed := !(caller.polls 3).errors.isEmpty
  panicked := (caller.polls 3).machine.isNone

/-- A caller that feeds and polls. -/
def drive (caller : Caller) (ops : List (Chunking.Op UInt8)) : Caller :=
  Chunking.run (fun caller piece => caller.give (.data piece)) Driven.poll caller ops

/-- What is seen of a new responder that is fed and polled. -/
def seen (ownAddrs : List Multiaddr) (ops : List (Chunking.Op UInt8)) : Seen :=
  seenBy (drive (.start (new ownAddrs)) ops)

/-- Polling hands the queue of a responder out in order. -/
theorem queues : Driven.Queues pending where
  first flow := by
    obtain ⟨ownAddrs, outbound, recvBuf, state, events⟩ := flow
    cases outbound <;> cases events <;> rfl
  rest flow := by
    obtain ⟨ownAddrs, outbound, recvBuf, state, events⟩ := flow
    cases outbound <;> cases events <;> rfl

/-! ## What an input does -/

/-- The addresses of a message that was received. -/
def remoteAddrs (msg : HolePunch) : List Multiaddr :=
  match decodeRemoteAddrs msg.obsAddrs with
  | .ok addrs => addrs
  | .error _ => []

/-- The addresses of a message that was received are read without a panic. -/
theorem decodeRemoteAddrs_of_received {buf rest : Bytes} {msg : HolePunch}
    (h : receiveHolePunch buf = .ok (.message msg rest)) :
    decodeRemoteAddrs msg.obsAddrs = .ok (remoteAddrs msg) := by
  obtain ⟨addrs, haddrs⟩ := returns_decodeRemoteAddrs_of_received h
  rw [remoteAddrs, haddrs]

/-- The responder after it answered a CONNECT. -/
def answer (flow : DcutrResponder) (msg : HolePunch) (rest : Bytes) : DcutrResponder :=
  { flow with
    recvBuf := rest
    outbound := flow.outbound ++ encodeFrame (HolePunch.encode ⟨.connect, flow.ownAddrs⟩)
    events := flow.events ++ [.connectReceived (remoteAddrs msg) msg.obsAddrs]
    state := .awaitingSync }

/-- What the decode loop returns behind the CONNECT, given what it finds there. -/
def SyncResult (flow : DcutrResponder) (result : Exec (DcutrResponder × Except DcutrError Unit)) :
    Front Unit → Prop
  | .waiting _ => result = .ok (flow, .ok ())
  | .failed => ∃ recvBuf e, result = .ok ({ flow with recvBuf, state := .done }, .error e)
  | .panicked => ∃ p, result = .error p
  | .accepted _ _ => ∃ recvBuf, result = .ok ({ flow with
      recvBuf, events := flow.events ++ [.syncReceived], state := .done }, .ok ())

/-- What a responder does with what comes behind the CONNECT. -/
theorem syncResult {flow : DcutrResponder} (hstate : flow.state = .awaitingSync) (fuel : ℕ) :
    SyncResult flow (tryDecodeGo (fuel + 2) flow) (readSync flow.recvBuf) := by
  have hne : flow.state ≠ .done := by rw [hstate]; decide
  rw [tryDecodeGo, if_neg hne, readSync, Front.read]
  cases receiveHolePunch flow.recvBuf with
  | error p => exact ⟨p, rfl⟩
  | ok received =>
    cases received with
    | incomplete => exact rfl
    | failed e => exact ⟨flow.recvBuf, e, rfl⟩
    | message msg rest =>
      obtain ⟨kind, obsAddrs⟩ := msg
      cases kind with
      | connect =>
        refine ⟨rest, .unexpectedMessage "unexpected Connect in state AwaitingSync", ?_⟩
        simp only [hstate]
        rfl
      | sync =>
        refine ⟨rest, ?_⟩
        simp only [hstate]
        rfl

/-- What the decode loop returns while it awaits the CONNECT. -/
def ConnectResult (flow : DcutrResponder)
    (result : Exec (DcutrResponder × Except DcutrError Unit)) : Front HolePunch → Prop
  | .waiting _ => result = .ok (flow, .ok ())
  | .failed => ∃ recvBuf e, result = .ok ({ flow with recvBuf, state := .done }, .error e)
  | .panicked => ∃ p, result = .error p
  | .accepted msg rest => result = tryDecodeGo 2 (flow.answer msg rest)

/-- What a responder does with the start of the stream. -/
theorem connectResult {flow : DcutrResponder} (hstate : flow.state = .awaitingConnect) :
    ConnectResult flow flow.tryDecode (readConnect flow.recvBuf) := by
  have hne : flow.state ≠ .done := by rw [hstate]; decide
  rw [tryDecode, tryDecodeGo, if_neg hne, readConnect, Front.read]
  cases hreceive : receiveHolePunch flow.recvBuf with
  | error p => exact ⟨p, rfl⟩
  | ok received =>
    cases received with
    | incomplete => exact rfl
    | failed e => exact ⟨flow.recvBuf, e, rfl⟩
    | message msg rest =>
      have haddrs := decodeRemoteAddrs_of_received hreceive
      obtain ⟨kind, obsAddrs⟩ := msg
      cases kind with
      | connect =>
        show _ = tryDecodeGo 2 (flow.answer ⟨.connect, obsAddrs⟩ rest)
        simp only [hstate]
        show (decodeRemoteAddrs obsAddrs >>= _) = _
        rw [show decodeRemoteAddrs obsAddrs = _ from haddrs]
        rfl
      | sync =>
        refine ⟨rest, .unexpectedMessage "unexpected Sync in state AwaitingConnect", ?_⟩
        simp only [hstate]
        rfl

/-! ## Where a responder stands -/

/-- The outputs of a responder that has answered a CONNECT. -/
def answers (ownAddrs : List Bytes) (msg : HolePunch) : List DcutrResponderOutput :=
  [.outbound (encodeFrame (HolePunch.encode ⟨.connect, ownAddrs⟩)),
    .event (.connectReceived (remoteAddrs msg) msg.obsAddrs)]

omit [MultihashCodec] in
/-- The reply is handed out before the events. -/
theorem pending_of_outbound {flow : DcutrResponder} (h : flow.outbound ≠ []) :
    pending flow = .outbound flow.outbound :: flow.events.map .event := by
  rw [pending, if_neg (by rwa [List.isEmpty_iff])]
  rfl

/-- What a responder has to hand out after the CONNECT. -/
theorem pending_answer {flow : DcutrResponder} {msg : HolePunch} (rest : Bytes)
    (houtbound : flow.outbound = []) (hevents : flow.events = []) :
    pending (flow.answer msg rest) = answers flow.ownAddrs msg := by
  have hreply : (flow.answer msg rest).outbound =
      encodeFrame (HolePunch.encode ⟨.connect, flow.ownAddrs⟩) := by
    rw [answer, houtbound]
    rfl
  have hne : (flow.answer msg rest).outbound ≠ [] := by
    rw [hreply]
    exact Wire.encodeFrame_ne_nil _
  rw [pending_of_outbound hne, hreply, answer, hevents]
  rfl

/-- What the caller has and what the responder holds is what the responder has come to. -/
inductive Shows (ownAddrs : List Bytes) : Caller → Front HolePunch → Prop
  | waiting (buf : Bytes) :
    Shows ownAddrs ⟨some ⟨ownAddrs, [], buf, .awaitingConnect, []⟩, [], []⟩ (.waiting buf)
  | failed (recvBuf : Bytes) {errors : List DcutrError} (herrors : errors ≠ []) :
    Shows ownAddrs ⟨some ⟨ownAddrs, [], recvBuf, .done, []⟩, [], errors⟩ .failed
  | panicked : Shows ownAddrs ⟨none, [], []⟩ .panicked
  /-- CONNECT is answered and SYNC is awaited. -/
  | answered {flow : DcutrResponder} {outputs : List DcutrResponderOutput} {msg : HolePunch}
    {rest : Bytes} (hsync : readSync flow.recvBuf = .waiting rest)
    (hstate : flow.state = .awaitingSync)
    (hall : outputs ++ pending flow = answers ownAddrs msg) :
    Shows ownAddrs ⟨some flow, outputs, []⟩ (.accepted msg flow.recvBuf)
  /-- CONNECT is answered and what came behind it was not a SYNC. -/
  | unsynced {flow : DcutrResponder} {outputs : List DcutrResponderOutput}
    {errors : List DcutrError} {msg : HolePunch} {rest : Bytes} (hsync : readSync rest = .failed)
    (hstate : flow.state = .done) (hall : outputs ++ pending flow = answers ownAddrs msg)
    (herrors : errors ≠ []) :
    Shows ownAddrs ⟨some flow, outputs, errors⟩ (.accepted msg rest)
  /-- Both messages are here. -/
  | synced {flow : DcutrResponder} {outputs : List DcutrResponderOutput} {msg : HolePunch}
    {rest more : Bytes} (hsync : readSync rest = .accepted () more) (hstate : flow.state = .done)
    (hall : outputs ++ pending flow = answers ownAddrs msg ++ [.event .syncReceived]) :
    Shows ownAddrs ⟨some flow, outputs, []⟩ (.accepted msg rest)

variable {ownAddrs : List Bytes} {caller : Caller} {front : Front HolePunch}

omit [MultihashCodec] in
/-- Polling does not change what was read. -/
theorem pollOutput_fields (flow : DcutrResponder) : flow.pollOutput.1.state = flow.state ∧
    flow.pollOutput.1.recvBuf = flow.recvBuf := by
  obtain ⟨ownAddrs, outbound, recvBuf, state, events⟩ := flow
  constructor
  · cases outbound <;> cases events <;> rfl
  · cases outbound <;> cases events <;> rfl

/-- A poll leaves the front alone. -/
theorem Shows.poll (h : Shows ownAddrs caller front) : Shows ownAddrs caller.poll front := by
  have hsame := Driven.all_poll queues caller
  cases h with
  | waiting buf => exact .waiting buf
  | failed recvBuf herrors => exact .failed recvBuf herrors
  | panicked => exact .panicked
  | @answered flow outputs msg rest hsync hstate hall =>
    obtain ⟨hstate', hbuf⟩ := pollOutput_fields flow
    rw [← hbuf] at hsync ⊢
    exact .answered hsync (hstate'.trans hstate) (hsame.trans hall)
  | @unsynced flow outputs errors msg rest hsync hstate hall herrors =>
    exact .unsynced hsync ((pollOutput_fields flow).1.trans hstate) (hsame.trans hall) herrors
  | @synced flow outputs msg rest more hsync hstate hall =>
    exact .synced hsync ((pollOutput_fields flow).1.trans hstate) (hsame.trans hall)

/-- What came behind a CONNECT is within the limit and does not panic. -/
def Good (front : Front HolePunch) : Prop :=
  ∀ msg rest, front = .accepted msg rest →
    rest.length ≤ maxMessageSize ∧ readSync rest ≠ .panicked

omit [MultihashCodec] in
/-- Within the limit, reading twice behind the CONNECT is reading once. -/
theorem readSync_append {rest piece : Bytes} (hlen : (rest ++ piece).length ≤ maxMessageSize) :
    readSync (rest ++ piece) = Front.feed receiveHolePunch acceptSync (readSync rest) piece :=
  (Front.feed_read receiveHolePunch_bounded hlen).symm

omit [MultihashCodec] in
/-- What has not gone wrong later has not gone wrong before. -/
theorem Good.of_feed {piece : Bytes}
    (h : Good (Front.feed receiveHolePunch acceptConnect front piece)) : Good front := by
  rintro msg rest rfl
  obtain ⟨hlen, hsync⟩ := h msg (rest ++ piece) rfl
  rw [readSync_append hlen] at hsync
  rw [List.length_append] at hlen
  refine ⟨by omega, fun hpanic => hsync ?_⟩
  rw [hpanic]
  rfl

/-- What an answered CONNECT and the bytes behind it show. -/
theorem Shows.of_syncResult {flow : DcutrResponder} {msg : HolePunch}
    {outputs : List DcutrResponderOutput} {input : DcutrResponderInput}
    (hall : outputs ++ pending flow = answers ownAddrs msg)
    (hstate : flow.state = .awaitingSync) (hgood : Good (.accepted msg flow.recvBuf))
    {machine : DcutrResponder}
    (hresult : SyncResult flow (machine.handleInput input) (readSync flow.recvBuf)) :
    Shows ownAddrs (Driven.give ⟨some machine, outputs, []⟩ input)
      (.accepted msg flow.recvBuf) := by
  cases hread : readSync flow.recvBuf with
  | waiting buf =>
    rw [hread] at hresult
    rw [Driven.give_ok (show machine.handleInput input = _ from hresult)]
    exact .answered hread hstate hall
  | failed =>
    rw [hread] at hresult
    obtain ⟨recvBuf, e, hresult⟩ := hresult
    rw [Driven.give_error hresult]
    exact .unsynced hread rfl hall (by simp)
  | panicked => exact absurd hread (hgood msg _ rfl).2
  | accepted value more =>
    rw [hread] at hresult
    obtain ⟨recvBuf, hresult⟩ := hresult
    rw [Driven.give_ok hresult]
    refine .synced hread rfl ?_
    rw [← hall]
    simp [pending]

/-- A piece moves the responder as it moves the front. -/
theorem Shows.give (h : Shows ownAddrs caller front) {piece : Bytes}
    (hgood : Good (Front.feed receiveHolePunch acceptConnect front piece)) :
    Shows ownAddrs (caller.give (.data piece))
      (Front.feed receiveHolePunch acceptConnect front piece) := by
  cases h with
  | waiting buf =>
    have hresult := @connectResult _ ⟨ownAddrs, [], buf ++ piece, .awaitingConnect, []⟩ rfl
    have hinput : handleInput ⟨ownAddrs, [], buf, .awaitingConnect, []⟩ (.data piece) =
      tryDecode ⟨ownAddrs, [], buf ++ piece, .awaitingConnect, []⟩ := rfl
    rw [← hinput] at hresult
    change Good (readConnect (buf ++ piece)) at hgood
    show Shows ownAddrs _ (readConnect (buf ++ piece))
    cases hread : readConnect (buf ++ piece) with
    | waiting buf' =>
      rw [hread] at hresult
      rw [Driven.give_ok (show handleInput _ _ = _ from hresult), Front.eq_of_read_waiting hread]
      exact .waiting _
    | failed =>
      rw [hread] at hresult
      obtain ⟨recvBuf, e, hresult⟩ := hresult
      rw [Driven.give_error hresult]
      exact .failed recvBuf (by simp)
    | panicked =>
      rw [hread] at hresult
      obtain ⟨p, hresult⟩ := hresult
      rw [Driven.give_panic hresult]
      exact .panicked
    | accepted msg rest =>
      rw [hread] at hresult hgood
      have hsync := @syncResult _ (answer ⟨ownAddrs, [], buf ++ piece, .awaitingConnect, []⟩ msg
        rest) rfl 0
      rw [← show handleInput _ _ = tryDecodeGo 2 _ from hresult] at hsync
      exact Shows.of_syncResult (pending_answer _ rfl rfl) rfl hgood hsync
  | failed recvBuf herrors =>
    exact .failed recvBuf herrors
  | panicked => exact .panicked
  | @answered flow outputs msg rest hsync hstate hall =>
    have hinput : flow.handleInput (.data piece) =
        tryDecodeGo 3 { flow with recvBuf := flow.recvBuf ++ piece } := by
      show flow.onData piece = _
      rw [onData, if_neg (by rw [hstate]; decide)]
      rfl
    have hresult := @syncResult _ { flow with recvBuf := flow.recvBuf ++ piece } hstate 1
    rw [← hinput] at hresult
    exact @Shows.of_syncResult _ _ { flow with recvBuf := flow.recvBuf ++ piece } msg _ _ hall
      hstate hgood _ hresult
  | @unsynced flow outputs errors msg rest hsync hstate hall herrors =>
    obtain ⟨hlen, -⟩ := hgood msg (rest ++ piece) rfl
    rw [Driven.give_ok (if_pos hstate)]
    refine .unsynced ?_ hstate hall herrors
    rw [readSync_append hlen, hsync]
    rfl
  | @synced flow outputs msg rest more hsync hstate hall =>
    obtain ⟨hlen, -⟩ := hgood msg (rest ++ piece) rfl
    rw [Driven.give_ok (if_pos hstate)]
    have hmore : readSync (rest ++ piece) = .accepted () (more ++ piece) := by
      rw [readSync_append hlen, hsync]
      rfl
    exact .synced hmore hstate hall

/-! ## Runs -/

omit [MultihashCodec] in
/-- What has not gone wrong later has not gone wrong before. -/
theorem Good.of_run {pieces : List Bytes}
    (h : Good (Front.run receiveHolePunch acceptConnect front pieces)) : Good front := by
  induction pieces generalizing front with
  | nil => exact h
  | cons piece pieces ih => exact (ih h).of_feed

/-- Any operations move the responder as their pieces move the front. -/
theorem Shows.run {ops : List (Chunking.Op UInt8)} (h : Shows ownAddrs caller front)
    (hgood : Good (Front.run receiveHolePunch acceptConnect front (Chunking.pieces ops))) :
    Shows ownAddrs (drive caller ops)
      (Front.run receiveHolePunch acceptConnect front (Chunking.pieces ops)) := by
  induction ops generalizing caller front with
  | nil => exact h
  | cons op ops ih =>
    cases op with
    | feed piece => exact ih (h.give (Good.of_run hgood)) hgood
    | poll => exact ih h.poll hgood

/-- What is seen of a responder whose CONNECT is answered. -/
def seenBehind (ownAddrs : List Bytes) (msg : HolePunch) (behind : Front Unit) : Seen :=
  let events := eventsOf (answers ownAddrs msg)
  let outbound := outboundOf (answers ownAddrs msg)
  match behind with
  | .waiting _ => ⟨events, outbound, false, false⟩
  | .failed => ⟨events, outbound, true, false⟩
  | .panicked => ⟨events, outbound, false, true⟩
  | .accepted _ _ => ⟨events ++ [.syncReceived], outbound, false, false⟩

theorem events_seenBehind (ownAddrs : List Bytes) (msg : HolePunch) (front : Front Unit) :
    (seenBehind ownAddrs msg front).events ≠ [] := by
  cases front <;> exact List.cons_ne_nil _ _

/-- What is seen of a responder that has come this far. -/
def seenAt (ownAddrs : List Bytes) : Front HolePunch → Seen
  | .waiting _ => ⟨[], [], false, false⟩
  | .failed => ⟨[], [], true, false⟩
  | .panicked => ⟨[], [], false, true⟩
  | .accepted msg rest => seenBehind ownAddrs msg (readSync rest)

theorem seenBy_of_all {flow : DcutrResponder} {outputs all : List DcutrResponderOutput}
    {errors : List DcutrError} (hall : outputs ++ pending flow = all) (hlen : all.length ≤ 3) :
    seenBy ⟨some flow, outputs, errors⟩ =
      ⟨eventsOf all, outboundOf all, !errors.isEmpty, false⟩ := by
  have hpolls : (Driven.polls (⟨some flow, outputs, errors⟩ : Caller) 3).outputs = all := by
    refine (Driven.outputs_polls queues ?_).trans hall
    rintro machine ⟨⟩
    rw [← hall, List.length_append] at hlen
    omega
  rw [seenBy, hpolls, Driven.errors_polls, Driven.machine_polls]
  rfl

/-- A driver sees what the front says. -/
theorem Shows.seenBy_eq (h : Shows ownAddrs caller front) :
    seenBy caller = seenAt ownAddrs front := by
  cases h with
  | waiting buf => exact seenBy_of_all rfl (Nat.zero_le _)
  | @failed recvBuf errors herrors =>
    rw [seenBy_of_all rfl (Nat.zero_le _), List.isEmpty_eq_false_iff.mpr herrors]
    rfl
  | panicked => rfl
  | @answered flow outputs msg rest hsync hstate hall =>
    rw [seenBy_of_all hall (by simp [answers]), seenAt, hsync]
    rfl
  | @unsynced flow outputs errors msg rest hsync hstate hall herrors =>
    rw [seenBy_of_all hall (by simp [answers]), seenAt, hsync,
      List.isEmpty_eq_false_iff.mpr herrors]
    rfl
  | @synced flow outputs msg rest more hsync hstate hall =>
    rw [seenBy_of_all hall (by simp [answers]), seenAt, hsync]
    simp [seenBehind, eventsOf, outboundOf]

/-- What is seen of a new responder, if what comes behind the CONNECT is within the limit and does
not panic. -/
theorem seen_eq {own : List Multiaddr} {ops : List (Chunking.Op UInt8)}
    (hgood : Good (Front.run receiveHolePunch acceptConnect (.waiting []) (Chunking.pieces ops))) :
    seen own ops = seenAt (own.map encodeMultiaddr)
      (Front.run receiveHolePunch acceptConnect (.waiting []) (Chunking.pieces ops)) :=
  (Shows.run (.waiting []) hgood).seenBy_eq

/-! ## Streams whose pieces do not matter -/

/-- After a panic nothing happens. -/
theorem drive_ended {ops : List (Chunking.Op UInt8)} {outputs : List DcutrResponderOutput}
    {errors : List DcutrError} :
    drive ⟨none, outputs, errors⟩ ops = ⟨none, outputs, errors⟩ := by
  induction ops with
  | nil => rfl
  | cons op ops ih => cases op <;> exact ih

/-- A responder that panics on the first piece shows that and no more. -/
theorem seen_panicked (own : List Multiaddr) {first : Bytes} (h : readConnect first = .panicked ∨
    ∃ msg rest, readConnect first = .accepted msg rest ∧ readSync rest = .panicked)
    (ops : List (Chunking.Op UInt8)) :
    seen own (.feed first :: ops) = ⟨[], [], false, true⟩ := by
  have hpanic : ∃ p, handleInput (new own) (.data first) = .error p := by
    have hresult := @connectResult _ { new own with recvBuf := [] ++ first } rfl
    rw [List.nil_append] at hresult
    obtain hread | ⟨msg, rest, hread, hsync⟩ := h
    · rw [hread] at hresult
      exact hresult
    · rw [hread] at hresult
      have hbehind : SyncResult (answer { new own with recvBuf := first } msg rest)
          (tryDecodeGo 2 (answer { new own with recvBuf := first } msg rest)) .panicked := by
        rw [← hsync]
        exact syncResult rfl 0
      obtain ⟨p, hbehind⟩ := hbehind
      exact ⟨p, hresult.trans hbehind⟩
  obtain ⟨p, hpanic⟩ := hpanic
  show seenBy (drive (Driven.give ⟨some (new own), [], []⟩ (.data first)) ops) = _
  rw [Driven.give_panic hpanic, drive_ended]
  rfl

/-- Events that are polled before the next piece comes are seen, whatever it is. -/
theorem seen_polled (own : List Multiaddr) {first rest : Bytes} {msg : HolePunch}
    (hread : readConnect first = .accepted msg rest)
    (hgood : Good (.accepted msg rest)) (second : Bytes) :
    (seen own [.feed first, .poll, .poll, .poll, .feed second]).events ≠ [] := by
  have hshows : Shows (own.map encodeMultiaddr) (drive (.start (new own)) [.feed first])
      (.accepted msg rest) := by
    rw [← hread] at hgood ⊢
    exact @Shows.run _ _ _ _ [.feed first] (.waiting []) hgood
  have hpolled : (seenBy (drive (.start (new own)) [.feed first])).events ≠ [] := by
    rw [hshows.seenBy_eq]
    exact events_seenBehind _ _ _
  have hprefix := Driven.outputs_prefix_polls
    (Driven.give ((drive (.start (new own)) [.feed first]).polls 3) (.data second)) 3
  rw [Driven.outputs_give] at hprefix
  obtain ⟨more, hmore⟩ := hprefix
  have hseen : (seen own [.feed first, .poll, .poll, .poll, .feed second]).events =
      eventsOf (Driven.polls (Driven.give (Driven.polls (drive (.start (new own)) [.feed first]) 3)
        (.data second)) 3).outputs := rfl
  rw [hseen, ← hmore, eventsOf, List.filterMap_append]
  exact List.append_ne_nil_of_left_ne_nil hpolled _

end DcutrResponder

/-- The bytes begin with a CONNECT frame, or with a length that overflows. -/
def ConnectFront (front : Bytes) : Prop :=
  Wire.HugePrefix front ∨ ∃ payload consumed msg,
    decodeFrame front = .ok (.complete payload consumed) ∧
      (HolePunch.decode payload).run = .ok (.ok msg) ∧ msg.kind = .connect

/-- The bytes begin with a CONNECT frame, and those behind it with a length that overflows. -/
def ConnectOverflow (stream : Bytes) : Prop :=
  ∃ payload consumed msg, decodeFrame stream = .ok (.complete payload consumed) ∧
    (HolePunch.decode payload).run = .ok (.ok msg) ∧ msg.kind = .connect ∧
      Wire.HugePrefix (stream.drop consumed)

omit [MultihashCodec] in
theorem isSome_acceptConnect (msg : HolePunch) :
    (acceptConnect msg).isSome ↔ msg.kind = .connect := by
  rw [acceptConnect]
  split <;> simp_all

omit [MultihashCodec] in
theorem passed_readConnect_iff {front : Bytes} (hlen : front.length ≤ maxMessageSize) :
    (readConnect front).Passed ↔ ConnectFront front := by
  refine (Front.passed_read_iff (fun payload hpayload => ?_) hlen).trans ?_
  · exact (HolePunch.decode_safe (Nat.lt_of_le_of_lt hpayload maxMessageSize_lt)).returns
  · simp only [isSome_acceptConnect]
    rfl

omit [MultihashCodec] in
theorem readSync_eq_panicked_iff {rest : Bytes} (hlen : rest.length ≤ maxMessageSize) :
    readSync rest = .panicked ↔ Wire.HugePrefix rest := by
  have hiff := @returns_receiveHolePunch_iff rest
  rw [DecodeOverflows, and_iff_right hlen] at hiff
  rw [← not_iff_not, ← hiff, readSync, Front.read]
  cases receiveHolePunch rest with
  | error p => simpa using Exec.not_returns_error p
  | ok received =>
    refine iff_of_true ?_ (Exec.returns_ok _)
    cases received with
    | incomplete | failed => rintro ⟨⟩
    | message msg rest =>
      dsimp only
      cases acceptSync msg <;> rintro ⟨⟩

omit [MultihashCodec] in
/-- A CONNECT frame is accepted, with the bytes behind it. -/
theorem readConnect_frame {front payload : Bytes} {consumed : ℕ} {msg : HolePunch}
    (hlen : front.length ≤ maxMessageSize)
    (hframe : decodeFrame front = .ok (.complete payload consumed))
    (hmsg : (HolePunch.decode payload).run = .ok (.ok msg)) (hkind : msg.kind = .connect) :
    readConnect front = .accepted msg (front.drop consumed) := by
  have hreceive : receiveHolePunch front = .ok (.message msg (front.drop consumed)) := by
    rw [decodeFrame] at hframe
    rw [receiveHolePunch, Wire.receive, if_neg (by omega), hframe]
    show ((HolePunch.decode payload).run >>= _) = _
    rw [hmsg]
    show (Exec.drain front consumed >>= _) = _
    rw [Exec.drain_eq_ok (Wire.decodeFrame_complete hframe).1]
    rfl
  rw [readConnect, Front.read, hreceive]
  simp only [acceptConnect, if_pos hkind]

namespace DcutrResponder

omit [MultihashCodec] in
/-- A stream that is settled leads to the same place in whatever pieces it comes. -/
theorem run_settled {stream : Bytes}
    (h : stream.length ≤ maxMessageSize ∧ ¬ ConnectOverflow stream ∨
      maxMessageSize < stream.length ∧ ¬ ConnectFront (stream.take maxMessageSize)) :
    ∃ front, Good front ∧ ∀ pieces : List Bytes, pieces.flatten = stream →
      Front.run receiveHolePunch acceptConnect (.waiting []) pieces = front := by
  have hnew : readConnect [] = .waiting [] := Front.read_nil receiveHolePunch_bounded
  rw [← hnew]
  obtain ⟨hlen, hoverflow⟩ | ⟨hlen, hfront⟩ := h
  · refine ⟨readConnect stream, ?_, ?_⟩
    · intro msg rest hread
      obtain ⟨hreceive, hkind⟩ := receive_of_readConnect hread
      obtain ⟨payload, consumed, -, hframe, hmsg, rfl⟩ := Wire.receive_eq_message hreceive
      have hrest : (stream.drop consumed).length ≤ maxMessageSize := by
        rw [List.length_drop]
        omega
      refine ⟨hrest, fun hpanic => hoverflow ?_⟩
      exact ⟨payload, consumed, msg, hframe, hmsg, hkind,
        (readSync_eq_panicked_iff hrest).mp hpanic⟩
    · rintro pieces rfl
      exact Front.run_read receiveHolePunch_bounded pieces hlen
  · refine ⟨.failed, by rintro _ _ ⟨⟩, ?_⟩
    rintro pieces rfl
    rw [← passed_readConnect_iff (List.length_take_le _ _)] at hfront
    exact Front.run_tooLarge receiveHolePunch_bounded pieces (Nat.zero_le _) hlen hfront

/-- Behind a CONNECT frame the responder panics on a length that overflows, and the events of the
CONNECT are lost unless they were polled before. -/
theorem seen_ne_of_overflow (own : List Multiaddr) {stream : Bytes}
    (hlen : stream.length ≤ maxMessageSize) (h : ConnectOverflow stream) :
    ∃ ops₁ ops₂, Chunking.fed ops₁ = stream ∧ Chunking.fed ops₂ = stream ∧
      seen own ops₁ ≠ seen own ops₂ := by
  obtain ⟨payload, consumed, msg, hframe, hmsg, hkind, huge⟩ := h
  have hrest : (stream.drop consumed).length ≤ maxMessageSize := by
    rw [List.length_drop]
    omega
  have hwhole := readConnect_frame hlen hframe hmsg hkind
  have hpanicked := seen_panicked own
    (.inr ⟨msg, _, hwhole, (readSync_eq_panicked_iff hrest).mpr huge⟩) []
  have hcut : readConnect (stream.take consumed) = .accepted msg [] := by
    have hread := readConnect_frame (Nat.le_trans (List.length_take_le' _ _) hlen)
      (Wire.decodeFrame_take hframe) hmsg hkind
    rwa [List.drop_eq_nil_of_le (List.length_take_le _ _)] at hread
  have hevents := seen_polled own hcut
    (by rintro _ _ ⟨⟩; exact ⟨Nat.zero_le _, by rintro ⟨⟩⟩) (stream.drop consumed)
  refine ⟨[.feed stream], [.feed (stream.take consumed), .poll, .poll, .poll,
    .feed (stream.drop consumed)], List.append_nil _, ?_, ?_⟩
  · simp [Chunking.fed]
  · intro heq
    rw [← heq, hpanicked] at hevents
    exact hevents rfl

/-- A stream over the limit fails at once in one piece, and does not when it is cut at the limit
and begins with a CONNECT frame. -/
theorem seen_ne_of_tooLarge (own : List Multiaddr) {stream : Bytes}
    (hlen : maxMessageSize < stream.length) (h : ConnectFront (stream.take maxMessageSize)) :
    ∃ ops₁ ops₂, Chunking.fed ops₁ = stream ∧ Chunking.fed ops₂ = stream ∧
      seen own ops₁ ≠ seen own ops₂ := by
  have hwhole : seen own [.feed stream] = ⟨[], [], true, false⟩ := by
    have hfailed : Front.run receiveHolePunch acceptConnect (.waiting [])
        (Chunking.pieces [.feed stream]) = .failed :=
      Front.read_tooLarge receiveHolePunch_bounded hlen
    rw [seen_eq (by rw [hfailed]; rintro _ _ ⟨⟩), hfailed]
    rfl
  refine ⟨[.feed stream], [.feed (stream.take maxMessageSize), .poll, .poll, .poll,
    .feed (stream.drop maxMessageSize)], List.append_nil _, ?_, ?_⟩
  · simp [Chunking.fed]
  intro heq
  rw [hwhole] at heq
  rw [← passed_readConnect_iff (List.length_take_le _ _)] at h
  by_cases hpanicked : readConnect (stream.take maxMessageSize) = .panicked ∨ ∃ msg rest,
      readConnect (stream.take maxMessageSize) = .accepted msg rest ∧ readSync rest = .panicked
  · rw [seen_panicked own hpanicked] at heq
    cases congrArg Seen.panicked heq
  · cases hread : readConnect (stream.take maxMessageSize) with
    | waiting | failed =>
      rw [hread] at h
      exact h
    | panicked => exact hpanicked (.inl hread)
    | accepted msg rest =>
      refine seen_polled own hread ?_ _ (congrArg Seen.events heq).symm
      rintro msg rest ⟨⟩
      obtain ⟨hreceive, -⟩ := receive_of_readConnect hread
      obtain ⟨payload, consumed, htake, -, -, rfl⟩ := Wire.receive_eq_message hreceive
      refine ⟨?_, fun hsync => hpanicked (.inr ⟨msg, _, hread, hsync⟩)⟩
      rw [List.length_drop]
      omega

/-- The responder shows its caller the same of all ways to cut and poll a stream exactly if the
stream is within the size limit and no CONNECT in it is followed by a length that overflows, or it
is over the limit and there is no CONNECT within the limit. -/
theorem packetisation_iff (ownAddrs : List Multiaddr) (stream : Bytes) :
    (∀ ops₁ ops₂, Chunking.fed ops₁ = stream → Chunking.fed ops₂ = stream →
      seen ownAddrs ops₁ = seen ownAddrs ops₂) ↔
    stream.length ≤ maxMessageSize ∧ ¬ ConnectOverflow stream ∨
      maxMessageSize < stream.length ∧ ¬ ConnectFront (stream.take maxMessageSize) := by
  constructor
  · intro hsame
    have hno : ¬ ∃ ops₁ ops₂, Chunking.fed ops₁ = stream ∧ Chunking.fed ops₂ = stream ∧
        seen ownAddrs ops₁ ≠ seen ownAddrs ops₂ := by
      rintro ⟨ops₁, ops₂, h₁, h₂, hne⟩
      exact hne (hsame ops₁ ops₂ h₁ h₂)
    obtain hlen | hlen := Nat.lt_or_ge maxMessageSize stream.length
    · exact .inr ⟨hlen, fun h => hno (seen_ne_of_tooLarge ownAddrs hlen h)⟩
    · exact .inl ⟨hlen, fun h => hno (seen_ne_of_overflow ownAddrs hlen h)⟩
  · intro hsettled ops₁ ops₂ h₁ h₂
    obtain ⟨front, hgood, hfront⟩ := run_settled hsettled
    have hrun : ∀ ops, Chunking.fed ops = stream → seen ownAddrs ops =
        seenAt (ownAddrs.map encodeMultiaddr) front := by
      intro ops hops
      have hpieces := hfront (Chunking.pieces ops) (by rw [Chunking.flatten_pieces, hops])
      rw [seen_eq (by rwa [hpieces]), hpieces]
    rw [hrun ops₁ h₁, hrun ops₂ h₂]

/-- A CONNECT within the limit is accepted on its own, and so is the SYNC that comes next. -/
theorem failed_of_cut {msg : HolePunch} (hkind : msg.kind = .connect)
    (hlen : (encodeFrame msg.encode).length ≤ maxMessageSize) :
    (seen [] [.feed (encodeFrame msg.encode), .feed syncFrame]).failed = false := by
  have hconnect : readConnect (encodeFrame msg.encode) = .accepted msg [] := by
    have hreceive := @receiveHolePunch_frame msg [] (by rwa [List.append_nil])
    rw [List.append_nil] at hreceive
    rw [readConnect, Front.read, hreceive]
    simp only [acceptConnect, if_pos hkind]
  have hsync : readSync ([] ++ syncFrame) = .accepted () [] := by rfl
  have hrun : Front.run receiveHolePunch acceptConnect (.waiting [])
      (Chunking.pieces [.feed (encodeFrame msg.encode), .feed syncFrame]) =
        .accepted msg ([] ++ syncFrame) := by
    show Front.feed _ _ (readConnect _) _ = _
    rw [List.nil_append, hconnect]
    rfl
  have hgood : Good (.accepted msg ([] ++ syncFrame)) := by
    rintro _ _ ⟨⟩
    refine ⟨by decide, ?_⟩
    rw [hsync]
    rintro ⟨⟩
  rw [seen_eq (by rwa [hrun]), hrun, seenAt, hsync]
  rfl

/-- In one piece they are too large if they are together. -/
theorem failed_of_whole {msg : HolePunch}
    (hlen : maxMessageSize < (encodeFrame msg.encode ++ syncFrame).length) :
    (seen [] [.feed (encodeFrame msg.encode ++ syncFrame)]).failed = true := by
  have hfailed : Front.run receiveHolePunch acceptConnect (.waiting [])
      (Chunking.pieces [.feed (encodeFrame msg.encode ++ syncFrame)]) = .failed :=
    Front.read_tooLarge receiveHolePunch_bounded hlen
  rw [seen_eq (by rw [hfailed]; rintro _ _ ⟨⟩), hfailed]
  rfl

omit [MultihashCodec] in
/-- A CONNECT whose frame is as long as the limit allows. -/
theorem length_largestConnect {addr : Bytes} (hlen : addr.length = 4089) :
    (encodeFrame (HolePunch.encode ⟨.connect, [addr]⟩)).length = maxMessageSize := by
  have hkind : (writeUvarint HolePunchType.connect.toU64).length = 1 := by decide
  have haddr : (writeUvarint (UInt64.ofNat addr.length)).length = 2 := by
    rw [hlen]
    decide
  have hpayload : (HolePunch.encode ⟨.connect, [addr]⟩).length = 4094 := by
    rw [HolePunch.encode, List.flatMap_cons, List.flatMap_nil, List.append_nil, List.length_append,
      List.length_cons, List.length_cons, List.length_append, hkind, haddr, hlen]
  have hprefix : (writeUvarint (UInt64.ofNat 4094)).length = 2 := by decide
  rw [encodeFrame, Wire.length_encodeFrame, hpayload, hprefix]
  rfl

omit [MultihashCodec] in
theorem pipelined_connect_sync_too_large :
    letI := multihashCodec
    ¬ ∀ ops₁ ops₂,
      Chunking.fed ops₁ =
        encodeFrame (HolePunch.encode ⟨.connect, [List.replicate 4089 0]⟩) ++ syncFrame →
      Chunking.fed ops₂ =
        encodeFrame (HolePunch.encode ⟨.connect, [List.replicate 4089 0]⟩) ++ syncFrame →
      seen [] ops₁ = seen [] ops₂ := by
  let codec := multihashCodec
  intro hsame
  have hlen := length_largestConnect (@List.length_replicate UInt8 4089 0)
  generalize List.replicate 4089 (0 : UInt8) = addr at hsame hlen
  have hlong : maxMessageSize <
      (encodeFrame (HolePunch.encode ⟨.connect, [addr]⟩) ++ syncFrame).length := by
    rw [List.length_append, hlen]
    exact (by decide : maxMessageSize < maxMessageSize + syncFrame.length)
  have heq := hsame [.feed (encodeFrame (HolePunch.encode ⟨.connect, [addr]⟩) ++ syncFrame)]
    [.feed (encodeFrame (HolePunch.encode ⟨.connect, [addr]⟩)), .feed syncFrame]
    (List.append_nil _) (by rw [Chunking.fed, Chunking.fed, Chunking.fed, List.append_nil])
  have hfailed := congrArg Seen.failed heq
  rw [failed_of_whole hlong, failed_of_cut rfl hlen.le] at hfailed
  cases hfailed

end DcutrResponder

end

end Minip2p.Dcutr
