import Mathlib.Data.List.Forall2
import Minip2p.Lib.Chunking
import Minip2p.Core.MultiaddrTheorems
import Minip2p.Core.SansIo
import Minip2p.Identify.Protocol
import Minip2p.Identify.RoundTrip

/-!
# An identify exchange

What a responder sends on its stream reaches an initiator in pieces, and the initiator may be
polled between them. Until the remote closes its write side the initiator only buffers; then it
decodes the frame and has one event and one action to give out.
-/

namespace Minip2p.Identify

open SansIoProtocol (Call Reply outputs errors)

variable [MultihashCodec]

namespace IdentifyProtocol

instance sansIo : SansIoProtocol IdentifyProtocol IdentifyInput IdentifyOutput IdentifyError :=
  ⟨fun identify input => .ok (identify.handleInput input), pollOutput⟩

/-- An initiator stream that is registered and has received `buf`. -/
def Buffers (identify : IdentifyProtocol) (p : PeerId) (t : StreamId) (buf : Bytes) : Prop :=
  ∃ state, identify.peers[p]? = some state ∧ state.inboundStreams[t]? = some buf

end IdentifyProtocol

/-- The action of an output. -/
def IdentifyOutput.action? : IdentifyOutput → Option IdentifyAction
  | action a => some a
  | event _ => none

/-- The event of an output. -/
def IdentifyOutput.event? : IdentifyOutput → Option IdentifyEvent
  | event e => some e
  | action _ => none

/-- The actions and events that a run gave out, with those that are still to be polled. -/
def emitted (identify : IdentifyProtocol) (replies : List (Reply IdentifyOutput IdentifyError)) :
    List IdentifyAction × List IdentifyEvent :=
  ((outputs replies).filterMap IdentifyOutput.action? ++ identify.actions,
    (outputs replies).filterMap IdentifyOutput.event? ++ identify.events)

/-- What a driver does with the stream `t` of the peer `p`. -/
def streamCall (p : PeerId) (t : StreamId) : Chunking.Op UInt8 → Call IdentifyInput
  | .feed piece => .handleInput (.streamData p t piece)
  | .poll => .pollOutput

namespace IdentifyProtocol

variable {identify : IdentifyProtocol} {p : PeerId} {t : StreamId} {buf : Bytes}

/-- Data is buffered as long as it fits. -/
theorem handleInput_streamData (h : identify.Buffers p t buf) {piece : Bytes}
    (hlen : (buf ++ piece).length ≤ maxMessageSize) :
    ∃ identify', identify.handleInput (.streamData p t piece) = (identify', .ok ()) ∧
      identify'.Buffers p t (buf ++ piece) ∧ identify'.actions = identify.actions ∧
      identify'.events = identify.events := by
  obtain ⟨state, hstate, hbuf⟩ := h
  have hdata : identify.onStreamData p t piece = (identify.setPeer p
      { state with inboundStreams := state.inboundStreams.insert t (buf ++ piece) }, []) := by
    simp only [onStreamData, hstate, hbuf, if_neg (Nat.not_lt.mpr hlen)]
  have hinput : identify.handleInput (.streamData p t piece) = ((identify.setPeer p
      { state with
        inboundStreams := state.inboundStreams.insert t (buf ++ piece) }).pushActions [],
      .ok ()) := by
    rw [handleInput, hdata]
    rfl
  have hstream : (state.inboundStreams.insert t (buf ++ piece))[t]? = some (buf ++ piece) :=
    BTreeMap.getElem?_insert_eq_some_iff.mpr (.inl ⟨rfl, rfl⟩)
  exact ⟨_, hinput, ⟨_, BTreeMap.getElem?_insert_eq_some_iff.mpr (.inl ⟨rfl, rfl⟩), hstream⟩,
    List.append_nil _, rfl⟩

/-- The end of the stream is answered with the message and the end of our side. -/
theorem handleInput_remoteWriteClosed (h : identify.Buffers p t buf) :
    ∃ identify', identify.handleInput (.streamRemoteWriteClosed p t) = (identify', .ok ()) ∧
      identify'.actions = identify.actions ++ [.closeStreamWrite p t] ∧
      identify'.events = identify.events ++ [receivedEvent p t buf] := by
  obtain ⟨state, hstate, hbuf⟩ := h
  have hclosed : identify.onStreamRemoteWriteClosed p t =
      ((identify.setPeer p
          { state with inboundStreams := state.inboundStreams.erase t }).pushEvent
        (receivedEvent p t buf), [.closeStreamWrite p t]) := by
    simp only [onStreamRemoteWriteClosed, hstate, hbuf]
  have hinput : identify.handleInput (.streamRemoteWriteClosed p t) =
      (((identify.setPeer p
          { state with inboundStreams := state.inboundStreams.erase t }).pushEvent
        (receivedEvent p t buf)).pushActions [.closeStreamWrite p t], .ok ()) := by
    rw [handleInput, hclosed]
    rfl
  exact ⟨_, hinput, rfl, rfl⟩

omit [MultihashCodec] in
/-- Polling takes an output off the queues and leaves the streams alone. -/
theorem pollOutput_spec (identify : IdentifyProtocol) :
    identify.pollOutput.2.toList.filterMap IdentifyOutput.action? ++
        identify.pollOutput.1.actions = identify.actions ∧
      identify.pollOutput.2.toList.filterMap IdentifyOutput.event? ++
        identify.pollOutput.1.events = identify.events ∧
      identify.pollOutput.1.peers = identify.peers := by
  obtain ⟨peers, events, actions, config⟩ := identify
  cases actions with
  | cons action actions => exact ⟨rfl, rfl, rfl⟩
  | nil =>
    cases events with
    | cons event events => exact ⟨rfl, rfl, rfl⟩
    | nil => exact ⟨rfl, rfl, rfl⟩

end IdentifyProtocol

open IdentifyProtocol

variable {identify : IdentifyProtocol} {p : PeerId} {t : StreamId} {buf : Bytes}

omit [MultihashCodec] in
/-- What a poll hands out is emitted either way. -/
theorem emitted_polled (replies : List (Reply IdentifyOutput IdentifyError))
    {identify' : IdentifyProtocol}
    (h : emitted identify' replies =
      (identify.pollOutput.1.actions, identify.pollOutput.1.events)) :
    emitted identify' (.polled identify.pollOutput.2 :: replies) =
      (identify.actions, identify.events) := by
  obtain ⟨hactions, hevents, -⟩ := identify.pollOutput_spec
  obtain ⟨ha, he⟩ := Prod.mk.inj h
  have houtputs : outputs (.polled identify.pollOutput.2 :: replies) =
      identify.pollOutput.2.toList ++ outputs replies := by
    cases identify.pollOutput.2 <;> rfl
  rw [emitted, houtputs, List.filterMap_append, List.filterMap_append, List.append_assoc,
    List.append_assoc, ha, he, hactions, hevents]

/-- Until the stream ends, the pieces are collected and nothing new is emitted. -/
theorem run_pieces (h : identify.Buffers p t buf) (ops : List (Chunking.Op UInt8))
    (hlen : (buf ++ Chunking.fed ops).length ≤ maxMessageSize) :
    ∃ identify' replies,
      SansIoProtocol.run identify (ops.map (streamCall p t)) = .ok (identify', replies) ∧
      identify'.Buffers p t (buf ++ Chunking.fed ops) ∧ errors replies = [] ∧
      emitted identify' replies = (identify.actions, identify.events) := by
  induction ops generalizing identify buf with
  | nil =>
    refine ⟨identify, [], rfl, ?_, rfl, rfl⟩
    rw [Chunking.fed, List.append_nil]
    exact h
  | cons op ops ih =>
    cases op with
    | feed piece =>
      rw [Chunking.fed, ← List.append_assoc] at hlen ⊢
      have hpiece : (buf ++ piece).length ≤ maxMessageSize := by
        rw [List.length_append] at hlen
        omega
      obtain ⟨identify₁, hinput, hbuf, hactions, hevents⟩ := handleInput_streamData h hpiece
      obtain ⟨identify', replies, hrun, hbuf', herrors, hemitted⟩ := ih hbuf hlen
      refine ⟨identify', .handled (.ok ()) :: replies, ?_, hbuf', herrors, ?_⟩
      · exact SansIoProtocol.run_handleInput (congrArg Except.ok hinput) hrun
      · rw [hactions, hevents] at hemitted
        exact hemitted
    | poll =>
      obtain ⟨state, hstate, hstream⟩ := h
      have hbuf : identify.pollOutput.1.Buffers p t buf :=
        ⟨state, by rw [identify.pollOutput_spec.2.2]; exact hstate, hstream⟩
      obtain ⟨identify', replies, hrun, hbuf', herrors, hemitted⟩ := ih hbuf hlen
      refine ⟨identify', .polled identify.pollOutput.2 :: replies, ?_, hbuf', herrors, ?_⟩
      · exact SansIoProtocol.run_pollOutput rfl hrun
      · exact emitted_polled replies hemitted

/-- Enough polls hand out all that is queued. -/
theorem run_polls (identify : IdentifyProtocol) {n : ℕ}
    (hn : identify.drainOutputs.1.length ≤ n) :
    ∃ replies, SansIoProtocol.run identify (List.replicate n .pollOutput) =
        .ok (identify.drainOutputs.2, replies) ∧
      errors replies = [] ∧ outputs replies = identify.drainOutputs.1 := by
  induction n generalizing identify with
  | zero =>
    cases hpoll : identify.pollOutput with
    | mk identify' output =>
      cases output with
      | some output =>
        rw [drainOutputs_of_some hpoll] at hn
        cases hn
      | none =>
        obtain ⟨hdrain, rfl⟩ := drainOutputs_of_none hpoll
        rw [hdrain]
        exact ⟨[], rfl, rfl, rfl⟩
  | succ n ih =>
    cases hpoll : identify.pollOutput with
    | mk identify' output =>
      cases output with
      | some output =>
        rw [drainOutputs_of_some hpoll] at hn ⊢
        obtain ⟨replies, hrun, herrors, houtputs⟩ := ih identify' (Nat.le_of_succ_le_succ hn)
        exact ⟨.polled (some output) :: replies, SansIoProtocol.run_pollOutput hpoll hrun, herrors,
          congrArg (output :: ·) houtputs⟩
      | none =>
        obtain ⟨hdrain, rfl⟩ := drainOutputs_of_none hpoll
        obtain ⟨replies, hrun, herrors, houtputs⟩ := ih identify' (by rw [hdrain]; exact n.zero_le)
        exact ⟨.polled none :: replies, SansIoProtocol.run_pollOutput hpoll hrun, herrors, houtputs⟩

omit [MultihashCodec] in
/-- What is drained are the actions and the events. -/
theorem filterMap_drainOutputs (identify : IdentifyProtocol) :
    identify.drainOutputs.1.filterMap IdentifyOutput.action? = identify.actions ∧
      identify.drainOutputs.1.filterMap IdentifyOutput.event? = identify.events := by
  have hevent : IdentifyOutput.action? ∘ IdentifyOutput.event = fun _ => none := rfl
  have haction : IdentifyOutput.event? ∘ IdentifyOutput.action = fun _ => none := rfl
  have hactions : IdentifyOutput.action? ∘ IdentifyOutput.action = some := rfl
  have hevents : IdentifyOutput.event? ∘ IdentifyOutput.event = some := rfl
  constructor
  · rw [drainOutputs, List.filterMap_append, List.filterMap_map, List.filterMap_map, hactions,
      hevent, List.filterMap_some, List.filterMap_none, List.append_nil]
  · rw [drainOutputs, List.filterMap_append, List.filterMap_map, List.filterMap_map, haction,
      hevents, List.filterMap_some, List.filterMap_none, List.nil_append]

omit [MultihashCodec] in
/-- The message in the frame that a responder sends. -/
theorem receivedEvent_frame (p : PeerId) (t : StreamId) {msg : IdentifyMessage}
    (hlen : (encodeLengthPrefixed msg.encode).length ≤ maxMessageSize) :
    receivedEvent p t (encodeLengthPrefixed msg.encode) = .received p msg := by
  have hsize : maxMessageSize = 8192 := rfl
  have hshort : msg.encode.length < 2 ^ 63 := by
    rw [encodeLengthPrefixed, List.length_append] at hlen
    omega
  have hdecode : decodeLengthPrefixed (encodeLengthPrefixed msg.encode) >>=
      IdentifyMessage.decode = .ok msg := by
    rw [decodeLengthPrefixed_encode _ hshort]
    exact msg.decode_encode hshort
  rw [receivedEvent, hdecode]

omit [MultihashCodec] in
/-- The addresses of a message fit into its encoding. -/
theorem length_le_encode {msg : IdentifyMessage} {addr : Bytes}
    (h : addr ∈ msg.listenAddrs ∨ addr ∈ msg.observedAddr) :
    addr.length ≤ msg.encode.length := by
  have hfield : ∃ field ∈ msg.fields, field.data = addr := by
    rcases h with h | h
    · refine ⟨.listenAddr addr, ?_, rfl⟩
      simp [IdentifyMessage.fields, h]
    · refine ⟨.observedAddr addr, ?_, rfl⟩
      simp [IdentifyMessage.fields, Option.mem_def.mp h]
  obtain ⟨field, hmem, rfl⟩ := hfield
  have hsub : field.encode.length ≤ (msg.fields.flatMap Field.encode).length := by
    obtain ⟨before, after, hsplit⟩ := List.append_of_mem hmem
    rw [hsplit, List.flatMap_append, List.flatMap_cons, List.length_append, List.length_append]
    omega
  have hdata : field.data.length ≤ field.encode.length := by
    rw [Field.encode, encodeBytesField, List.length_append]
    omega
  rw [msg.encode_eq]
  omega

/-- What a responder sends reaches an initiator however the stream is cut and wherever the initiator
is polled. Once it was polled often enough, what it has handed out is what was queued at first, then
the message once and the end of our side once, and no error; the addresses of the message decode to
those the responder was given. -/
theorem identify_exchange (hcodec : MultihashCodec.Exact) {responder initiator : IdentifyProtocol}
    {q p : PeerId} {u t : StreamId} {observedAddr : Option Multiaddr}
    {listenAddrs : List Multiaddr} (hobserved : ∀ addr ∈ observedAddr, addr.Valid)
    (hlisten : ∀ addr ∈ listenAddrs, addr.Valid) {actions : List IdentifyAction} {data : Bytes}
    (hregister : (responder.registerOutboundStream q u observedAddr listenAddrs).2 = .ok actions)
    (hsend : .send q u data ∈ actions) (hlen : data.length ≤ maxMessageSize)
    (hinitiator : initiator.Buffers p t []) (ops : List (Chunking.Op UInt8))
    (hops : Chunking.fed ops = data) {n : ℕ}
    (hn : initiator.actions.length + initiator.events.length + 2 ≤ n) :
    ∃ initiator' replies info,
      SansIoProtocol.run initiator (ops.map (streamCall p t) ++
        .handleInput (.streamRemoteWriteClosed p t) :: List.replicate n .pollOutput) =
          .ok (initiator', replies) ∧
      initiator'.pollOutput = (initiator', none) ∧ errors replies = [] ∧
      (outputs replies).filterMap IdentifyOutput.action? =
        initiator.actions ++ [.closeStreamWrite p t] ∧
      (outputs replies).filterMap IdentifyOutput.event? =
        initiator.events ++ [.received p info] ∧
      info = localMessage responder.config observedAddr listenAddrs ∧
      List.Forall₂ (fun bytes addr => Yields (Multiaddr.fromBytes bytes) addr)
        info.listenAddrs listenAddrs ∧
      Option.Rel (fun bytes addr => Yields (Multiaddr.fromBytes bytes) addr)
        info.observedAddr observedAddr := by
  have hdata : data = encodeLengthPrefixed
      (localMessage responder.config observedAddr listenAddrs).encode := by
    simp only [registerOutboundStream] at hregister
    split at hregister
    · cases hregister
    · obtain rfl := Except.ok.inj hregister
      simpa using hsend
  have hbytes : ∀ addr : Multiaddr, addr.Valid →
      addr.toBytes ∈ (localMessage responder.config observedAddr listenAddrs).listenAddrs ∨
        addr.toBytes ∈ (localMessage responder.config observedAddr listenAddrs).observedAddr →
      Yields (Multiaddr.fromBytes addr.toBytes) addr := by
    intro addr hvalid hmem
    have hle := length_le_encode hmem
    have hsize : maxMessageSize = 8192 := rfl
    rw [hdata, encodeLengthPrefixed, List.length_append] at hlen
    exact Multiaddr.fromBytes_toBytes hcodec hvalid (by omega)
  have hevent : receivedEvent p t ([] ++ Chunking.fed ops) = .received p
      (localMessage responder.config observedAddr listenAddrs) := by
    rw [List.nil_append, hops, hdata]
    exact receivedEvent_frame p t (by rw [← hdata]; exact hlen)
  obtain ⟨initiator₁, replies₁, hpieces, hbuf, herrors₁, hemitted⟩ :=
    run_pieces hinitiator ops (by rw [hops]; exact hlen)
  obtain ⟨ha, he⟩ := Prod.mk.inj hemitted
  obtain ⟨initiator₂, hclosed, hactions, hevents⟩ := handleInput_remoteWriteClosed hbuf
  -- the pieces have left no more than was queued at first
  have hqueued : initiator₂.drainOutputs.1.length ≤ n := by
    have hla := congrArg List.length ha
    have hle := congrArg List.length he
    rw [List.length_append] at hla hle
    rw [drainOutputs, hactions, hevents, List.length_append, List.length_map, List.length_map,
      List.length_append, List.length_append, List.length_singleton, List.length_singleton]
    omega
  obtain ⟨replies₂, hpolls, herrors₂, houtputs₂⟩ := run_polls initiator₂ hqueued
  obtain ⟨hda, hde⟩ := filterMap_drainOutputs initiator₂
  have houtputs : outputs (replies₁ ++ .handled (.ok ()) :: replies₂) =
      outputs replies₁ ++ initiator₂.drainOutputs.1 := by
    rw [SansIoProtocol.outputs_append, ← houtputs₂]
    rfl
  refine ⟨initiator₂.drainOutputs.2, replies₁ ++ .handled (.ok ()) :: replies₂, _,
    SansIoProtocol.run_append hpieces
      (SansIoProtocol.run_handleInput (congrArg Except.ok hclosed) hpolls), rfl, ?_, ?_, ?_, rfl,
    ?_, ?_⟩
  · rw [SansIoProtocol.errors_append, herrors₁]
    exact herrors₂
  · rw [houtputs, List.filterMap_append, hda, hactions, ← List.append_assoc, ha]
  · rw [houtputs, List.filterMap_append, hde, hevents, hevent, ← List.append_assoc, he]
  · rw [localMessage, List.forall₂_map_left_iff, List.forall₂_same]
    intro addr haddr
    exact hbytes addr (hlisten addr haddr) (.inl (List.mem_map_of_mem haddr))
  · cases observedAddr with
    | none => exact .none
    | some addr => exact .some (hbytes addr (hobserved addr rfl) (.inr rfl))

/-- A configuration with a key of two bytes. -/
def identifyConfig : IdentifyConfig :=
  ⟨"ipfs/0.1.0", "minip2p/0.1.0", [identifyProtocolId], [8, 1]⟩

omit [MultihashCodec] in
theorem identifyPeer_digest_le : ([8, 1] : Bytes).length ≤ 64 := by decide

/-- An identity with an inlined key. -/
def identifyPeer : PeerId := ⟨0x00, [8, 1], identifyPeer_digest_le⟩

/-- What the responder sends with 127.0.0.1 as its listen address. -/
def identifyFrame : Bytes :=
  encodeLengthPrefixed (@localMessage multihashCodec identifyConfig none [loopbackAddr]).encode

/-- What the initiator reads from it. -/
def identifyInfo : IdentifyMessage where
  protocolVersion := some "ipfs/0.1.0"
  agentVersion := some "minip2p/0.1.0"
  publicKey := some [8, 1]
  listenAddrs := [@Multiaddr.toBytes multihashCodec loopbackAddr]
  observedAddr := none
  protocols := [identifyProtocolId]

omit [MultihashCodec] in
theorem identify_exchange_loopback :
    ∃ initiator' replies,
      @SansIoProtocol.run _ _ _ _ (@sansIo multihashCodec)
        ((IdentifyProtocol.new identifyConfig).registerInboundStream identifyPeer ⟨4⟩)
        ([.feed (identifyFrame.take 9), .poll, .feed (identifyFrame.drop 9)].map
          (streamCall identifyPeer ⟨4⟩) ++
          .handleInput (.streamRemoteWriteClosed identifyPeer ⟨4⟩) ::
            List.replicate 2 .pollOutput) = .ok (initiator', replies) ∧
      initiator'.pollOutput = (initiator', none) ∧ errors replies = [] ∧
      (outputs replies).filterMap IdentifyOutput.action? = [.closeStreamWrite identifyPeer ⟨4⟩] ∧
      (outputs replies).filterMap IdentifyOutput.event? =
        [.received identifyPeer identifyInfo] := by
  let codec := multihashCodec
  have hbuffers : ((IdentifyProtocol.new identifyConfig).registerInboundStream identifyPeer
      ⟨4⟩).Buffers identifyPeer ⟨4⟩ [] := by
    refine ⟨_, BTreeMap.getElem?_insert_eq_some_iff.mpr (.inl ⟨rfl, rfl⟩), ?_⟩
    exact BTreeMap.getElem?_insert_eq_some_iff.mpr (.inl ⟨rfl, rfl⟩)
  have hregister : ((IdentifyProtocol.new identifyConfig).registerOutboundStream identifyPeer ⟨0⟩
      none [loopbackAddr]).2 = .ok [.send identifyPeer ⟨0⟩ identifyFrame,
        .closeStreamWrite identifyPeer ⟨0⟩] := rfl
  obtain ⟨initiator', replies, info, hrun, hidle, herrors, hactions, hevents, rfl, -⟩ :=
    identify_exchange multihashCodec_exact (by simp) (by decide) hregister
      List.mem_cons_self (by decide +kernel) hbuffers
      [.feed (identifyFrame.take 9), .poll, .feed (identifyFrame.drop 9)] (by decide +kernel)
      (Nat.le_refl 2)
  exact ⟨initiator', replies, hrun, hidle, herrors, hactions, hevents⟩

end Minip2p.Identify
