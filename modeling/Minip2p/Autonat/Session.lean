import Minip2p.Autonat.RoundTrip
import Minip2p.Lib.Chunking

/-!
# An AutoNAT session

The request of a client reaches a server in pieces, the host of the server answers it, and the
answer reaches the client in pieces. Either flow may be polled at any time. A flow that reads a
frame keeps the part of it that it has (`Asking`, `Probing`); the last byte makes it emit.
-/

namespace Minip2p.Autonat

open SansIoProtocol (Driven)

variable [MultihashCodec]

/-! ## What is sent -/

/-- The request of a client. -/
def dialMessage (peerId : PeerId) (addrs : List Multiaddr) : Message :=
  ⟨.dial, some ⟨some ⟨peerId.toBytes, addrs.map Multiaddr.toBytes⟩⟩, none⟩

/-- The DIAL frame. -/
def dialFrame (peerId : PeerId) (addrs : List Multiaddr) : Bytes :=
  encodeFrame (dialMessage peerId addrs).encode

/-- What the host of a server is asked. -/
def dialRequest (peerId : PeerId) (addrs : List Multiaddr) : AutoNatRequest :=
  ⟨peerId, addrs, addrs.map Multiaddr.toBytes⟩

/-- What the host of a server answers a request with. -/
inductive Response
  | respondPublic (addrs : List Multiaddr)
  | respondError (status : ResponseStatus) (reason : String)

namespace Response

/-- The input by which the host responds. -/
def input : Response → AutoNatServerInput
  | respondPublic addrs => .respondPublic addrs
  | respondError status reason => .respondError status reason

/-- The status that is sent. -/
def status : Response → ResponseStatus
  | respondPublic _ => .ok
  | respondError status _ => status

/-- The text that is sent with it. -/
def reason : Response → Option String
  | respondPublic _ => none
  | respondError _ reason => some reason

/-- The addresses that are sent with it. -/
def addrs : Response → List Multiaddr
  | respondPublic addrs => addrs
  | respondError _ _ => []

/-- The message of a response. -/
def message (response : Response) : Message :=
  ⟨.dialResponse, none,
    some ⟨response.status, response.reason, response.addrs.map Multiaddr.toBytes⟩⟩

/-- The DIAL_RESPONSE frame. -/
def frame (response : Response) : Bytes := encodeFrame response.message.encode

/-- What the response says about the client. -/
def reachability : Response → Reachability
  | respondPublic addrs => .isPublic addrs (addrs.map Multiaddr.toBytes)
  | respondError .ok _ => .isPublic [] []
  | respondError .dialError reason => .isPrivate .dialError reason
  | respondError .dialRefused reason => .isPrivate .dialRefused reason
  | respondError .badRequest reason => .isUnknown .badRequest reason
  | respondError .internalError reason => .isUnknown .internalError reason

end Response

/-! ## The server -/

/-- The addresses of a request are read back. -/
theorem decodeAddrs_dial (hcodec : MultihashCodec.Exact) {peerId : PeerId} {addrs : List Multiaddr}
    (haddrs : ∀ addr ∈ addrs, addr.Valid)
    (hlen : (dialFrame peerId addrs).length ≤ maxMessageSize) :
    decodeAddrs (addrs.map Multiaddr.toBytes) = .ok addrs := by
  refine decodeAddrs_map hcodec fun addr haddr => ⟨haddrs addr haddr, ?_⟩
  let peer : PeerInfo := ⟨peerId.toBytes, addrs.map Multiaddr.toBytes⟩
  let dial : Dial := ⟨some peer⟩
  have hmax : maxMessageSize = 8192 := rfl
  have hmsg := length_payload (dialMessage peerId addrs).encode
  have hdial : dial.encode.length ≤ (dialMessage peerId addrs).encode.length := by
    rw [Message.encode_eq]
    exact Wire.Field.length_le_flatMap_encode (f := MessageField.dial dial)
      (by simp [Message.fields, dialMessage, dial, peer]) rfl
  have hpeer : peer.encode.length ≤ dial.encode.length := by
    rw [Dial.encode_eq]
    exact Wire.Field.length_le_flatMap_encode (f := DialField.peer peer)
      (by simp [Dial.fields, dial]) rfl
  have haddr : addr.toBytes.length ≤ peer.encode.length := by
    rw [PeerInfo.encode_eq]
    exact Wire.Field.length_le_flatMap_encode (f := PeerInfoField.addr addr.toBytes)
      (by simpa [PeerInfo.fields, peer] using ⟨addr, haddr, rfl⟩) rfl
  rw [dialFrame] at hlen
  omega

namespace AutoNatServer

/-- A server with its driver. -/
abbrev Caller := Driven AutoNatServer AutoNatServerOutput AutoNatError

/-- A caller that feeds and polls. -/
def drive (caller : Caller) (ops : List (Chunking.Op UInt8)) : Caller :=
  Chunking.run (fun caller piece => caller.give (.data piece)) Driven.poll caller ops

/-- The outputs that are held. -/
def pending (flow : AutoNatServer) : List AutoNatServerOutput :=
  (bif flow.emittedRequest then [] else (flow.request.map .request).toList) ++
    (if flow.outbound.isEmpty then [] else [.outbound flow.outbound])

/-- Polling hands the queue of a server out in order. -/
theorem queues : Driven.Queues pending where
  first flow := by
    obtain ⟨outbound, recvBuf, request, emittedRequest, state⟩ := flow
    cases emittedRequest <;> cases request <;> cases outbound <;> rfl
  rest flow := by
    obtain ⟨outbound, recvBuf, request, emittedRequest, state⟩ := flow
    cases emittedRequest <;> cases request <;> cases outbound <;> rfl

omit [MultihashCodec] in
/-- A server has at most the request and the response to hand out. -/
theorem length_pending_le (flow : AutoNatServer) : (pending flow).length ≤ 2 := by
  obtain ⟨outbound, recvBuf, request, emittedRequest, state⟩ := flow
  cases emittedRequest <;> cases request <;> cases outbound <;> simp [pending]

/-- A part of the request was read. -/
def listening (got : Bytes) : AutoNatServer := ⟨[], got, none, false, .awaitingRequest⟩

/-- The request was read, and it is handed out or not. -/
def ready (request : AutoNatRequest) (emitted : Bool) : AutoNatServer :=
  ⟨[], [], some request, emitted, .requestReady⟩

variable {peerId : PeerId} {addrs : List Multiaddr}

/-- Bytes that do not complete the request are kept. -/
theorem handleInput_part {got bytes rest : Bytes}
    (hlen : (dialFrame peerId addrs).length ≤ maxMessageSize)
    (hframe : (got ++ bytes) ++ rest = dialFrame peerId addrs) (hrest : rest ≠ []) :
    (listening got).handleInput (.data bytes) = .ok (listening (got ++ bytes), .ok ()) := by
  have hreceive := receive_part hframe hrest hlen
  show (receive (got ++ bytes) >>= _) = _
  rw [hreceive]
  rfl

/-- The last byte makes the request ready. -/
theorem handleInput_request (hcodec : MultihashCodec.Exact) (hpeer : peerId.Valid)
    (haddrs : ∀ addr ∈ addrs, addr.Valid) {got bytes : Bytes}
    (hlen : (dialFrame peerId addrs).length ≤ maxMessageSize)
    (hframe : got ++ bytes = dialFrame peerId addrs) :
    (listening got).handleInput (.data bytes) =
      .ok (ready (dialRequest peerId addrs) false, .ok ()) := by
  have hreceive := receive_frame hlen
  have hid := PeerId.fromBytes_toBytes hcodec hpeer
  have hdecode := decodeAddrs_dial hcodec haddrs hlen
  show (receive (got ++ bytes) >>= _) = _
  rw [hframe, dialFrame, hreceive]
  show requestFrom (listening []) ⟨peerId.toBytes, addrs.map Multiaddr.toBytes⟩ = _
  rw [requestFrom, hid]
  show (decodeAddrs (addrs.map Multiaddr.toBytes) >>= _) = _
  rw [hdecode]
  rfl

/-- Where a driven server stands that has read `got` of the request. -/
inductive Asking (peerId : PeerId) (addrs : List Multiaddr) : Caller → Bytes → Prop
  | listening {got rest : Bytes} (hframe : got ++ rest = dialFrame peerId addrs)
    (hrest : rest ≠ []) : Asking peerId addrs ⟨some (listening got), [], []⟩ got
  | ready (emitted : Bool) : Asking peerId addrs
    ⟨some (ready (dialRequest peerId addrs) emitted),
      bif emitted then [.request (dialRequest peerId addrs)] else [], []⟩ (dialFrame peerId addrs)

namespace Asking

variable {caller : Caller} {got : Bytes}

/-- The next piece of the request. -/
theorem feed (hcodec : MultihashCodec.Exact) (hpeer : peerId.Valid)
    (haddrs : ∀ addr ∈ addrs, addr.Valid)
    (hlen : (dialFrame peerId addrs).length ≤ maxMessageSize) (h : Asking peerId addrs caller got)
    {piece : Bytes} (hpiece : got ++ piece <+: dialFrame peerId addrs) :
    Asking peerId addrs (caller.give (.data piece)) (got ++ piece) := by
  cases h with
  | listening hframe hrest =>
    obtain ⟨more, hmore⟩ := hpiece
    by_cases hnone : more = []
    · rw [hnone, List.append_nil] at hmore
      rw [Driven.give_ok (AutoNatServer.handleInput_request hcodec hpeer haddrs hlen hmore), hmore]
      exact .ready false
    · rw [Driven.give_ok (AutoNatServer.handleInput_part hlen hmore hnone)]
      exact .listening hmore hnone
  | ready emitted =>
    obtain rfl : piece = [] := by
      have hle := hpiece.length_le
      rw [List.length_append] at hle
      exact List.length_eq_zero_iff.mp (by omega)
    rw [List.append_nil]
    exact .ready emitted

/-- A poll while the request comes in. -/
theorem poll (h : Asking peerId addrs caller got) : Asking peerId addrs caller.poll got := by
  cases h with
  | listening hframe hrest => exact .listening hframe hrest
  | ready emitted => cases emitted <;> exact .ready true

/-- Polls while the request comes in. -/
theorem polls (h : Asking peerId addrs caller got) (n : ℕ) :
    Asking peerId addrs (caller.polls n) got := by
  induction n generalizing caller with
  | zero => exact h
  | succ n ih => exact ih h.poll

end Asking

/-- However the request is cut, it is ready in the end. -/
theorem asking_drive (hcodec : MultihashCodec.Exact) (hpeer : peerId.Valid)
    (haddrs : ∀ addr ∈ addrs, addr.Valid)
    (hlen : (dialFrame peerId addrs).length ≤ maxMessageSize) {ops : List (Chunking.Op UInt8)}
    (hops : Chunking.fed ops = dialFrame peerId addrs) :
    Asking peerId addrs (drive (.start new) ops) (dialFrame peerId addrs) := by
  have hstart : Asking peerId addrs (.start new) [] :=
    .listening (List.nil_append _) (Wire.encodeFrame_ne_nil _)
  have hprefix : [] ++ Chunking.fed ops <+: dialFrame peerId addrs := by
    simp only [List.nil_append, hops, List.prefix_rfl]
  have hrun : Asking peerId addrs (drive (.start new) ops) ([] ++ Chunking.fed ops) :=
    Chunking.run_within (fun _ _ _ h hpiece => h.feed hcodec hpeer haddrs hlen hpiece)
      (fun _ _ h => h.poll) hstart ops hprefix
  rw [List.nil_append, hops] at hrun
  exact hrun

/-- A request that was read is handed out or held. -/
theorem Asking.eq_ready {caller : Caller}
    (h : Asking peerId addrs caller (dialFrame peerId addrs)) :
    ∃ emitted, caller = ⟨some (AutoNatServer.ready (dialRequest peerId addrs) emitted),
      bif emitted then [.request (dialRequest peerId addrs)] else [], []⟩ := by
  generalize hgot : dialFrame peerId addrs = got at h
  cases h with
  | listening hframe hrest =>
    rw [← hgot, List.append_right_eq_self] at hframe
    exact absurd hframe hrest
  | ready emitted => exact ⟨emitted, rfl⟩

variable {caller : Caller}

/-- The request is handed out once. -/
theorem gave_request (h : Asking peerId addrs caller (dialFrame peerId addrs)) (n : ℕ) :
    (caller.polls (n + 2)).Gave [.request (dialRequest peerId addrs)] := by
  obtain ⟨emitted, rfl⟩ := h.eq_ready
  refine Driven.gave_polls queues ((length_pending_le _).trans (Nat.le_add_left 2 n)) ?_
  cases emitted <;> rfl

/-- After the host has answered, the response is handed out as well. -/
theorem gave_response (h : Asking peerId addrs caller (dialFrame peerId addrs))
    (response : Response) (n : ℕ) : ((caller.give response.input).polls (n + 2)).Gave
      [.request (dialRequest peerId addrs), .outbound response.frame] := by
  obtain ⟨emitted, rfl⟩ := h.eq_ready
  let flow : AutoNatServer := { ready (dialRequest peerId addrs) emitted with
    outbound := response.frame, state := .done }
  have hinput : (ready (dialRequest peerId addrs) emitted).handleInput response.input =
      .ok (flow, .ok ()) := by
    cases response <;> rfl
  have hframe : response.frame.isEmpty = false :=
    List.isEmpty_eq_false_iff.mpr (Wire.encodeFrame_ne_nil _)
  rw [Driven.give_ok hinput]
  refine Driven.gave_polls queues ((length_pending_le flow).trans (Nat.le_add_left 2 n)) ?_
  cases emitted <;> simp [pending, flow, ready, hframe]

end AutoNatServer

/-! ## The client -/

/-- A response that can be given: its addresses can be built, and it fits into one frame. -/
structure Response.Sendable (response : Response) : Prop where
  valid : ∀ addr ∈ response.addrs, addr.Valid
  fits : response.frame.length ≤ maxMessageSize

/-- The addresses of a response are read back. -/
theorem Response.Sendable.decodeAddrs (hcodec : MultihashCodec.Exact) {response : Response}
    (h : response.Sendable) :
    Autonat.decodeAddrs (response.addrs.map Multiaddr.toBytes) = .ok response.addrs := by
  refine decodeAddrs_map hcodec fun addr haddr => ⟨h.valid addr haddr, ?_⟩
  let body : DialResponse :=
    ⟨response.status, response.reason, response.addrs.map Multiaddr.toBytes⟩
  have hmax : maxMessageSize = 8192 := rfl
  have hfits := h.fits
  have hmsg := length_payload response.message.encode
  have hbody : body.encode.length ≤ response.message.encode.length := by
    rw [Message.encode_eq]
    exact Wire.Field.length_le_flatMap_encode (f := MessageField.dialResponse body)
      (by simp [Message.fields, Response.message, body]) rfl
  have haddr : addr.toBytes.length ≤ body.encode.length := by
    rw [DialResponse.encode_eq]
    exact Wire.Field.length_le_flatMap_encode (f := DialResponseField.addr addr.toBytes)
      (by simpa [DialResponse.fields, body] using ⟨addr, haddr, rfl⟩) rfl
  rw [Response.frame] at hfits
  omega

namespace AutoNatClient

/-- A client with its driver. -/
abbrev Caller := Driven AutoNatClient AutoNatClientOutput AutoNatError

/-- A caller that feeds and polls. -/
def drive (caller : Caller) (ops : List (Chunking.Op UInt8)) : Caller :=
  Chunking.run (fun caller piece => caller.give (.data piece)) Driven.poll caller ops

/-- The outputs that are held. -/
def pending (flow : AutoNatClient) : List AutoNatClientOutput :=
  (if flow.outbound.isEmpty then [] else [.outbound flow.outbound]) ++
    (bif flow.emittedOutcome then [] else (flow.outcome.map .outcome).toList)

/-- Polling hands the queue of a client out in order. -/
theorem queues : Driven.Queues pending where
  first flow := by
    obtain ⟨outbound, recvBuf, state, outcome, emittedOutcome⟩ := flow
    cases outbound <;> cases emittedOutcome <;> cases outcome <;> rfl
  rest flow := by
    obtain ⟨outbound, recvBuf, state, outcome, emittedOutcome⟩ := flow
    cases outbound <;> cases emittedOutcome <;> cases outcome <;> rfl

omit [MultihashCodec] in
/-- A client has at most the request and the outcome to hand out. -/
theorem length_pending_le (flow : AutoNatClient) : (pending flow).length ≤ 2 := by
  obtain ⟨outbound, recvBuf, state, outcome, emittedOutcome⟩ := flow
  cases outbound <;> cases emittedOutcome <;> cases outcome <;> simp [pending]

/-- The request is sent or not, and a part of the response was read. -/
def waiting (peerId : PeerId) (addrs : List Multiaddr) (sent : Bool) (got : Bytes) :
    AutoNatClient :=
  ⟨bif sent then [] else dialFrame peerId addrs, got,
    bif sent then .awaitingResponse else .pending, none, false⟩

variable {peerId : PeerId} {addrs : List Multiaddr} {response : Response}

/-- Bytes that do not complete the response are kept. -/
theorem handleInput_part (h : response.Sendable) {sent : Bool} {got bytes rest : Bytes}
    (hframe : (got ++ bytes) ++ rest = response.frame) (hrest : rest ≠ []) :
    (waiting peerId addrs sent got).handleInput (.data bytes) =
      .ok (waiting peerId addrs sent (got ++ bytes), .ok ()) := by
  have hreceive := receive_part hframe hrest h.fits
  have hdata : (waiting peerId addrs sent got).onData bytes =
      (waiting peerId addrs sent (got ++ bytes)).tryDecodeResponse := by
    cases sent <;> rfl
  rw [handleInput, hdata]
  show (receive (got ++ bytes) >>= _) = _
  rw [hreceive]
  rfl

/-- The client makes of a response what the host meant by it. -/
theorem outcomeOf_response (hcodec : MultihashCodec.Exact) (h : response.Sendable) :
    outcomeOf ⟨response.status, response.reason, response.addrs.map Multiaddr.toBytes⟩ =
      .ok response.reachability := by
  cases response with
  | respondPublic addrs =>
    have hdecode : decodeAddrs (addrs.map Multiaddr.toBytes) = .ok addrs := h.decodeAddrs hcodec
    show (decodeAddrs (addrs.map Multiaddr.toBytes) >>= _) = _
    rw [hdecode]
    rfl
  | respondError status reason => cases status <;> rfl

/-- The last byte of the response gives the outcome. -/
theorem handleInput_response (hcodec : MultihashCodec.Exact) (h : response.Sendable) {sent : Bool}
    {got bytes : Bytes} (hframe : got ++ bytes = response.frame) :
    (waiting peerId addrs sent got).handleInput (.data bytes) =
      .ok ({ waiting peerId addrs sent [] with
        state := .done, outcome := some response.reachability }, .ok ()) := by
  have hreceive := receive_frame h.fits
  have houtcome := outcomeOf_response hcodec h
  have hdata : (waiting peerId addrs sent got).onData bytes =
      (waiting peerId addrs sent (got ++ bytes)).tryDecodeResponse := by
    cases sent <;> rfl
  rw [handleInput, hdata]
  show (receive (got ++ bytes) >>= _) = _
  rw [hframe, Response.frame, hreceive]
  show (outcomeOf _ >>= _) = _
  rw [houtcome]
  rfl

omit [MultihashCodec] in
theorem state_pollOutput {flow : AutoNatClient} (h : flow.state = .done) :
    flow.pollOutput.1.state = .done := by
  obtain ⟨outbound, recvBuf, state, outcome, emittedOutcome⟩ := flow
  obtain rfl : state = .done := h
  cases outbound <;> cases emittedOutcome <;> cases outcome <;> rfl

/-- Where a driven client stands that has read `got` of the response. -/
inductive Probing (peerId : PeerId) (addrs : List Multiaddr) (response : Response) :
    Caller → Bytes → Prop
  | waiting (sent : Bool) {got rest : Bytes} (hframe : got ++ rest = response.frame)
    (hrest : rest ≠ []) : Probing peerId addrs response
      ⟨some (waiting peerId addrs sent got),
        bif sent then [.outbound (dialFrame peerId addrs)] else [], []⟩ got
  | told {flow : AutoNatClient} {outputs : List AutoNatClientOutput} (hstate : flow.state = .done)
    (hall : outputs ++ pending flow =
      [.outbound (dialFrame peerId addrs), .outcome response.reachability]) :
    Probing peerId addrs response ⟨some flow, outputs, []⟩ response.frame

namespace Probing

variable {caller : Caller} {got : Bytes}

/-- The next piece of the response. -/
theorem feed (hcodec : MultihashCodec.Exact) (hresponse : response.Sendable)
    (h : Probing peerId addrs response caller got) {piece : Bytes}
    (hpiece : got ++ piece <+: response.frame) :
    Probing peerId addrs response (caller.give (.data piece)) (got ++ piece) := by
  cases h with
  | waiting sent hframe hrest =>
    obtain ⟨more, hmore⟩ := hpiece
    by_cases hnone : more = []
    · rw [hnone, List.append_nil] at hmore
      rw [Driven.give_ok (AutoNatClient.handleInput_response hcodec hresponse hmore), hmore]
      have hdial : (dialFrame peerId addrs).isEmpty = false :=
        List.isEmpty_eq_false_iff.mpr (Wire.encodeFrame_ne_nil _)
      refine .told rfl ?_
      cases sent <;> simp [pending, AutoNatClient.waiting, hdial]
    · rw [Driven.give_ok (AutoNatClient.handleInput_part hresponse hmore hnone)]
      exact .waiting sent hmore hnone
  | @told flow outputs hstate hall =>
    obtain rfl : piece = [] := by
      have hle := hpiece.length_le
      rw [List.length_append] at hle
      exact List.length_eq_zero_iff.mp (by omega)
    have hinput : flow.handleInput (.data []) = .ok (flow, .ok ()) := if_pos hstate
    rw [List.append_nil, Driven.give_ok hinput]
    exact .told hstate hall

/-- A poll while the response comes in. -/
theorem poll (h : Probing peerId addrs response caller got) :
    Probing peerId addrs response caller.poll got := by
  cases h with
  | waiting sent hframe hrest =>
    cases sent with
    | true => exact .waiting true hframe hrest
    | false =>
      -- the first poll hands out the request
      have hpoll : (AutoNatClient.waiting peerId addrs false got).pollOutput =
          (AutoNatClient.waiting peerId addrs true got,
            some (.outbound (dialFrame peerId addrs))) := by
        have hdial : (dialFrame peerId addrs).isEmpty = false :=
          List.isEmpty_eq_false_iff.mpr (Wire.encodeFrame_ne_nil _)
        show (if !(dialFrame peerId addrs).isEmpty then _ else _) = _
        rw [hdial]
        rfl
      rw [Driven.poll_some]
      show Probing peerId addrs response ⟨some (pollOutput _).1, [] ++ (pollOutput _).2.toList, []⟩
        got
      rw [hpoll]
      exact .waiting true hframe hrest
  | @told flow outputs hstate hall =>
    refine .told (state_pollOutput hstate) ?_
    rw [← hall]
    exact Driven.all_poll queues ⟨some flow, outputs, []⟩

end Probing

/-- However the response is cut, the outcome is there in the end. -/
theorem probing_drive (hcodec : MultihashCodec.Exact) (h : response.Sendable)
    {ops : List (Chunking.Op UInt8)} (hops : Chunking.fed ops = response.frame) :
    Probing peerId addrs response (drive (.start (new peerId addrs)) ops) response.frame := by
  have hstart : Probing peerId addrs response (.start (new peerId addrs)) [] :=
    .waiting false (List.nil_append _) (Wire.encodeFrame_ne_nil _)
  have hprefix : [] ++ Chunking.fed ops <+: response.frame := by
    simp only [List.nil_append, hops, List.prefix_rfl]
  have hrun : Probing peerId addrs response (drive (.start (new peerId addrs)) ops)
      ([] ++ Chunking.fed ops) :=
    Chunking.run_within (fun _ _ _ hprobing hpiece => hprobing.feed hcodec h hpiece)
      (fun _ _ hprobing => hprobing.poll) hstart ops hprefix
  rw [List.nil_append, hops] at hrun
  exact hrun

/-- The request and the outcome are handed out once. -/
theorem gave_outcome {caller : Caller}
    (h : Probing peerId addrs response caller response.frame) (n : ℕ) :
    (caller.polls (n + 2)).Gave
      [.outbound (dialFrame peerId addrs), .outcome response.reachability] := by
  generalize hgot : response.frame = got at h
  cases h with
  | waiting sent hframe hrest =>
    rw [← hgot, List.append_right_eq_self] at hframe
    exact absurd hframe hrest
  | told hstate hall =>
    exact Driven.gave_polls queues ((length_pending_le _).trans (Nat.le_add_left 2 n)) hall

end AutoNatClient

/-! ## Sessions -/

/-- However the request and the response are cut and wherever the flows are polled, the server hands
out the request of the client once and then, when its host has answered, the response; the client
hands out its request and what the response says about it, once. No input fails. -/
theorem autonat_session (hcodec : MultihashCodec.Exact) {peerId : PeerId} (hpeer : peerId.Valid)
    {addrs : List Multiaddr} (haddrs : ∀ addr ∈ addrs, addr.Valid)
    (hlen : (dialFrame peerId addrs).length ≤ maxMessageSize)
    {requestOps : List (Chunking.Op UInt8)}
    (hrequest : Chunking.fed requestOps = dialFrame peerId addrs) {response : Response}
    (hsendable : response.Sendable) {responseOps : List (Chunking.Op UInt8)}
    (hresponse : Chunking.fed responseOps = response.frame) (n : ℕ) :
    ((AutoNatServer.drive (.start .new) requestOps).polls (n + 2)).Gave
        [.request ⟨peerId, addrs, addrs.map Multiaddr.toBytes⟩] ∧
      ((((AutoNatServer.drive (.start .new) requestOps).polls (n + 2)).give
        response.input).polls (n + 2)).Gave
        [.request ⟨peerId, addrs, addrs.map Multiaddr.toBytes⟩, .outbound response.frame] ∧
      ((AutoNatClient.drive (.start (.new peerId addrs)) responseOps).polls (n + 2)).Gave
        [.outbound (dialFrame peerId addrs), .outcome response.reachability] := by
  have hasking := AutoNatServer.asking_drive hcodec hpeer haddrs hlen hrequest
  have hprobing : AutoNatClient.Probing peerId addrs response _ response.frame :=
    AutoNatClient.probing_drive hcodec hsendable hresponse
  exact ⟨AutoNatServer.gave_request hasking n,
    AutoNatServer.gave_response (hasking.polls (n + 2)) response n,
    AutoNatClient.gave_outcome hprobing n⟩

omit [MultihashCodec] in
theorem dialPeerId_digest_le : ([8, 1] : Bytes).length ≤ 64 := by decide

/-- An identity with an inlined key. -/
def dialPeerId : PeerId := ⟨0x00, [8, 1], dialPeerId_digest_le⟩

omit [MultihashCodec] in
theorem autonat_session_loopback :
    letI := multihashCodec
    let request := dialFrame dialPeerId [loopbackAddr]
    let response := Response.respondPublic [loopbackAddr]
    let requestOps := [.feed (request.take 9), .poll, .feed (request.drop 9)]
    let responseOps := [.poll, .feed (response.frame.take 1), .feed (response.frame.drop 1)]
    ((AutoNatServer.drive (.start .new) requestOps).polls 2).Gave
        [.request ⟨dialPeerId, [loopbackAddr], [loopbackAddr.toBytes]⟩] ∧
      ((((AutoNatServer.drive (.start .new) requestOps).polls 2).give response.input).polls 2).Gave
        [.request ⟨dialPeerId, [loopbackAddr], [loopbackAddr.toBytes]⟩,
          .outbound response.frame] ∧
      ((AutoNatClient.drive (.start (.new dialPeerId [loopbackAddr])) responseOps).polls 2).Gave
        [.outbound request, .outcome (.isPublic [loopbackAddr] [loopbackAddr.toBytes])] := by
  let codec := multihashCodec
  exact autonat_session multihashCodec_exact (by decide) (by decide) (by decide)
    (by decide) ⟨by decide, by decide⟩ (by decide) 0

end Minip2p.Autonat
