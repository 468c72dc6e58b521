import Minip2p.Multistream.SelectTheorems

/-!
# What a negotiator says

A negotiator says the header first and the protocol it agrees on second, and it hears the same two
lines, whatever the chunks they come in. What has been read is exactly what an encoder writes, so
that the two ends of a stream can be compared byte by byte.
-/

namespace Minip2p.Multistream

/-- The two lines of an end that agrees on a protocol. -/
def greeting (protocol : String) : Bytes :=
  encodeMessage multistreamProtocolId ++ encodeMessage protocol

/-- A complete frame at the front of a buffer is the one that its line is encoded as. -/
theorem eq_encodeMessage_append {buf : Bytes} {line : String} {n : Nat}
    (h : decodeMessage buf = .complete line n) : buf = encodeMessage line ++ buf.drop n := by
  rw [decodeMessage] at h
  split at h
  · cases h
  split at h
  · cases h
  · cases h
  next msgLen varintBytes hread =>
  simp only at h
  split at h
  · cases h
  split at h
  · cases h
  next hshort =>
  obtain ⟨rfl, -, hline⟩ := decodeLine_eq_complete.mp h
  have hlen := congrArg List.length hline
  simp only [List.length_drop, List.length_take, List.length_append, List.length_singleton] at hlen
  have hmsgLen : msgLen = UInt64.ofNat ((asBytes line).length + 1) := by
    rw [show (asBytes line).length + 1 = msgLen.toNat by omega, UInt64.ofNat_toNat]
  have hused : varintBytes ≤ varintBytes + msgLen.toNat := Nat.le_add_right _ _
  have hprefixed : buf.take (varintBytes + msgLen.toNat) = encodeMessage line := by
    rw [← List.take_append_drop varintBytes (buf.take (varintBytes + msgLen.toNat)), hline,
      List.take_take, Nat.min_eq_left hused, readUvarint_canonical hread, hmsgLen, encodeMessage,
      List.append_assoc]
  rw [← hprefixed, List.take_append_drop]

/-- Two ends that greet on one stream agree on the protocol, and on what comes after it. -/
theorem greeting_prefix {first second : String} {a b : Bytes} (hfirst : Sendable first)
    (hsecond : Sendable second) (h : greeting first ++ a <+: greeting second ++ b) :
    first = second ∧ a <+: b := by
  rw [greeting, greeting, List.append_assoc, List.append_assoc,
    List.prefix_append_right_inj] at h
  obtain ⟨more, hmore⟩ := h
  have hread := decodeMessage_encodeMessage hsecond b
  rw [← hmore, List.append_assoc, decodeMessage_encodeMessage hfirst] at hread
  obtain ⟨rfl, -⟩ := DecodeResult.complete.inj hread
  rw [List.append_assoc, List.append_cancel_left_eq] at hmore
  exact ⟨rfl, more, hmore⟩

/-- What comes after a greeting comes after the two frames of a handshake. -/
theorem Handshake.of_greeting {protocol : String} (h : Sendable protocol) (rest : Bytes) :
    Handshake (greeting protocol ++ rest) rest := by
  rw [greeting, List.append_assoc]
  refine ⟨_, protocol, _, (encodeMessage protocol).length,
    decodeMessage_encodeMessage header_sendable _, ?_, ?_⟩
  · rw [List.drop_left]
    exact decodeMessage_encodeMessage h rest
  · rw [← List.drop_drop, List.drop_left, List.drop_left]

/-! ## Speaking and listening -/

/-- What a negotiator has said when it has read the header. -/
def Role.opening : Role → Bytes
  | .dialer desired => greeting desired
  | .listener _ => encodeMessage multistreamProtocolId

/-- The negotiator has said `said` and waits for a frame. It holds what was delivered after the
frames it has read. -/
inductive Speaks (select : MultistreamSelect) (delivered said : Bytes) : Prop
  | header (hstate : select.state = .waitingForRemoteHeader) (hbuf : select.recvBuf = delivered)
      (houtputs : select.pendingOutputs = [])
      (hsaid : said = encodeMessage multistreamProtocolId)
  | protocol (hstate : select.state = select.role.second)
      (hdelivered : delivered = encodeMessage multistreamProtocolId ++ select.recvBuf)
      (houtputs : select.pendingOutputs = []) (hsaid : said = select.role.opening)

/-- What a negotiator with this role has done with some more bytes: it goes on, or it has agreed
on a protocol that both ends have named, or it has failed. -/
inductive Answers (role : Role) (delivered said : Bytes) (select : MultistreamSelect) : Prop
  | waits (sent : List Bytes) (houtputs : select.pendingOutputs = sent.map .outboundData)
      (hspeaks : Speaks { select with pendingOutputs := [] } delivered (said ++ sent.flatten))
  | agrees (sent : List Bytes) (protocol : String)
      (houtputs : select.pendingOutputs = sent.map .outboundData ++ [.negotiated protocol])
      (hfits : Sendable protocol) (hrole : ∀ desired, role = .dialer desired → desired = protocol)
      (hdelivered : delivered = greeting protocol ++ select.recvBuf)
      (hsaid : said ++ sent.flatten = greeting protocol)
  | fails (sent : List Bytes) (output : MultistreamOutput)
      (houtput : output = .notAvailable ∨ ∃ reason, output = .protocolError reason)
      (houtputs : select.pendingOutputs = sent.map .outboundData ++ [output])

namespace MultistreamSelect

/-- No turn changes the role. -/
theorem receiveGo_role (fuel : Nat) (select : MultistreamSelect) :
    (select.receiveGo fuel).role = select.role := by
  induction fuel generalizing select with
  | zero => rfl
  | succ fuel ih =>
    rw [receiveGo]
    split
    · rfl
    · split
      · rfl
      · rfl
      · exact ih _

/-- Bytes of the remote do not change the role. -/
theorem receive_role (select : MultistreamSelect) (data : Bytes) :
    (select.receive data).role = select.role := by
  rw [receive]
  split
  · rfl
  · exact receiveGo_role 3 _

/-- The turn that reads the second frame. -/
theorem receiveGo_answers (select : MultistreamSelect) {delivered said : Bytes}
    (sent : List Bytes) (hstate : select.state = select.role.second)
    (hdelivered : delivered = encodeMessage multistreamProtocolId ++ select.recvBuf)
    (houtputs : select.pendingOutputs = sent.map .outboundData)
    (hsaid : said ++ sent.flatten = select.role.opening) (fuel : Nat) :
    Answers select.role delivered said (select.receiveGo (fuel + 1)) := by
  have hactive : select.state ≠ .done := by
    rw [hstate]
    cases select.role <;> rintro ⟨⟩
  rw [receiveGo, if_neg hactive]
  split
  · exact .waits sent houtputs (.protocol hstate hdelivered rfl hsaid)
  · next e _ =>
    exact .fails sent (.protocolError e.display) (.inr ⟨_, rfl⟩)
      (congrArg (· ++ [.protocolError e.display]) houtputs)
  · next line m hline =>
    have hfits := (sendable_of_decodeMessage hline).2
    have hread : delivered = greeting line ++ select.recvBuf.drop m := by
      rw [hdelivered, greeting, List.append_assoc, ← eq_encodeMessage_append hline]
    cases hrole : select.role with
    | dialer desired =>
      rw [hrole] at hsaid
      rw [hstate, hrole]
      simp only [Role.second, handleMessage]
      split
      · next hequal =>
        subst hequal
        rw [receiveGo_done rfl]
        exact .agrees sent line (congrArg (· ++ [.negotiated line]) houtputs) hfits
          (by rintro _ ⟨⟩; rfl) hread hsaid
      · split
        · rw [receiveGo_done rfl]
          exact .fails sent .notAvailable (.inl rfl) (congrArg (· ++ [.notAvailable]) houtputs)
        · rw [protocolError, receiveGo_done rfl]
          exact .fails sent _ (.inr ⟨_, rfl⟩) (congrArg (· ++ [_]) houtputs)
    | listener supported =>
      rw [hrole] at hsaid
      rw [hstate, hrole]
      simp only [Role.second, handleMessage]
      split
      · -- the answer names the protocol of the request
        rw [receiveGo_done rfl]
        refine .agrees (sent ++ [encodeMessage line]) line ?_ hfits (by rintro _ ⟨⟩) hread ?_
        · simp [houtputs]
        · rw [List.flatten_append, ← List.append_assoc, hsaid]
          simp [Role.opening, greeting]
      · rw [receiveGo_done rfl]
        refine .fails (sent ++ [encodeMessage notAvailable]) .notAvailable (.inl rfl) ?_
        simp [houtputs]

/-- Feeding some more bytes to a negotiator that waits for a frame. -/
theorem receive_answers {select : MultistreamSelect} {delivered said : Bytes}
    (h : Speaks select delivered said) (data : Bytes) :
    Answers select.role (delivered ++ data) said (select.receive data) := by
  cases h with
  | header hstate hbuf houtputs hsaid =>
    rw [receive, if_neg (by rw [hstate]; rintro ⟨⟩), receiveGo,
      if_neg (by rw [hstate]; rintro ⟨⟩), hbuf]
    split
    · exact .waits [] houtputs (.header hstate rfl rfl (by rw [hsaid]; simp))
    · next e _ =>
      exact .fails [] (.protocolError e.display) (.inr ⟨_, rfl⟩)
        (congrArg (· ++ [.protocolError e.display]) houtputs)
    · next header n hheader =>
      rw [hstate]
      simp only [handleMessage]
      split
      · rw [protocolError, receiveGo_done rfl]
        exact .fails [] _ (.inr ⟨_, rfl⟩) (congrArg (· ++ [_]) houtputs)
      · next hequal =>
        obtain rfl := not_not.mp hequal
        have hread := eq_encodeMessage_append hheader
        cases hrole : select.role with
        | dialer desired =>
          have hsent : select.pendingOutputs ++ [.outboundData (encodeMessage desired)] =
              [encodeMessage desired].map .outboundData := by
            rw [houtputs]
            rfl
          -- the same chunk may hold the second frame
          exact receiveGo_answers ⟨_, _, _, _, _⟩ _ rfl hread hsent
            (by rw [hsaid]; simp [Role.opening, greeting]) 1
        | listener supported =>
          have hsent : select.pendingOutputs ++ [] = ([] : List Bytes).map .outboundData := by
            rw [houtputs]
            rfl
          exact receiveGo_answers ⟨_, _, _, _, _⟩ _ rfl hread hsent
            (by rw [hsaid]; simp [Role.opening]) 1
  | protocol hstate hdelivered houtputs hsaid =>
    have hactive : select.state ≠ .done := by
      rw [hstate]
      cases select.role <;> rintro ⟨⟩
    rw [receive, if_neg hactive]
    exact receiveGo_answers { select with recvBuf := select.recvBuf ++ data } [] hstate
      (by rw [hdelivered, List.append_assoc]) houtputs (by rw [hsaid]; simp) 2

end MultistreamSelect

end Minip2p.Multistream
