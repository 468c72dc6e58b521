import Minip2p.Core.WireTheorems
import Minip2p.Identity.VarintTheorems
import Minip2p.Lib.Chunking

/-!
# One message at the front of a stream

The relay and DCUtR machines append what arrives to a buffer and try to read a message from its
front each time. `Front` is where such a machine stands. The size guard looks at the whole buffer,
so the bytes behind the message count as well: where a machine comes to does not depend on the
pieces exactly if the stream is within the limit, or nothing is accepted from what is
(`Front.run_independent`, `Front.run_dependent`).
-/

namespace Minip2p.Wire

/-! ## A verdict is final -/

/-- A frame does not depend on the bytes behind it. -/
theorem decodeFrame_append {input : Bytes} (h : decodeFrame input ≠ .ok .incomplete)
    (more : Bytes) : decodeFrame (input ++ more) = decodeFrame input := by
  cases input with
  | nil => exact absurd rfl h
  | cons byte rest =>
    simp only [decodeFrame, List.cons_append, List.isEmpty_cons, Bool.false_eq_true,
      if_false] at h ⊢
    rw [← List.cons_append]
    cases hread : readUvarint (byte :: rest) with
    | error e =>
      simp only [hread] at h
      -- an unfinished prefix is the one error that more bytes can mend
      have he : e ≠ .bufferTooShort := by
        rintro rfl
        exact h rfl
      rw [readUvarint_error_append hread he]
      cases e with
      | bufferTooShort => exact absurd rfl he
      | overflow => rfl
      | nonCanonical => rfl
    | ok r =>
      obtain ⟨length, used⟩ := r
      simp only [hread] at h
      simp only [readUvarint_append hread]
      cases hsum : Exec.add used length.toNat with
      | error p => rfl
      | ok total =>
        rw [hsum] at h
        have hlong : ¬ (byte :: rest).length < total := by
          intro hshort
          apply h
          show (if _ then _ else _) = _
          rw [if_pos hshort]
          rfl
        show (if _ then _ else _) = (if _ then _ else _)
        rw [if_neg hlong, if_neg (by rw [List.length_append]; omega), Exec.slice, Exec.slice,
          List.take_append_of_le_length (by omega), List.length_append]
        by_cases hle : used ≤ total
        · rw [if_pos ⟨hle, by omega⟩, if_pos ⟨hle, by omega⟩]
        · rw [if_neg (by omega), if_neg (by omega)]

/-- A frame is found in its own bytes. -/
theorem decodeFrame_take {input payload : Bytes} {consumed : ℕ}
    (h : decodeFrame input = .ok (.complete payload consumed)) :
    decodeFrame (input.take consumed) = .ok (.complete payload consumed) := by
  have hincomplete : decodeFrame (input.take consumed) ≠ .ok .incomplete := by
    have hshort := (decodeFrame_complete h).1
    rw [decodeFrame] at h
    split at h
    · cases h
    split at h
    · cases h
    · cases h
    · next length used hread =>
      obtain ⟨total, hadd, h⟩ := Except.bind_eq_ok_iff.mp h
      split at h
      · cases h
      obtain ⟨payload', hslice, h⟩ := Except.bind_eq_ok_iff.mp h
      obtain ⟨-, rfl⟩ := FrameDecode.complete.inj (Except.ok.inj h)
      have hle : used ≤ total := by
        by_contra hgt
        rw [Exec.slice, if_neg (by omega)] at hslice
        cases hslice
      have hread' := readUvarint_take hread hle
      have hne : (input.take total).isEmpty = false := by
        cases hfront : input.take total with
        | nil =>
          rw [hfront] at hread'
          cases hread'
        | cons => rfl
      have hlen : (input.take total).length = total := by
        rw [List.length_take]
        omega
      simp only [decodeFrame, hne, hread', hadd]
      show (if _ < total then _ else _) ≠ _
      rw [if_neg (by omega), Exec.slice_eq_ok hle (by omega)]
      rintro ⟨⟩
  rw [← h]
  conv_rhs => rw [← List.take_append_drop consumed input, decodeFrame_append hincomplete]

variable {ε μ α : Type}

/-- What is found, with more bytes behind it. -/
def Received.append (more : Bytes) : Received ε α → Received ε α
  | .message msg rest => .message msg (rest ++ more)
  | .incomplete => .incomplete
  | .failed e => .failed e

/-- A reader of messages that does not accept a buffer over the limit, and does not change its
verdict on a buffer within it. -/
structure Bounded (maxSize : ℕ) (receive : Bytes → Exec (Received ε α)) : Prop where
  nil : receive [] = .ok .incomplete
  tooLarge {buf : Bytes} (h : maxSize < buf.length) : ∃ e, receive buf = .ok (.failed e)
  append {buf more : Bytes} (hlen : (buf ++ more).length ≤ maxSize)
    (h : receive buf ≠ .ok .incomplete) :
    receive (buf ++ more) = (receive buf).map (Received.append more)

theorem receive_bounded [WireError μ] (maxSize : ℕ) (tooLarge : ℕ → ε) (malformed : μ → ε)
    (decode : Bytes → Fallible μ α) :
    Bounded maxSize (receive maxSize tooLarge malformed decode) where
  nil := rfl
  tooLarge h := ⟨_, if_pos h⟩
  append {buf more} hlen h := by
    have hbuf : ¬ buf.length > maxSize := by
      rw [List.length_append] at hlen
      omega
    rw [receive, if_neg hbuf] at h
    rw [receive, receive, if_neg (by omega), if_neg hbuf]
    have hframe : decodeFrame buf ≠ .ok .incomplete := by
      intro hframe
      rw [hframe] at h
      exact h rfl
    rw [decodeFrame_append hframe]
    cases hdecoded : decodeFrame buf with
    | error p => rfl
    | ok frame =>
      cases frame with
      | incomplete => exact absurd hdecoded hframe
      | error e => rfl
      | complete payload consumed =>
        show ((decode payload).run >>= _) = Except.map _ ((decode payload).run >>= _)
        cases (decode payload).run with
        | error p => rfl
        | ok result =>
          cases result with
          | error e => rfl
          | ok msg =>
            have hconsumed := (decodeFrame_complete hdecoded).1
            show (Exec.drain _ _ >>= _) = Except.map _ (Exec.drain _ _ >>= _)
            rw [Exec.drain_eq_ok hconsumed,
              Exec.drain_eq_ok (by rw [List.length_append]; omega),
              List.drop_append_of_le_length hconsumed]
            rfl

/-- The message of the frame at the front, and the bytes behind the frame. -/
def firstMessage (decode : Bytes → Fallible μ α) (stream : Bytes) : Option (α × Bytes) :=
  match decodeFrame stream with
  | .ok (.complete payload consumed) =>
    match (decode payload).run with
    | .ok (.ok msg) => some (msg, stream.drop consumed)
    | _ => none
  | _ => none

section

variable {decode : Bytes → Fallible μ α} {stream rest : Bytes} {msg : α}

/-- The first message of a stream is the payload of its first frame, decoded. -/
theorem firstMessage_eq_some_iff : firstMessage decode stream = some (msg, rest) ↔
    ∃ payload consumed, decodeFrame stream = .ok (.complete payload consumed) ∧
      (decode payload).run = .ok (.ok msg) ∧ stream.drop consumed = rest := by
  constructor
  · intro h
    rw [firstMessage] at h
    split at h
    · next payload consumed hframe =>
      split at h
      · next msg' hdecode =>
        obtain ⟨rfl, rfl⟩ := Prod.mk.inj (Option.some.inj h)
        exact ⟨payload, consumed, hframe, hdecode, rfl⟩
      · cases h
    · cases h
  · rintro ⟨payload, consumed, hframe, hdecode, rfl⟩
    simp only [firstMessage, hframe, hdecode]

/-- More bytes come behind the frame. -/
theorem firstMessage_append (h : firstMessage decode stream = some (msg, rest)) (more : Bytes) :
    firstMessage decode (stream ++ more) = some (msg, rest ++ more) := by
  obtain ⟨payload, consumed, hframe, hdecode, rfl⟩ := firstMessage_eq_some_iff.mp h
  refine firstMessage_eq_some_iff.mpr ⟨payload, consumed, ?_, hdecode, ?_⟩
  · rw [decodeFrame_append (by rw [hframe]; rintro ⟨⟩), hframe]
  · rw [List.drop_append_of_le_length (decodeFrame_complete hframe).1]

variable [WireError μ] {maxSize : ℕ} {tooLarge : ℕ → ε} {malformed : μ → ε}

theorem firstMessage_of_message
    (h : receive maxSize tooLarge malformed decode stream = .ok (.message msg rest)) :
    firstMessage decode stream = some (msg, rest) := by
  obtain ⟨payload, consumed, -, hframe, hdecode, rfl⟩ := receive_eq_message h
  exact firstMessage_eq_some_iff.mpr ⟨payload, consumed, hframe, hdecode, rfl⟩

theorem firstMessage_of_incomplete
    (h : receive maxSize tooLarge malformed decode stream = .ok .incomplete) :
    firstMessage decode stream = none := by
  refine Option.eq_none_iff_forall_ne_some.mpr ?_
  rintro ⟨msg, rest⟩ hfirst
  obtain ⟨payload, consumed, hframe, hdecode, -⟩ := firstMessage_eq_some_iff.mp hfirst
  rw [receive] at h
  split at h
  · cases h
  rw [hframe] at h
  change ((decode payload).run >>= _) = _ at h
  rw [hdecode] at h
  change (Exec.drain stream consumed >>= _) = _ at h
  rw [Exec.drain_eq_ok (decodeFrame_complete hframe).1] at h
  cases h

end

/-! ## Where a machine stands -/

/-- What a machine that reads one message has come to. -/
inductive Front (α : Type)
  /-- The message is not complete. -/
  | waiting (buf : Bytes)
  /-- It was answered with an error. -/
  | failed
  | panicked
  /-- It was accepted, and `rest` came behind it. -/
  | accepted (value : α) (rest : Bytes)

namespace Front

variable (receive : Bytes → Exec (Received ε μ)) (accept : μ → Option α)

/-- What is made of the buffer. -/
def read (buf : Bytes) : Front α :=
  match receive buf with
  | .error _ => .panicked
  | .ok .incomplete => .waiting buf
  | .ok (.failed _) => .failed
  | .ok (.message msg rest) =>
    match accept msg with
    | none => .failed
    | some value => .accepted value rest

/-- More bytes of the stream. -/
def feed : Front α → Bytes → Front α
  | .waiting buf, piece => read receive accept (buf ++ piece)
  | .failed, _ => .failed
  | .panicked, _ => .panicked
  | .accepted value rest, piece => .accepted value (rest ++ piece)

/-- Some pieces later. -/
def run (front : Front α) (pieces : List Bytes) : Front α :=
  pieces.foldl (feed receive accept) front

/-- The machine did not answer the bytes with an error, nor does it wait for more of them. -/
def Passed : Front α → Prop
  | .accepted _ _ => True
  | .panicked => True
  | .waiting _ => False
  | .failed => False

variable {receive accept} {maxSize : ℕ} {buf piece : Bytes}

theorem read_nil (h : Bounded maxSize receive) : read receive accept [] = .waiting [] := by
  rw [read, h.nil]

/-- A machine waits with all that it has read. -/
theorem eq_of_read_waiting {buf' : Bytes} (h : read receive accept buf = .waiting buf') :
    buf' = buf := by
  rw [read] at h
  split at h
  · cases h
  · exact (Front.waiting.inj h).symm
  · cases h
  · split at h <;> cases h

/-- A buffer beyond the bound fails whatever it holds. -/
theorem read_tooLarge (h : Bounded maxSize receive) (hlen : maxSize < buf.length) :
    read receive accept buf = .failed := by
  obtain ⟨e, he⟩ := h.tooLarge hlen
  rw [read, he]

/-- Within the limit, reading twice is reading once. -/
theorem feed_read (h : Bounded maxSize receive) (hlen : (buf ++ piece).length ≤ maxSize) :
    feed receive accept (read receive accept buf) piece = read receive accept (buf ++ piece) := by
  by_cases hincomplete : receive buf = .ok .incomplete
  · rw [read, hincomplete]
    rfl
  · have happend := h.append hlen hincomplete
    cases hreceive : receive buf with
    | error p =>
      rw [hreceive] at happend
      rw [read, read, happend, hreceive]
      rfl
    | ok received =>
      rw [hreceive] at happend
      rw [read, read, happend, hreceive]
      cases received with
      | incomplete => exact absurd hreceive hincomplete
      | failed e => rfl
      | message msg rest =>
        show feed receive accept _ piece = _
        simp only [Except.map, Received.append]
        cases accept msg with
        | none => rfl
        | some value => rfl

/-- Within the bound, reading piece by piece is reading all at once. -/
theorem run_read (h : Bounded maxSize receive) (pieces : List Bytes)
    (hlen : (buf ++ pieces.flatten).length ≤ maxSize) :
    run receive accept (read receive accept buf) pieces =
      read receive accept (buf ++ pieces.flatten) := by
  induction pieces generalizing buf with
  | nil => rw [List.flatten_nil, List.append_nil]; rfl
  | cons piece pieces ih =>
    rw [List.flatten_cons, ← List.append_assoc] at hlen ⊢
    have hpiece : (buf ++ piece).length ≤ maxSize := by
      rw [List.length_append] at hlen
      omega
    rw [run, List.foldl_cons, feed_read h hpiece]
    exact ih hlen

/-- A failed reader stays failed. -/
theorem run_failed (pieces : List Bytes) : run receive accept .failed pieces = .failed := by
  induction pieces with
  | nil => rfl
  | cons piece pieces ih => exact ih

theorem Passed.feed {front : Front α} (h : front.Passed) (piece : Bytes) :
    (feed receive accept front piece).Passed := by
  cases front with
  | waiting | failed => cases h
  | panicked | accepted => trivial

/-- A stream over the limit that has nothing acceptable within it fails. -/
theorem run_tooLarge (h : Bounded maxSize receive) (pieces : List Bytes)
    (hbuf : buf.length ≤ maxSize) (hlen : maxSize < (buf ++ pieces.flatten).length)
    (hpassed : ¬ (read receive accept ((buf ++ pieces.flatten).take maxSize)).Passed) :
    run receive accept (read receive accept buf) pieces = .failed := by
  induction pieces generalizing buf with
  | nil =>
    rw [List.flatten_nil, List.append_nil] at hlen
    omega
  | cons piece pieces ih =>
    rw [List.flatten_cons, ← List.append_assoc] at hlen hpassed
    rw [run, List.foldl_cons]
    by_cases hpiece : (buf ++ piece).length ≤ maxSize
    · rw [feed_read h hpiece]
      exact ih hpiece hlen hpassed
    · -- the machine has not passed yet, and now its buffer is over the limit
      have hbefore : ¬ (read receive accept buf).Passed := by
        intro hbefore
        obtain ⟨more, hmore⟩ : ∃ more,
            ((buf ++ piece) ++ pieces.flatten).take maxSize = buf ++ more := by
          refine ⟨(piece ++ pieces.flatten).take (maxSize - buf.length), ?_⟩
          rw [List.append_assoc, List.take_append, List.take_of_length_le hbuf]
        apply hpassed
        rw [hmore, ← feed_read h (by rw [← hmore, List.length_take]; omega)]
        exact hbefore.feed more
      have hfailed : feed receive accept (read receive accept buf) piece = .failed := by
        cases hread : read receive accept buf with
        | waiting buf' =>
          rw [eq_of_read_waiting hread]
          exact read_tooLarge h (by omega)
        | failed => rfl
        | panicked => exact absurd (by rw [hread]; trivial) hbefore
        | accepted value rest => exact absurd (by rw [hread]; trivial) hbefore
      rw [hfailed]
      exact run_failed pieces

/-- The streams whose pieces do not matter: those within the limit, and those that have nothing
acceptable within it. -/
def Settled (receive : Bytes → Exec (Received ε μ)) (accept : μ → Option α) (maxSize : ℕ)
    (stream : Bytes) : Prop :=
  stream.length ≤ maxSize ∨ ¬ (read receive accept (stream.take maxSize)).Passed

/-- Over a settled stream the cut does not matter. -/
theorem run_independent (h : Bounded maxSize receive) {stream : Bytes}
    (hsettled : Settled receive accept maxSize stream) :
    ∃ front, ∀ pieces : List Bytes, pieces.flatten = stream →
      run receive accept (.waiting []) pieces = front := by
  have hnil : read receive accept [] = .waiting [] := read_nil h
  rw [← hnil]
  by_cases hlen : stream.length ≤ maxSize
  · refine ⟨read receive accept stream, ?_⟩
    rintro pieces rfl
    exact run_read h pieces hlen
  · refine ⟨.failed, ?_⟩
    rintro pieces rfl
    exact run_tooLarge h pieces (Nat.zero_le _) (Nat.lt_of_not_le hlen)
      (hsettled.resolve_left hlen)

/-- Otherwise the stream fails in one piece, and does not when it is cut at the limit. -/
theorem run_dependent (h : Bounded maxSize receive) {stream : Bytes}
    (hsettled : ¬ Settled receive accept maxSize stream) :
    run receive accept (.waiting []) [stream] = .failed ∧
      (run receive accept (.waiting [])
        [stream.take maxSize, stream.drop maxSize]).Passed := by
  rw [Settled, not_or, not_not] at hsettled
  refine ⟨read_tooLarge h (Nat.lt_of_not_le hsettled.1), ?_⟩
  have hpassed : (read receive accept (stream.take maxSize)).Passed := hsettled.2
  exact hpassed.feed _

/-- Within the limit, a machine passes the bytes by which it panics and those that begin with a
frame whose message is accepted. -/
theorem passed_read_iff [WireError μ] {tooLarge : ℕ → ε} {malformed : μ → ε}
    {decode : Bytes → Fallible μ α} {β : Type} {accept : α → Option β}
    (hdecode : ∀ payload, payload.length ≤ maxSize → Exec.Returns (decode payload).run)
    (hlen : buf.length ≤ maxSize) :
    (read (Wire.receive maxSize tooLarge malformed decode) accept buf).Passed ↔
      HugePrefix buf ∨ ∃ payload consumed msg, decodeFrame buf = .ok (.complete payload consumed) ∧
        (decode payload).run = .ok (.ok msg) ∧ (accept msg).isSome := by
  have hiff : Exec.Returns (Wire.receive maxSize tooLarge malformed decode buf) ↔
      ¬ (buf.length ≤ maxSize ∧ HugePrefix buf) := returns_receive_iff hdecode
  rw [read]
  cases hreceive : Wire.receive maxSize tooLarge malformed decode buf with
  | error p =>
    rw [hreceive] at hiff
    have huge := not_not.mp (mt hiff.mpr (Exec.not_returns_error p))
    exact ⟨fun _ => .inl huge.2, fun _ => trivial⟩
  | ok received =>
    rw [hreceive] at hiff
    have hsmall : ¬ HugePrefix buf := fun huge => hiff.mp ⟨_, rfl⟩ ⟨hlen, huge⟩
    rw [or_iff_right hsmall]
    -- the frame and its message are the ones that were received
    have hmessage : ∀ payload consumed msg, decodeFrame buf = .ok (.complete payload consumed) →
        (decode payload).run = .ok (.ok msg) → ∃ rest, received = .message msg rest := by
      intro payload consumed msg hframe hmsg
      rw [Wire.receive, if_neg (by omega), hframe] at hreceive
      change ((decode payload).run >>= _) = _ at hreceive
      rw [hmsg] at hreceive
      change (Exec.drain buf consumed >>= _) = _ at hreceive
      rw [Exec.drain_eq_ok (decodeFrame_complete hframe).1] at hreceive
      exact ⟨_, (Except.ok.inj hreceive).symm⟩
    cases received with
    | incomplete | failed =>
      refine ⟨fun h => h.elim, ?_⟩
      rintro ⟨payload, consumed, msg, hframe, hmsg, -⟩
      obtain ⟨rest, heq⟩ := hmessage payload consumed msg hframe hmsg
      cases heq
    | message msg rest =>
      obtain ⟨payload, consumed, -, hframe, hmsg, -⟩ := receive_eq_message hreceive
      dsimp only
      constructor
      · intro hpassed
        refine ⟨payload, consumed, msg, hframe, hmsg, ?_⟩
        cases haccept : accept msg with
        | none =>
          rw [haccept] at hpassed
          exact hpassed.elim
        | some value => rfl
      · rintro ⟨payload', consumed', msg', hframe', hmsg', haccept⟩
        obtain ⟨rest', heq⟩ := hmessage payload' consumed' msg' hframe' hmsg'
        obtain ⟨rfl, -⟩ := Received.message.inj heq
        obtain ⟨value, hvalue⟩ := Option.isSome_iff_exists.mp haccept
        rw [hvalue]
        trivial

end Front

/-! ## What a caller sees -/

/-- What the caller of a machine has seen: what the machine found, the bytes it passed on, whether
an input was answered with an error, and whether one panicked. -/
structure Seen (α : Type) where
  found : List α
  bridge : Bytes
  failed : Bool
  panicked : Bool
deriving DecidableEq

/-- What is seen of a machine that passes on `bridge value rest` of the bytes behind its message. -/
def Front.seen (bridge : α → Bytes → Bytes) : Front α → Seen α
  | .waiting _ => ⟨[], [], false, false⟩
  | .failed => ⟨[], [], true, false⟩
  | .panicked => ⟨[], [], false, true⟩
  | .accepted value rest => ⟨[value], bridge value rest, false, false⟩

section

variable {receive : Bytes → Exec (Received ε μ)} {accept : μ → Option α} {maxSize : ℕ}
  {bridge : α → Bytes → Bytes} {Op : Type} {pieces : List Op → List Bytes}
  {seen : List Op → Seen α}

/-- A caller that sees what the machine has come to sees the same of all ways to cut a stream if
and only if the stream is settled. -/
theorem seen_independent_iff (h : Bounded maxSize receive)
    (hpieces : ∀ cut : List Bytes, ∃ ops, pieces ops = cut)
    (hseen : ∀ ops, seen ops =
      (Front.run receive accept (.waiting []) (pieces ops)).seen bridge) (stream : Bytes) :
    (∀ ops₁ ops₂, (pieces ops₁).flatten = stream → (pieces ops₂).flatten = stream →
      seen ops₁ = seen ops₂) ↔ Front.Settled receive accept maxSize stream := by
  constructor
  · intro hsame
    by_contra hsettled
    obtain ⟨hwhole, hcut⟩ := Front.run_dependent h hsettled
    obtain ⟨ops₁, hops₁⟩ := hpieces [stream]
    obtain ⟨ops₂, hops₂⟩ := hpieces [stream.take maxSize, stream.drop maxSize]
    have heq := hsame ops₁ ops₂ (by simp [hops₁]) (by simp [hops₂])
    rw [hseen, hseen, hops₁, hops₂, hwhole] at heq
    -- the error is seen of the one and not of the other
    have hfailed := congrArg Seen.failed heq
    cases hfront : Front.run receive accept (.waiting [])
        [stream.take maxSize, stream.drop maxSize] with
    | waiting | failed => rw [hfront] at hcut; exact hcut
    | panicked | accepted => rw [hfront] at hfailed; cases hfailed
  · intro hsettled ops₁ ops₂ h₁ h₂
    obtain ⟨front, hfront⟩ := Front.run_independent h hsettled
    rw [hseen, hseen, hfront _ h₁, hfront _ h₂]

end

end Minip2p.Wire
