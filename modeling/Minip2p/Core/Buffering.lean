import Minip2p.Core.SansIo
import Minip2p.Core.WireTheorems

/-!
# Receive buffers

A machine puts bytes of its inputs into a receive buffer. If an input leaves the buffer within the
limit exactly when the bytes it adds fit (`Buffering.Lawful`), then the buffer is within the limit
all along a run exactly when every input of the run fits (`Buffering.within_iff`).
-/

namespace Minip2p

open SansIoProtocol (Call Reply GuardedRun run handleInput pollOutput)

/-- Where a machine keeps the bytes it has received, and what an input adds to them. -/
structure Buffering (σ ι : Type) where
  recvBuf : σ → Bytes
  appended : σ → ι → Bytes

namespace Buffering

variable {σ ι ο ε : Type} [SansIoProtocol σ ι ο ε] (buffering : Buffering σ ι) (max : ℕ)

/-- What the input adds to the buffer fits into it. -/
def Fits (machine : σ) (input : ι) : Prop :=
  (buffering.recvBuf machine ++ buffering.appended machine input).length ≤ max

/-- The buffer is within the limit after every call. -/
def Within (machine : σ) (calls : List (Call ι)) : Prop :=
  ∀ first, first <+: calls → ∀ machine' replies, run machine first = .ok (machine', replies) →
    (buffering.recvBuf machine').length ≤ max

/-- The buffer is within the limit after every input that is not answered with an error. -/
def OkWithin (machine : σ) (calls : List (Call ι)) : Prop :=
  ∀ first input, first ++ [.handleInput input] <+: calls → ∀ machine' replies,
    run machine (first ++ [.handleInput input]) = .ok (machine', replies ++ [.handled (.ok ())]) →
    (buffering.recvBuf machine').length ≤ max

/-- An input takes bytes out of the buffer, beside those it puts there, and nothing is taken out of
a buffer over the limit. -/
structure Lawful : Prop where
  length {machine machine' : σ} {input : ι} {result : Except ε Unit}
    (h : handleInput machine input = .ok (machine', result)) :
    (buffering.recvBuf machine').length ≤
      (buffering.recvBuf machine ++ buffering.appended machine input).length
  exceeds {machine : σ} {input : ι} (happended : buffering.appended machine input ≠ [])
    (hover : max < (buffering.recvBuf machine ++ buffering.appended machine input).length) :
    ∃ machine' result, handleInput machine input = .ok (machine', result) ∧
      buffering.recvBuf machine' = buffering.recvBuf machine ++ buffering.appended machine input
  poll (machine : σ) : buffering.recvBuf (pollOutput machine).1 = buffering.recvBuf machine

variable {buffering max} {machine : σ} {calls : List (Call ι)}

/-- The bound holds where the calls start. -/
theorem Within.head (h : buffering.Within max machine calls) :
    (buffering.recvBuf machine).length ≤ max :=
  h [] List.nil_prefix machine [] rfl

/-- After a call, the rest of the run is within the limit. -/
theorem within_cons_iff {call : Call ι} : buffering.Within max machine (call :: calls) ↔
    (buffering.recvBuf machine).length ≤ max ∧ ∀ machine' reply,
      SansIoProtocol.step machine call = .ok (machine', reply) →
        buffering.Within max machine' calls := by
  constructor
  · intro h
    refine ⟨h.head, fun machine' reply hstep first hfirst machine'' replies hrun => ?_⟩
    refine h (call :: first) ((List.prefix_cons_inj call).mpr hfirst) machine''
      (reply :: replies) ?_
    rw [run, hstep]
    show (run machine' first >>= _) = _
    rw [hrun]
    rfl
  · rintro ⟨hbuf, h⟩ first hfirst machine' replies hrun
    cases first with
    | nil =>
      obtain ⟨rfl, -⟩ := Prod.mk.inj (Except.ok.inj hrun)
      exact hbuf
    | cons call' first =>
      obtain ⟨rfl, hprefix⟩ := List.cons_prefix_cons.mp hfirst
      rw [run] at hrun
      obtain ⟨⟨machine₁, reply⟩, hstep, hrun⟩ := Except.bind_eq_ok_iff.mp hrun
      obtain ⟨⟨machine₂, replies⟩, hrest, hrun⟩ := Except.bind_eq_ok_iff.mp hrun
      obtain ⟨rfl, rfl⟩ := Prod.mk.inj (Except.ok.inj hrun)
      exact h machine₁ reply hstep first hprefix machine₂ replies hrest

/-- The buffer stays within the bound as long as every piece that is buffered fits. -/
theorem within_iff (hlawful : buffering.Lawful max) (machine : σ) (calls : List (Call ι))
    (hbuf : (buffering.recvBuf machine).length ≤ max) :
    buffering.Within max machine calls ↔ GuardedRun (buffering.Fits max) machine calls := by
  induction calls generalizing machine with
  | nil =>
    refine ⟨fun _ => trivial, fun _ first hfirst machine' replies hrun => ?_⟩
    obtain rfl := List.prefix_nil.mp hfirst
    obtain ⟨rfl, -⟩ := Prod.mk.inj (Except.ok.inj hrun)
    exact hbuf
  | cons call calls ih =>
    rw [within_cons_iff, and_iff_right hbuf]
    cases call with
    | pollOutput =>
      have hpoll : (buffering.recvBuf (pollOutput machine).1).length ≤ max := by
        rwa [hlawful.poll]
      rw [GuardedRun, ← ih _ hpoll]
      constructor
      · exact fun h => h _ _ rfl
      · rintro h machine' reply hstep
        obtain ⟨rfl, -⟩ := Prod.mk.inj (Except.ok.inj hstep)
        exact h
    | handleInput input =>
      constructor
      · intro h
        refine ⟨?_, fun r hr => ?_⟩
        · by_contra hover
          have happended : buffering.appended machine input ≠ [] := by
            intro hnil
            rw [Fits, hnil, List.append_nil] at hover
            exact hover hbuf
          obtain ⟨machine', result, hinput, hkept⟩ :=
            hlawful.exceeds happended (Nat.lt_of_not_le hover)
          have hwithin := (h machine' _ (SansIoProtocol.step_handleInput hinput)).head
          rw [hkept] at hwithin
          exact hover hwithin
        · have hrest := h r.1 _ (SansIoProtocol.step_handleInput hr)
          exact (ih r.1 hrest.head).mp hrest
      · rintro ⟨hfits, h⟩ machine' reply hstep
        obtain ⟨⟨machine₁, result⟩, hinput, hstep⟩ := Except.bind_eq_ok_iff.mp hstep
        obtain ⟨rfl, -⟩ := Prod.mk.inj (Except.ok.inj hstep)
        exact (ih machine₁ (Nat.le_trans (hlawful.length hinput) hfits)).mpr (h _ hinput)

/-- The buffer is within the limit after every input that is taken, also of a `flush` that changes
nothing. -/
theorem okWithin_flush_iff {flush : ι}
    (hflush : ∀ machine : σ, handleInput machine flush = .ok (machine, .ok ()))
    (hlawful : buffering.Lawful max) (machine : σ) (calls : List (Call ι))
    (hbuf : (buffering.recvBuf machine).length ≤ max) :
    (∀ first, first <+: calls →
      buffering.OkWithin max machine (first ++ [.handleInput flush])) ↔
      GuardedRun (buffering.Fits max) machine calls := by
  rw [← within_iff hlawful machine calls hbuf]
  constructor
  · intro h first hfirst machine' replies hrun
    have hdone : run machine' ([] : List (Call ι)) = .ok (machine', []) := rfl
    refine h first hfirst first flush List.prefix_rfl machine' replies ?_
    exact SansIoProtocol.run_append hrun (SansIoProtocol.run_handleInput (hflush machine') hdone)
  · intro h first hfirst before input hbefore machine' replies hrun
    rcases List.prefix_concat_iff.mp hbefore with heq | hbefore
    · rw [heq] at hrun
      obtain ⟨machine₁, replies₁, replies₂, hrun₁, hlast, -⟩ := SansIoProtocol.of_run_append hrun
      rw [run, SansIoProtocol.step_handleInput (hflush machine₁)] at hlast
      obtain ⟨rfl, -⟩ := Prod.mk.inj (Except.ok.inj hlast)
      exact h first hfirst machine₁ replies₁ hrun₁
    · exact h _ (hbefore.trans hfirst) machine' _ hrun

end Buffering

namespace Wire

variable {ε μ α : Type} [WireError μ] {maxSize : ℕ} {tooLarge : ℕ → ε} {malformed : μ → ε}
  {decode : Bytes → Fallible μ α} {buf rest : Bytes} {msg : α}

/-- A message is taken out of the buffer. -/
theorem length_rest_le
    (h : receive maxSize tooLarge malformed decode buf = .ok (.message msg rest)) :
    rest.length ≤ buf.length := by
  obtain ⟨payload, consumed, -, -, -, rfl⟩ := receive_eq_message h
  rw [List.length_drop]
  exact Nat.sub_le _ _

theorem receive_tooLarge (h : maxSize < buf.length) :
    receive maxSize tooLarge malformed decode buf = .ok (.failed (tooLarge buf.length)) :=
  if_pos h

end Wire

end Minip2p
