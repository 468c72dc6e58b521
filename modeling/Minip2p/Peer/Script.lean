import Minip2p.Core.SansIo
import Minip2p.Lib.Ends
import Minip2p.Transport.Types

/-!
# The scripts of the example peer

`examples/peer/src/relay.rs` drives its flows from straight-line code that sends on one stream and
waits for data on it. Such a script is a program over a `Circuit`: what the waits come back with,
and what the sends are answered with. An early `?` is an error with its text.

`waiting` and `sending` say what the two calls do; `ends_awaitOutcome` is the rule for the loop
that feeds a flow until it has its outcome.
-/

namespace Minip2p.Peer

open Prog
open SansIoProtocol (handleInput pollOutput)

/-- What `run_until` comes back with: data on the stream, or a poll that failed with some text. -/
inductive Arrival
  | data (bytes : Bytes) (atMs : ℕ)
  | failed (error : String)
deriving DecidableEq, Repr

/-- The sending side of a stream. -/
structure Outgoing where
  /-- The text of the error a call of `send_user_stream` is answered with, if any. -/
  refusal : ℕ → Option String
  /-- How often `send_user_stream` was called. -/
  calls : ℕ
  sent : Bytes

/-- A stream as the script sees it. -/
structure Circuit where
  /-- What the waits will come back with; when nothing is left the deadline passes. -/
  arrivals : List Arrival
  /-- The clock. -/
  nowMs : ℕ
  outgoing : Outgoing

/-- A part of a script. -/
abbrev Script (α : Type) := Prog Circuit String α

/-- Waits for data on the stream; what else `run_until` is shown is dropped. -/
def waitUserStreamData (streamId : StreamId) : Script Bytes := do
  let circuit ← get
  match circuit.arrivals with
  | [] => throw s!"deadline exceeded before data on stream {streamId.display}"
  | .failed error :: arrivals =>
    set { circuit with arrivals }
    throw s!"wait-user-stream-data: {error}"
  | .data bytes atMs :: arrivals =>
    set { circuit with arrivals, nowMs := atMs }
    return bytes

/-- Sends data, unless there is none. -/
def send (data : Bytes) : Script Unit := do
  if data.isEmpty then return ()
  else
    let circuit ← get
    let { refusal, calls, sent } := circuit.outgoing
    match refusal calls with
    | some error =>
      set { circuit with outgoing := { refusal, calls := calls + 1, sent } }
      throw s!"send_user_stream: {error}"
    | none => set { circuit with outgoing := { refusal, calls := calls + 1, sent := sent ++ data } }

/-- `Instant::now`. -/
def now : Script ℕ := return (← get).nowMs

/-- `elapsed().as_millis() as u64` of an instant. -/
def elapsedMs (sentAt : ℕ) : Script UInt64 := return UInt64.ofNat ((← get).nowMs - sentAt)

/-! ## Flows -/

section

variable {F ι ο ε α : Type} [SansIoProtocol F ι ο ε]

/-- One poll, of which the caller reads some outputs only. -/
def pollFor (pick : ο → Option α) (flow : F) : F × Option α :=
  let (flow, output) := pollOutput flow
  (flow, output.bind pick)

/-- Gives an input whose error ends the script. -/
def give (describe : ε → String) (flow : F) (input : ι) : Script F :=
  match handleInput flow input with
  -- a panic ends the process
  | .error _ => diverge
  | .ok (flow, .ok ()) => return flow
  | .ok (_, .error e) => throw (describe e)

/-- Gives an input and polls once for the outcome. -/
def feed (describe : ε → String) (pick : ο → Option α) (flow : F) (input : ι) :
    Script (F × Option α) := do
  let flow ← give describe flow input
  return pollFor pick flow

/-- Gives `Flush`, whatever it is answered with, and polls once for bytes to send. -/
def flushWith (flush : ι) (pick : ο → Option Bytes) (flow : F) : Script (F × Bytes) :=
  match handleInput flow flush with
  | .error _ => diverge
  | .ok (flow, _) =>
    let (flow, bytes) := pollFor pick flow
    return (flow, bytes.getD [])

end

/-- One turn of the loop: waits for data and feeds it to the flow. -/
def awaitTurn {F α : Type} (streamId : StreamId) (feed : F → Bytes → Script (F × Option α))
    (flow : F) : Script (F ⊕ F × α) := do
  let data ← waitUserStreamData streamId
  let (flow, outcome) ← feed flow data
  match outcome with
  | some outcome => return .inr (flow, outcome)
  | none => return .inl flow

/-- Feeds a flow what comes until there is an outcome. Every turn takes an arrival, so the turns
do not run out. -/
def awaitOutcome {F α : Type} (streamId : StreamId) (feed : F → Bytes → Script (F × Option α))
    (flow : F) : Script (F × α) := do
  let circuit ← get
  iterate (awaitTurn streamId feed) (circuit.arrivals.length + 1) flow

/-! ## What may go wrong -/

/-- The errors that do not come from what the other side sent. -/
inductive Hindered (streamId : StreamId) (refusal : ℕ → Option String) : String → Prop
  | deadline : Hindered streamId refusal
      s!"deadline exceeded before data on stream {streamId.display}"
  | poll (error : String) : Hindered streamId refusal s!"wait-user-stream-data: {error}"
  | refused {call : ℕ} {error : String} (h : refusal call = some error) :
    Hindered streamId refusal s!"send_user_stream: {error}"

/-- The bytes that the waits will come back with, up to a poll that fails. -/
def received : List Arrival → Bytes
  | [] | .failed _ :: _ => []
  | .data bytes _ :: arrivals => bytes ++ received arrivals

/-! ## The rules -/

/-- A wait takes the first arrival. -/
theorem exec_waitUserStreamData (streamId : StreamId) (circuit : Circuit) :
    exec (waitUserStreamData streamId) circuit =
      match circuit.arrivals with
      | [] => some (.error s!"deadline exceeded before data on stream {streamId.display}", circuit)
      | .failed error :: arrivals =>
        some (.error s!"wait-user-stream-data: {error}", { circuit with arrivals })
      | .data bytes atMs :: arrivals =>
        some (.ok bytes, { circuit with arrivals, nowMs := atMs }) := by
  unfold waitUserStreamData
  rw [exec_bind_of_ok (exec_get circuit)]
  cases circuit.arrivals with
  | nil => rfl
  | cons arrival arrivals => cases arrival <;> rfl

/-- Nothing is sent when there is nothing to send. -/
theorem exec_send_nil (circuit : Circuit) : exec (send []) circuit = some (.ok (), circuit) := rfl

/-- A send is refused, or its bytes are sent. -/
theorem exec_send {data : Bytes} (hdata : data ≠ []) (circuit : Circuit) :
    exec (send data) circuit =
      match circuit.outgoing.refusal circuit.outgoing.calls with
      | some error => some (.error s!"send_user_stream: {error}", { circuit with
          outgoing.calls := circuit.outgoing.calls + 1 })
      | none => some (.ok (), { circuit with
          outgoing.calls := circuit.outgoing.calls + 1
          outgoing.sent := circuit.outgoing.sent ++ data }) := by
  unfold send
  rw [if_neg (by simpa using hdata), exec_bind_of_ok (exec_get circuit)]
  dsimp only
  cases circuit.outgoing.refusal circuit.outgoing.calls with
  | none => rfl
  | some error => rfl

variable {streamId : StreamId} {refusal : ℕ → Option String} {outgoing : Outgoing}

/-- A send that is refused sends nothing. -/
theorem ends_send (streamId : StreamId) {J : List Arrival → Prop} {calls : ℕ} {sent data : Bytes}
    (hdata : data ≠ []) :
    Ends (fun c => J c.arrivals ∧ c.outgoing = ⟨refusal, calls, sent⟩) (send data)
      (fun _ c => J c.arrivals ∧ refusal calls = none ∧
        c.outgoing = ⟨refusal, calls + 1, sent ++ data⟩)
      (fun e c => J c.arrivals ∧ (refusal calls).isSome ∧ Hindered streamId refusal e ∧
        c.outgoing = ⟨refusal, calls + 1, sent⟩) := by
  rintro ⟨arrivals, nowMs, outgoing⟩ ⟨hJ, rfl⟩
  rw [exec_send hdata]
  dsimp only
  cases hrefusal : refusal calls with
  | none => exact .inl ⟨_, _, rfl, hJ, rfl, rfl⟩
  | some error => exact .inr ⟨_, _, rfl, hJ, rfl, .refused hrefusal, rfl⟩

section

variable {F α : Type} {Comes : Bytes → List Arrival → Prop} {Waits : F → Bytes → Prop}
  {Done : F → α → Bytes → Prop} {feed : F → Bytes → Script (F × Option α)}

/-- What is to come after some bytes were taken stays to come when more of it is taken. -/
def Streams (Comes : Bytes → List Arrival → Prop) : Prop :=
  ∀ got data atMs arrivals, Comes got (.data data atMs :: arrivals) → Comes (got ++ data) arrivals

/-- A flow that has been fed some bytes and is fed the next ones waits on, or has its outcome. -/
def Reads (Comes : Bytes → List Arrival → Prop) (Waits : F → Bytes → Prop)
    (Done : F → α → Bytes → Prop) (feed : F → Bytes → Script (F × Option α)) : Prop :=
  ∀ flow got data atMs arrivals, Waits flow got → Comes got (.data data atMs :: arrivals) →
    ∀ circuit, ∃ flow' outcome,
      exec (feed flow data) circuit = some (.ok (flow', outcome), circuit) ∧
      (outcome = none → Waits flow' (got ++ data)) ∧
      ∀ a, outcome = some a → Done flow' a (got ++ data)

/-- A turn goes on, breaks with the outcome, or has nothing to feed. -/
theorem ends_awaitTurn (hstreams : Streams Comes) (hreads : Reads Comes Waits Done feed)
    (flow : F) (n : ℕ) :
    Ends (fun c => ((∃ got, Waits flow got ∧ Comes got c.arrivals) ∧ c.outgoing = outgoing) ∧
        c.arrivals.length = n)
      (awaitTurn streamId feed flow)
      (fun r c => (∀ flow', r = .inl flow' →
          ((∃ got, Waits flow' got ∧ Comes got c.arrivals) ∧ c.outgoing = outgoing) ∧
            c.arrivals.length < n) ∧
        ∀ p, r = .inr p →
          (∃ got, Done p.1 p.2 got ∧ Comes got c.arrivals) ∧ c.outgoing = outgoing)
      (fun e c => (∃ flow got arrivals, Waits flow got ∧ Comes got arrivals ∧
        received arrivals = []) ∧ Hindered streamId outgoing.refusal e ∧
          c.outgoing = outgoing) := by
  rintro ⟨arrivals, nowMs, sending⟩ ⟨⟨⟨got, hwaits, hcomes⟩, rfl⟩, rfl⟩
  unfold awaitTurn
  have hwait := exec_waitUserStreamData streamId ⟨arrivals, nowMs, sending⟩
  cases arrivals with
  | nil =>
    exact .inr ⟨_, _, exec_bind_of_error hwait _, ⟨flow, got, [], hwaits, hcomes, rfl⟩, .deadline,
      rfl⟩
  | cons arrival arrivals =>
    cases arrival with
    | failed error =>
      exact .inr ⟨_, _, exec_bind_of_error hwait _, ⟨flow, got, _, hwaits, hcomes, rfl⟩,
        .poll error, rfl⟩
    | data bytes atMs =>
      have hnext := hstreams got bytes atMs arrivals hcomes
      obtain ⟨flow', outcome, hfeed, hnone, hsome⟩ :=
        hreads flow got bytes atMs arrivals hwaits hcomes ⟨arrivals, atMs, sending⟩
      rw [exec_bind_of_ok hwait, exec_bind_of_ok hfeed]
      cases outcome with
      | none =>
        refine .inl ⟨_, _, rfl, ?_, ?_⟩
        · rintro _ ⟨⟩
          exact ⟨⟨⟨_, hnone rfl, hnext⟩, rfl⟩, Nat.lt_succ_self _⟩
        · rintro _ ⟨⟩
      | some a =>
        refine .inl ⟨_, _, rfl, ?_, ?_⟩
        · rintro _ ⟨⟩
        · rintro _ ⟨⟩
          exact ⟨⟨_, hsome a rfl, hnext⟩, rfl⟩

/-- The loop ends with the outcome, or with what hinders it when all was fed that came. -/
theorem ends_awaitOutcome (hstreams : Streams Comes) (hreads : Reads Comes Waits Done feed)
    (flow : F) :
    Ends (fun c => (∃ got, Waits flow got ∧ Comes got c.arrivals) ∧ c.outgoing = outgoing)
      (awaitOutcome streamId feed flow)
      (fun p c => (∃ got, Done p.1 p.2 got ∧ Comes got c.arrivals) ∧ c.outgoing = outgoing)
      (fun e c => (∃ flow got arrivals, Waits flow got ∧ Comes got arrivals ∧
        received arrivals = []) ∧ Hindered streamId outgoing.refusal e ∧
          c.outgoing = outgoing) := by
  unfold awaitOutcome
  apply Ends.get_bind
  intro circuit hcircuit
  apply (Ends.iterate (ends_awaitTurn hstreams hreads) (circuit.arrivals.length + 1) flow).mono
  · rintro _ rfl
    exact ⟨hcircuit, Nat.lt_succ_self _⟩
  · exact fun _ _ h => h
  · exact fun _ _ h => h

end

/-! ## Steps that only compute -/

section

variable {F ι ο ε α : Type} [SansIoProtocol F ι ο ε] {flow flow' : F} {input : ι}

/-- An input that is taken moves the flow. -/
theorem exec_give (describe : ε → String) (h : handleInput flow input = .ok (flow', .ok ()))
    (circuit : Circuit) : exec (give describe flow input) circuit = some (.ok flow', circuit) := by
  unfold give
  rw [h]
  rfl

/-- An input that is taken, and the output that is looked for. -/
theorem exec_feed (describe : ε → String) (pick : ο → Option α)
    (h : handleInput flow input = .ok (flow', .ok ())) (circuit : Circuit) :
    exec (feed describe pick flow input) circuit =
      some (.ok (pollFor pick flow'), circuit) := by
  unfold feed
  rw [exec_bind_of_ok (exec_give describe h circuit)]
  rfl

end

end Minip2p.Peer
