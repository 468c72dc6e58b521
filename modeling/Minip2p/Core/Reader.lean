import Minip2p.Core.Front
import Minip2p.Core.SansIo

/-!
# Machines that read one message

A `Reader` says how a machine is looked at: the outputs it holds, the buffer it waits with, what it
has found. If the machine makes of its buffer what `Wire.Front` says (`Reader.Lawful`), then what
its caller has seen is what the machine has come to (`Reader.Shows`), however it was fed and polled.
-/

namespace Minip2p

open SansIoProtocol (Driven)
open Wire (Front Seen Received)

/-- The view of a machine that reads one message. -/
structure Reader (σ ο α : Type) where
  /-- What every machine keeps. -/
  valid : σ → Prop
  /-- The outputs that are held, in the order in which polls hand them out. -/
  pending : σ → List ο
  /-- What an output says was found. -/
  found : ο → Option α
  /-- The bytes behind the message that an output passes on. -/
  passed : ο → Bytes
  /-- The buffer, as long as the message is awaited. -/
  buffer : σ → Option Bytes
  result : σ → Option α
  /-- The bytes behind the message that are not an output yet. -/
  held : σ → Bytes

namespace Reader

variable {σ ι ο ε μ α : Type} [SansIoProtocol σ ι ο ε]

/-- What is found among some outputs. -/
def finds (reader : Reader σ ο α) (outputs : List ο) : List α := outputs.filterMap reader.found

/-- The bytes that some outputs pass on. -/
def passes (reader : Reader σ ο α) (outputs : List ο) : Bytes := outputs.flatMap reader.passed

/-- The machine `before` took an input with which it comes to `front`. -/
def Takes (reader : Reader σ ο α) (bridge : α → Bytes → Bytes) (before : σ)
    (result : Exec (σ × Except ε Unit)) : Front α → Prop
  | .waiting buf => ∃ after, result = .ok (after, .ok ()) ∧ reader.buffer after = some buf ∧
      reader.result after = none ∧ reader.pending after = reader.pending before ∧
      reader.valid after
  | .failed => ∃ after e, result = .ok (after, .error e) ∧ reader.buffer after = none ∧
      reader.result after = none ∧ reader.pending after = reader.pending before ∧
      reader.valid after
  | .panicked => ∃ p, result = .error p
  | .accepted value rest => ∃ after, result = .ok (after, .ok ()) ∧ reader.buffer after = none ∧
      reader.result after = some value ∧
      reader.finds (reader.pending after) = reader.finds (reader.pending before) ++ [value] ∧
      reader.passes (reader.pending after) ++ reader.held after =
        reader.passes (reader.pending before) ++ bridge value rest ∧
      reader.valid after

/-- The machine reads its message with `receive` and `accept`, and passes on `bridge value rest` of
the bytes behind it. -/
structure Lawful (reader : Reader σ ο α) (data : Bytes → ι) (receive : Bytes → Exec (Received ε μ))
    (accept : μ → Option α) (bridge : α → Bytes → Bytes) : Prop where
  queues : Driven.Queues reader.pending
  poll (machine : σ) :
    reader.buffer (SansIoProtocol.pollOutput machine).1 = reader.buffer machine ∧
    reader.result (SansIoProtocol.pollOutput machine).1 = reader.result machine ∧
    reader.held (SansIoProtocol.pollOutput machine).1 = reader.held machine ∧
    (reader.valid machine → reader.valid (SansIoProtocol.pollOutput machine).1)
  waiting {machine : σ} {buf : Bytes} (hvalid : reader.valid machine)
    (hbuffer : reader.buffer machine = some buf) (hresult : reader.result machine = none)
    (piece : Bytes) :
    reader.Takes bridge machine (SansIoProtocol.handleInput machine (data piece))
      (Front.read receive accept (buf ++ piece))
  failed {machine : σ} (hvalid : reader.valid machine) (hbuffer : reader.buffer machine = none)
    (hresult : reader.result machine = none) (piece : Bytes) :
    SansIoProtocol.handleInput machine (data piece) = .ok (machine, .ok ())
  accepted {machine : σ} {value : α} (hvalid : reader.valid machine)
    (hbuffer : reader.buffer machine = none) (hresult : reader.result machine = some value)
    (piece : Bytes) : ∃ after,
    SansIoProtocol.handleInput machine (data piece) = .ok (after, .ok ()) ∧
      reader.buffer after = none ∧ reader.result after = some value ∧
      reader.finds (reader.pending after) = reader.finds (reader.pending machine) ∧
      reader.passes (reader.pending after) ++ reader.held after =
        reader.passes (reader.pending machine) ++ reader.held machine ++ bridge value piece ∧
      reader.valid after
  bridge_append (value : α) (first second : Bytes) :
    bridge value (first ++ second) = bridge value first ++ bridge value second

/-- What the caller has and what the machine holds is what the machine has come to. -/
inductive Shows (reader : Reader σ ο α) (bridge : α → Bytes → Bytes) :
    Driven σ ο ε → Front α → Prop
  | waiting {machine : σ} {outputs : List ο} {buf : Bytes} (hvalid : reader.valid machine)
    (hbuffer : reader.buffer machine = some buf) (hresult : reader.result machine = none)
    (hfinds : reader.finds (outputs ++ reader.pending machine) = [])
    (hpasses : reader.passes (outputs ++ reader.pending machine) = []) :
    Shows reader bridge ⟨some machine, outputs, []⟩ (.waiting buf)
  | failed {machine : σ} {outputs : List ο} {errors : List ε} (hvalid : reader.valid machine)
    (hbuffer : reader.buffer machine = none) (hresult : reader.result machine = none)
    (hfinds : reader.finds (outputs ++ reader.pending machine) = [])
    (hpasses : reader.passes (outputs ++ reader.pending machine) = []) (herrors : errors ≠ []) :
    Shows reader bridge ⟨some machine, outputs, errors⟩ .failed
  | panicked {outputs : List ο} (hfinds : reader.finds outputs = [])
    (hpasses : reader.passes outputs = []) : Shows reader bridge ⟨none, outputs, []⟩ .panicked
  | accepted {machine : σ} {outputs : List ο} {value : α} {rest : Bytes}
    (hvalid : reader.valid machine) (hbuffer : reader.buffer machine = none)
    (hresult : reader.result machine = some value)
    (hfinds : reader.finds (outputs ++ reader.pending machine) = [value])
    (hpasses : reader.passes (outputs ++ reader.pending machine) ++ reader.held machine =
      bridge value rest) :
    Shows reader bridge ⟨some machine, outputs, []⟩ (.accepted value rest)

variable {reader : Reader σ ο α} {data : Bytes → ι} {receive : Bytes → Exec (Received ε μ)}
  {accept : μ → Option α} {bridge : α → Bytes → Bytes} {driven : Driven σ ο ε} {front : Front α}

theorem finds_append (reader : Reader σ ο α) (first second : List ο) :
    reader.finds (first ++ second) = reader.finds first ++ reader.finds second :=
  List.filterMap_append

theorem passes_append (reader : Reader σ ο α) (first second : List ο) :
    reader.passes (first ++ second) = reader.passes first ++ reader.passes second :=
  List.flatMap_append

/-- A poll hands out what the front already found. -/
theorem Shows.poll (hlawful : reader.Lawful data receive accept bridge)
    (h : Shows reader bridge driven front) : Shows reader bridge driven.poll front := by
  have hall := Driven.all_poll hlawful.queues driven
  have hfound := congrArg reader.finds hall
  have hpassed := congrArg reader.passes hall
  cases h with
  | @waiting machine outputs buf hvalid hbuffer hresult hfinds hpasses =>
    obtain ⟨hbuf, hres, -, hkeeps⟩ := hlawful.poll machine
    exact .waiting (hkeeps hvalid) (hbuf.trans hbuffer) (hres.trans hresult) (hfound.trans hfinds)
      (hpassed.trans hpasses)
  | @failed machine outputs errors hvalid hbuffer hresult hfinds hpasses herrors =>
    obtain ⟨hbuf, hres, -, hkeeps⟩ := hlawful.poll machine
    exact .failed (hkeeps hvalid) (hbuf.trans hbuffer) (hres.trans hresult) (hfound.trans hfinds)
      (hpassed.trans hpasses) herrors
  | panicked hfinds hpasses => exact .panicked hfinds hpasses
  | @accepted machine outputs value rest hvalid hbuffer hresult hfinds hpasses =>
    obtain ⟨hbuf, hres, hheld, hkeeps⟩ := hlawful.poll machine
    refine .accepted (hkeeps hvalid) (hbuf.trans hbuffer) (hres.trans hresult)
      (hfound.trans hfinds) ?_
    rw [hheld, ← hpasses]
    exact congrArg (· ++ reader.held machine) hpassed

/-- More bytes reach the front as one piece. -/
theorem Shows.give (hlawful : reader.Lawful data receive accept bridge)
    (h : Shows reader bridge driven front) (piece : Bytes) :
    Shows reader bridge (driven.give (data piece)) (Front.feed receive accept front piece) := by
  cases h with
  | @waiting machine outputs buf hvalid hbuffer hresult hfinds hpasses =>
    have htakes := hlawful.waiting hvalid hbuffer hresult piece
    show Shows reader bridge _ (Front.read receive accept (buf ++ piece))
    cases hread : Front.read receive accept (buf ++ piece) with
    | waiting buf' =>
      rw [hread] at htakes
      obtain ⟨after, hgive, hbuf, hres, hpending, hafter⟩ := htakes
      rw [Driven.give_ok hgive]
      exact .waiting hafter hbuf hres (by rw [hpending]; exact hfinds)
        (by rw [hpending]; exact hpasses)
    | failed =>
      rw [hread] at htakes
      obtain ⟨after, e, hgive, hbuf, hres, hpending, hafter⟩ := htakes
      rw [Driven.give_error hgive]
      exact .failed hafter hbuf hres (by rw [hpending]; exact hfinds)
        (by rw [hpending]; exact hpasses) (by simp)
    | panicked =>
      rw [hread] at htakes
      obtain ⟨p, hgive⟩ := htakes
      rw [Driven.give_panic hgive]
      rw [finds_append] at hfinds
      rw [passes_append] at hpasses
      exact .panicked (List.append_eq_nil_iff.mp hfinds).1 (List.append_eq_nil_iff.mp hpasses).1
    | accepted value rest =>
      rw [hread] at htakes
      obtain ⟨after, hgive, hbuf, hres, hfound, hpassed, hafter⟩ := htakes
      rw [Driven.give_ok hgive]
      refine .accepted hafter hbuf hres ?_ ?_
      · rw [finds_append, hfound, ← List.append_assoc, ← finds_append, hfinds, List.nil_append]
      · rw [passes_append, List.append_assoc, hpassed, ← List.append_assoc, ← passes_append,
          hpasses, List.nil_append]
  | failed hvalid hbuffer hresult hfinds hpasses herrors =>
    rw [Driven.give_ok (hlawful.failed hvalid hbuffer hresult piece)]
    exact .failed hvalid hbuffer hresult hfinds hpasses herrors
  | panicked hfinds hpasses => exact .panicked hfinds hpasses
  | @accepted machine outputs value rest hvalid hbuffer hresult hfinds hpasses =>
    obtain ⟨after, hgive, hbuf, hres, hfound, hpassed, hafter⟩ :=
      hlawful.accepted hvalid hbuffer hresult piece
    rw [Driven.give_ok hgive]
    refine .accepted hafter hbuf hres ?_ ?_
    · rw [finds_append, hfound, ← finds_append, hfinds]
    · rw [passes_append, List.append_assoc, hpassed, ← List.append_assoc, ← List.append_assoc,
        ← passes_append, hpasses, hlawful.bridge_append]

/-- What a caller sees that polls until it gets no more outputs, of which there are three. -/
def seenBy (reader : Reader σ ο α) (driven : Driven σ ο ε) : Seen α where
  found := reader.finds (driven.polls 3).outputs
  bridge := reader.passes (driven.polls 3).outputs
  failed := !(driven.polls 3).errors.isEmpty
  panicked := (driven.polls 3).machine.isNone

/-- Once nothing is held back, the caller sees what the machine has come to. -/
theorem Shows.seenBy (hlawful : reader.Lawful data receive accept bridge)
    (hpending : ∀ machine, (reader.pending machine).length ≤ 3)
    (hheld : ∀ machine ∈ driven.machine, reader.held machine = [])
    (h : Shows reader bridge driven front) : reader.seenBy driven = front.seen bridge := by
  have houtputs : (driven.polls 3).outputs = driven.all reader.pending :=
    Driven.outputs_polls hlawful.queues fun machine _ => hpending machine
  rw [Reader.seenBy, houtputs, Driven.errors_polls, Driven.machine_polls]
  cases h with
  | waiting hvalid hbuffer hresult hfinds hpasses =>
    simp only [Driven.all, Option.map_some, Option.getD_some, hfinds, hpasses]
    rfl
  | failed hvalid hbuffer hresult hfinds hpasses herrors =>
    simp only [Driven.all, Option.map_some, Option.getD_some, hfinds, hpasses,
      List.isEmpty_eq_false_iff.mpr herrors]
    rfl
  | panicked hfinds hpasses =>
    simp only [Driven.all, Option.map_none, Option.getD_none, List.append_nil, hfinds, hpasses]
    rfl
  | accepted hvalid hbuffer hresult hfinds hpasses =>
    rw [hheld _ rfl, List.append_nil] at hpasses
    simp only [Driven.all, Option.map_some, Option.getD_some, hfinds, hpasses]
    rfl

/-- A machine before it was given anything. -/
theorem Shows.start {machine : σ} (hvalid : reader.valid machine)
    (hbuffer : reader.buffer machine = some [])
    (hresult : reader.result machine = none)
    (hfinds : reader.finds (reader.pending machine) = [])
    (hpasses : reader.passes (reader.pending machine) = []) :
    reader.Shows bridge (Driven.start machine : Driven σ ο ε) (.waiting []) :=
  .waiting hvalid hbuffer hresult hfinds hpasses

/-- A caller that feeds and polls a machine which holds nothing back. -/
theorem Lawful.seenBy_run (hlawful : reader.Lawful data receive accept bridge)
    (hpending : ∀ machine, (reader.pending machine).length ≤ 3)
    (hheld : ∀ machine, reader.held machine = [])
    (hstart : reader.Shows bridge driven (.waiting [])) (ops : List (Chunking.Op UInt8)) :
    reader.seenBy (Chunking.run (fun driven piece => driven.give (data piece)) Driven.poll driven
      ops) = (Front.run receive accept (.waiting []) (Chunking.pieces ops)).seen bridge := by
  have hrun := Chunking.run_simulates (R := reader.Shows bridge)
    (fun _ _ piece h => h.give hlawful piece) (fun _ _ h => h.poll hlawful) hstart ops
  exact hrun.seenBy hlawful hpending fun machine _ => hheld machine

end Reader

end Minip2p
