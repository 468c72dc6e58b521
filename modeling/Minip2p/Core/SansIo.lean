import Minip2p.Lib.Panic

/-!
# Poll-driven state machines

`SansIoProtocol` of `crates/core/src/sans_io.rs`: a machine takes one input at a time and hands
out its outputs when polled. Inputs may panic; a rejected input (`Err`) leaves a machine that can
be called again, so a run goes on after it.
-/

namespace Minip2p

/-- The `SansIoProtocol` trait. -/
class SansIoProtocol (σ : Type) (ι ο ε : outParam Type) where
  handleInput : σ → ι → Exec (σ × Except ε Unit)
  pollOutput : σ → σ × Option ο

namespace SansIoProtocol

/-- One call on a machine. -/
inductive Call (ι : Type)
  | handleInput (input : ι)
  | pollOutput
deriving DecidableEq, Repr

/-- What a call returned. -/
inductive Reply (ο ε : Type)
  | handled (result : Except ε Unit)
  | polled (output : Option ο)
deriving DecidableEq

/-- The outputs that were polled. -/
def outputs {ο ε : Type} : List (Reply ο ε) → List ο
  | [] => []
  | .polled (some output) :: replies => output :: outputs replies
  | .polled none :: replies | .handled _ :: replies => outputs replies

/-- The errors that inputs were answered with. -/
def errors {ο ε : Type} : List (Reply ο ε) → List ε
  | [] => []
  | .handled (.error e) :: replies => e :: errors replies
  | .handled (.ok _) :: replies | .polled _ :: replies => errors replies

variable {σ ι ο ε : Type} [SansIoProtocol σ ι ο ε]

/-- One call, with what it returned. -/
def step (machine : σ) : Call ι → Exec (σ × Reply ο ε)
  | .handleInput input => do
    let (machine, result) ← handleInput machine input
    return (machine, .handled result)
  | .pollOutput =>
    let (machine, output) := pollOutput machine
    return (machine, .polled output)

/-- A sequence of calls, with the reply to each. -/
def run (machine : σ) : List (Call ι) → Exec (σ × List (Reply ο ε))
  | [] => return (machine, [])
  | call :: calls => do
    let (machine, reply) ← step machine call
    let (machine, replies) ← run machine calls
    return (machine, reply :: replies)

@[simp] theorem outputs_append {ο ε : Type} (first second : List (Reply ο ε)) :
    outputs (first ++ second) = outputs first ++ outputs second := by
  fun_induction outputs first <;> simp_all [outputs]

@[simp] theorem errors_append {ο ε : Type} (first second : List (Reply ο ε)) :
    errors (first ++ second) = errors first ++ errors second := by
  fun_induction errors first <;> simp_all [errors]

theorem step_handleInput {machine machine' : σ} {input : ι} {result : Except ε Unit}
    (h : handleInput machine input = .ok (machine', result)) :
    step machine (.handleInput input) = .ok (machine', .handled result) := by
  rw [step, h]
  rfl

theorem run_handleInput {machine machine' : σ} {input : ι} {result : Except ε Unit}
    {calls : List (Call ι)} {r : σ × List (Reply ο ε)}
    (h : handleInput machine input = .ok (machine', result))
    (hrun : run machine' calls = .ok r) :
    run machine (.handleInput input :: calls) = .ok (r.1, .handled result :: r.2) := by
  rw [run, step_handleInput h]
  show (run machine' calls >>= _) = _
  rw [hrun]
  rfl

theorem run_pollOutput {machine machine' : σ} {output : Option ο} {calls : List (Call ι)}
    {r : σ × List (Reply ο ε)} (h : pollOutput machine = (machine', output))
    (hrun : run machine' calls = .ok r) :
    run machine (.pollOutput :: calls) = .ok (r.1, .polled output :: r.2) := by
  have hstep : step machine .pollOutput = .ok (machine', .polled output) := by
    rw [step, h]
    rfl
  rw [run, hstep]
  show (run machine' calls >>= _) = _
  rw [hrun]
  rfl

/-- Calls in sequence. -/
theorem run_append {machine : σ} {first second : List (Call ι)}
    {r r' : σ × List (Reply ο ε)} (h : run machine first = .ok r)
    (h' : run r.1 second = .ok r') : run machine (first ++ second) = .ok (r'.1, r.2 ++ r'.2) := by
  induction first generalizing machine r with
  | nil =>
    obtain rfl := Except.ok.inj h
    exact h'
  | cons call first ih =>
    rw [run] at h
    obtain ⟨⟨machine₁, reply⟩, hstep, h⟩ := Except.bind_eq_ok_iff.mp h
    obtain ⟨⟨machine₂, replies⟩, hrest, h⟩ := Except.bind_eq_ok_iff.mp h
    obtain rfl := Except.ok.inj h
    have hboth := ih hrest h'
    rw [List.cons_append, run, hstep]
    show (run machine₁ (first ++ second) >>= _) = _
    rw [hboth]
    rfl

/-- A run of calls can be cut in two. -/
theorem of_run_append {machine machine' : σ} {first second : List (Call ι)}
    {replies : List (Reply ο ε)} (h : run machine (first ++ second) = .ok (machine', replies)) :
    ∃ machine₁ replies₁ replies₂, run machine first = .ok (machine₁, replies₁) ∧
      run machine₁ second = .ok (machine', replies₂) ∧ replies = replies₁ ++ replies₂ := by
  induction first generalizing machine replies with
  | nil => exact ⟨machine, [], replies, rfl, h, rfl⟩
  | cons call first ih =>
    rw [List.cons_append, run] at h
    obtain ⟨⟨machine₁, reply⟩, hstep, h⟩ := Except.bind_eq_ok_iff.mp h
    obtain ⟨⟨machine₂, rest⟩, hrest, h⟩ := Except.bind_eq_ok_iff.mp h
    obtain ⟨rfl, rfl⟩ := Prod.mk.inj (Except.ok.inj h)
    obtain ⟨machine₃, replies₁, replies₂, hfirst, hsecond, rfl⟩ := ih hrest
    refine ⟨machine₃, reply :: replies₁, replies₂, ?_, hsecond, rfl⟩
    rw [run, hstep]
    show (run machine₁ first >>= _) = _
    rw [hfirst]
    rfl

/-- The inputs among the calls. -/
def inputs {ι : Type} (calls : List (Call ι)) : List ι :=
  calls.filterMap fun
    | .handleInput input => some input
    | .pollOutput => none

@[simp] theorem inputs_append {ι : Type} (first second : List (Call ι)) :
    inputs (first ++ second) = inputs first ++ inputs second :=
  List.filterMap_append

@[simp] theorem inputs_handleInput {ι : Type} (input : ι) : inputs [.handleInput input] = [input] :=
  rfl

@[simp] theorem inputs_pollOutput {ι : Type} : inputs [(.pollOutput : Call ι)] = [] := rfl

@[simp] theorem outputs_handled {ο ε : Type} (result : Except ε Unit) :
    outputs [(.handled result : Reply ο ε)] = [] := rfl

@[simp] theorem outputs_polled {ο ε : Type} (output : Option ο) :
    outputs [(.polled output : Reply ο ε)] = output.toList := by
  cases output <;> rfl

/-- Every call is replied to once. -/
theorem length_run {machine machine' : σ} {calls : List (Call ι)} {replies : List (Reply ο ε)}
    (h : run machine calls = .ok (machine', replies)) : calls.length = replies.length := by
  induction calls generalizing machine replies with
  | nil =>
    obtain ⟨-, rfl⟩ := Prod.mk.inj (Except.ok.inj h)
    rfl
  | cons call calls ih =>
    rw [run] at h
    obtain ⟨⟨machine₁, reply⟩, -, h⟩ := Except.bind_eq_ok_iff.mp h
    obtain ⟨⟨machine₂, replies⟩, hrest, h⟩ := Except.bind_eq_ok_iff.mp h
    obtain ⟨rfl, rfl⟩ := Prod.mk.inj (Except.ok.inj h)
    rw [List.length_cons, List.length_cons, ih hrest]

theorem zip_fst_run {machine machine' : σ} {calls : List (Call ι)} {replies : List (Reply ο ε)}
    (h : run machine calls = .ok (machine', replies)) : (calls.zip replies).map Prod.fst = calls :=
  List.map_fst_zip (Nat.le_of_eq (length_run h))

theorem zip_snd_run {machine machine' : σ} {calls : List (Call ι)} {replies : List (Reply ο ε)}
    (h : run machine calls = .ok (machine', replies)) :
    (calls.zip replies).map Prod.snd = replies :=
  List.map_snd_zip (Nat.le_of_eq (length_run h).symm)

/-- What every input keeps that is answered as `P` says, and every poll, a run keeps. -/
theorem run_invariant {I : List (Call ι × Reply ο ε) → σ → Prop} {P : Call ι × Reply ο ε → Prop}
    (hinput : ∀ history machine input machine' result, I history machine →
      handleInput machine input = .ok (machine', result) →
      P (.handleInput input, .handled result) →
      I (history ++ [(.handleInput input, .handled result)]) machine')
    (hpoll : ∀ history machine, I history machine →
      I (history ++ [(.pollOutput, .polled (pollOutput machine).2)]) (pollOutput machine).1)
    {machine machine' : σ} {calls : List (Call ι)} {replies : List (Reply ο ε)}
    (hstart : I [] machine) (hrun : run machine calls = .ok (machine', replies))
    (hP : ∀ exchange ∈ calls.zip replies, P exchange) : I (calls.zip replies) machine' := by
  suffices hfrom : ∀ (history : List (Call ι × Reply ο ε)) (machine : σ) (calls : List (Call ι))
      (replies : List (Reply ο ε)), I history machine →
      run machine calls = .ok (machine', replies) → (∀ exchange ∈ calls.zip replies, P exchange) →
      I (history ++ calls.zip replies) machine' from hfrom [] machine calls replies hstart hrun hP
  intro history machine calls replies hstart hrun hP
  induction calls generalizing machine replies history with
  | nil =>
    obtain ⟨rfl, rfl⟩ := Prod.mk.inj (Except.ok.inj hrun)
    rw [List.zip_nil_left, List.append_nil]
    exact hstart
  | cons call calls ih =>
    rw [run] at hrun
    obtain ⟨⟨machine₁, reply⟩, hcall, hrun⟩ := Except.bind_eq_ok_iff.mp hrun
    obtain ⟨⟨machine₂, replies⟩, hrest, hrun⟩ := Except.bind_eq_ok_iff.mp hrun
    obtain ⟨rfl, rfl⟩ := Prod.mk.inj (Except.ok.inj hrun)
    rw [List.zip_cons_cons] at hP ⊢
    have hnext : I (history ++ [(call, reply)]) machine₁ := by
      cases call with
      | handleInput input =>
        obtain ⟨⟨machine₃, result⟩, hhandle, hcall⟩ := Except.bind_eq_ok_iff.mp hcall
        obtain ⟨rfl, rfl⟩ := Prod.mk.inj (Except.ok.inj hcall)
        exact hinput _ _ _ _ _ hstart hhandle (hP _ List.mem_cons_self)
      | pollOutput =>
        obtain ⟨rfl, rfl⟩ := Prod.mk.inj (Except.ok.inj hcall)
        exact hpoll _ _ hstart
    have hlast := ih _ _ _ hnext hrest fun exchange h => hP exchange (List.mem_cons_of_mem _ h)
    rwa [List.append_assoc] at hlast

theorem ne_error_of_errors {replies : List (Reply ο ε)} (h : errors replies = [])
    {reply : Reply ο ε} (hmem : reply ∈ replies) (e : ε) : reply ≠ .handled (.error e) := by
  rintro rfl
  obtain ⟨before, after, rfl⟩ := List.append_of_mem hmem
  rw [errors_append] at h
  cases (List.append_eq_nil_iff.mp h).2

/-- `guard` holds of the state before each input of the run. -/
def GuardedRun (guard : σ → ι → Prop) (machine : σ) : List (Call ι) → Prop
  | [] => True
  | .handleInput input :: calls =>
    guard machine input ∧
      ∀ r, handleInput machine input = .ok r → GuardedRun guard r.1 calls
  | .pollOutput :: calls => GuardedRun guard (pollOutput machine).1 calls

/-- A guard that is exact for one input is exact for a whole run: no call panics if and only if
it holds before each input. -/
theorem returns_run_iff {guard : σ → ι → Prop}
    (hguard : ∀ machine input,
      Exec.Returns (handleInput machine input : Exec (σ × Except ε Unit)) ↔ guard machine input)
    (machine : σ) (calls : List (Call ι)) :
    Exec.Returns (run machine calls : Exec (σ × List (Reply ο ε))) ↔
      GuardedRun guard machine calls := by
  induction calls generalizing machine with
  | nil => exact ⟨fun _ => trivial, fun _ => Exec.returns_ok _⟩
  | cons call calls ih =>
    -- the reply that is put in front does not decide whether the rest returns
    have hrest : ∀ (machine : σ) (reply : Reply ο ε), Exec.Returns (do
        let (machine, replies) ← run machine calls
        return (machine, reply :: replies)) ↔ GuardedRun guard machine calls := by
      intro machine reply
      rw [← ih]
      exact Exec.returns_bind_iff_of_forall fun _ => Exec.returns_ok _
    cases call with
    | pollOutput => exact hrest (pollOutput machine : σ × Option ο).1 _
    | handleInput input =>
      simp only [run, step, GuardedRun, ← hguard, bind_assoc, Exec.returns_bind_iff, pure_bind]
      constructor
      · rintro ⟨r, hr, hreturns⟩
        refine ⟨⟨r, hr⟩, ?_⟩
        rintro r' hr'
        -- the machine is a function of its input: both results are the same
        obtain rfl : r = r' := Except.ok.inj (hr.symm.trans hr')
        exact (hrest r.1 (.handled r.2)).mp (Exec.returns_bind_iff.mpr hreturns)
      · rintro ⟨⟨r, hr⟩, hnext⟩
        exact ⟨r, hr, Exec.returns_bind_iff.mp ((hrest r.1 (.handled r.2)).mpr (hnext r hr))⟩

/-! ## Driven machines -/

/-- A machine with what has come out of it. A panic ends it. -/
structure Driven (σ ο ε : Type) where
  machine : Option σ
  outputs : List ο
  errors : List ε

namespace Driven

/-- A machine that nobody has used yet. -/
def start (machine : σ) : Driven σ ο ε := ⟨some machine, [], []⟩

/-- The driver hands an input over. -/
def give (driven : Driven σ ο ε) (input : ι) : Driven σ ο ε :=
  match driven.machine with
  | none => driven
  | some machine =>
    match handleInput machine input with
    | .error _ => { driven with machine := none }
    | .ok (machine, .ok ()) => { driven with machine := some machine }
    | .ok (machine, .error e) =>
      { driven with machine := some machine, errors := driven.errors ++ [e] }

/-- The driver takes the next output. -/
def poll (driven : Driven σ ο ε) : Driven σ ο ε :=
  match driven.machine with
  | none => driven
  | some machine =>
    { driven with
      machine := some (pollOutput machine).1
      outputs := driven.outputs ++ (pollOutput machine).2.toList }

/-- Some polls later. -/
def polls (driven : Driven σ ο ε) : ℕ → Driven σ ο ε
  | 0 => driven
  | n + 1 => driven.poll.polls n

variable {machine machine' : σ} {outputs : List ο} {errors : List ε} {input : ι}

theorem give_ok (h : handleInput machine input = .ok (machine', .ok ())) :
    give ⟨some machine, outputs, errors⟩ input = ⟨some machine', outputs, errors⟩ := by
  simp only [give, h]

theorem give_error {e : ε} (h : handleInput machine input = .ok (machine', .error e)) :
    give ⟨some machine, outputs, errors⟩ input = ⟨some machine', outputs, errors ++ [e]⟩ := by
  simp only [give, h]

theorem give_panic {p : Panic}
    (h : (handleInput machine input : Exec (σ × Except ε Unit)) = .error p) :
    give ⟨some machine, outputs, errors⟩ input = ⟨none, outputs, errors⟩ := by
  simp only [give, h]

theorem poll_some : poll ⟨some machine, outputs, errors⟩ =
    ⟨some (pollOutput machine).1, outputs ++ (pollOutput machine).2.toList, errors⟩ := rfl

/-- The machine after an input is the one the input returned. -/
theorem handleInput_of_give (h : machine' ∈ (give ⟨some machine, outputs, errors⟩ input).machine) :
    ∃ result, handleInput machine input = .ok (machine', result) := by
  cases hinput : (handleInput machine input : Exec (σ × Except ε Unit)) with
  | error p =>
    rw [give_panic hinput] at h
    cases h
  | ok r =>
    obtain ⟨after, result⟩ := r
    refine ⟨result, ?_⟩
    cases result with
    | ok =>
      rw [give_ok hinput] at h
      obtain rfl := Option.some.inj h
      rfl
    | error e =>
      rw [give_error hinput] at h
      obtain rfl := Option.some.inj h
      rfl

/-- `pending` are the outputs a machine holds, in the order in which polls hand them out. -/
structure Queues (pending : σ → List ο) : Prop where
  first (machine : σ) : (pollOutput machine).2 = (pending machine).head?
  rest (machine : σ) : pending (pollOutput machine).1 = (pending machine).tail

/-- Everything that has come out of a machine or is held by it. -/
def all (pending : σ → List ο) (driven : Driven σ ο ε) : List ο :=
  driven.outputs ++ (driven.machine.map pending).getD []

variable {pending : σ → List ο}

/-- A poll moves an output from the queue to what was handed out. -/
theorem all_poll (h : Queues pending) (driven : Driven σ ο ε) :
    driven.poll.all pending = driven.all pending := by
  obtain ⟨machine, outputs, errors⟩ := driven
  cases machine with
  | none => rfl
  | some machine =>
    show (outputs ++ (pollOutput machine).2.toList) ++ pending (pollOutput machine).1 =
      outputs ++ pending machine
    rw [h.first, h.rest, List.append_assoc]
    cases pending machine with
    | nil => rfl
    | cons output rest => rfl

/-- As many polls as there are outputs hand all of them out. -/
theorem outputs_polls (h : Queues pending) {driven : Driven σ ο ε} {n : ℕ}
    (hn : ∀ machine ∈ driven.machine, (pending machine).length ≤ n) :
    (driven.polls n).outputs = driven.all pending := by
  induction n generalizing driven with
  | zero =>
    obtain ⟨machine, outputs, errors⟩ := driven
    cases machine with
    | none => exact (List.append_nil _).symm
    | some machine =>
      have hnone := List.length_eq_zero_iff.mp (Nat.le_zero.mp (hn machine rfl))
      show outputs = outputs ++ pending machine
      rw [hnone, List.append_nil]
  | succ n ih =>
    rw [polls, ih, all_poll h]
    intro machine hmachine
    obtain ⟨before, outputs, errors⟩ := driven
    cases before with
    | none => cases hmachine
    | some before =>
      have hbefore := hn before rfl
      obtain rfl : (pollOutput before).1 = machine := Option.some.inj hmachine
      rw [h.rest, List.length_tail]
      omega

/-- An input hands out nothing by itself. -/
theorem outputs_give (driven : Driven σ ο ε) (input : ι) :
    (driven.give input).outputs = driven.outputs := by
  rw [give]
  split
  · rfl
  · split <;> rfl

/-- What has come out stays out. -/
theorem outputs_prefix_polls (driven : Driven σ ο ε) (n : ℕ) :
    driven.outputs <+: (driven.polls n).outputs := by
  induction n generalizing driven with
  | zero => exact List.prefix_rfl
  | succ n ih =>
    refine List.IsPrefix.trans ?_ (ih driven.poll)
    obtain ⟨machine, outputs, errors⟩ := driven
    cases machine with
    | none => exact List.prefix_rfl
    | some machine => exact List.prefix_append _ _

theorem errors_polls (driven : Driven σ ο ε) (n : ℕ) :
    (driven.polls n).errors = driven.errors := by
  induction n generalizing driven with
  | zero => rfl
  | succ n ih =>
    rw [polls, ih]
    obtain ⟨machine, outputs, errors⟩ := driven
    cases machine <;> rfl

theorem machine_polls (driven : Driven σ ο ε) (n : ℕ) :
    (driven.polls n).machine.isNone = driven.machine.isNone := by
  induction n generalizing driven with
  | zero => rfl
  | succ n ih =>
    rw [polls, ih]
    obtain ⟨machine, outputs, errors⟩ := driven
    cases machine <;> rfl

/-- What has come out of a machine none of whose inputs failed. -/
structure Gave (driven : Driven σ ο ε) (outputs : List ο) : Prop where
  returned : driven.machine.isSome
  outputs_eq : driven.outputs = outputs
  errors_eq : driven.errors = []

/-- As many polls as there are outputs leave the caller with all of them. -/
theorem gave_polls (h : Queues pending) {n : ℕ} (hn : (pending machine).length ≤ n)
    {given : List ο} (hgiven : outputs ++ pending machine = given) :
    (polls (⟨some machine, outputs, []⟩ : Driven σ ο ε) n).Gave given where
  returned := Option.isNone_eq_false_iff.mp (machine_polls _ n)
  outputs_eq := by
    rw [← hgiven]
    refine outputs_polls h fun machine' hmachine => ?_
    obtain rfl := Option.some.inj hmachine
    exact hn
  errors_eq := errors_polls _ n

end Driven

end SansIoProtocol

end Minip2p
