import Mathlib.Data.List.Nodup
import Minip2p.Swarm.Handshake
import Minip2p.Swarm.Opens
import Minip2p.Swarm.PingRelease
import Minip2p.Swarm.Traffic

/-!
# Tokens of open requests

A token links a request for a stream to the answer of the driver, which comes later, or twice, or
never. Tokens are numbered from one, so until the counter comes round no two requests share one,
and the requests the core holds are those it made and has neither been answered nor given up. Any
other answer is reported and changes nothing else.
-/

namespace Minip2p.Swarm

open SwarmCore
open Tickets (Outstanding issues ledgerAfter)

/-! ## Numbering -/

/-- Until the counter comes round, tokens are numbered in order. -/
theorem Takes.numbered {next next' : UInt64} {tokens : List OpenStreamToken}
    (h : Takes next tokens next') (hnext : 0 < next.toNat)
    (hfew : next.toNat + tokens.length < 2 ^ 64) :
    tokens.map (·.raw.toNat) = List.range' next.toNat tokens.length := by
  induction tokens generalizing next with
  | nil => rfl
  | cons token tokens ih =>
    have hne : next ≠ 0 := by
      intro heq
      rw [heq] at hnext
      exact absurd hnext (by decide)
    have htake : takeOpenToken next = (⟨next⟩, next + 1) := if_pos hne
    rw [Takes, htake] at h
    obtain ⟨htoken, hrest⟩ : token = ⟨next⟩ ∧ Takes (next + 1) tokens next' := h
    rw [List.length_cons] at hfew
    have hsucc : (next + 1).toNat = next.toNat + 1 := by
      rw [UInt64.toNat_add, UInt64.toNat_one]
      omega
    have htail := ih hrest (by omega) (by omega)
    rw [hsucc] at htail
    rw [List.map_cons, htail, htoken, List.length_cons, List.range'_succ]

/-! ## The ledger of a run -/

/-- The ledger gives up the connections that the core gives up. -/
theorem SwarmCore.givesUp?_eq_some_iff (s : SwarmCore) (call : Call) (c : ConnectionId) :
    s.givesUp? call = some c ↔ GivesUp s call c := by
  constructor
  · intro h
    rcases call with (⟨event, nowMs⟩ | _ | _ | _ | _) | _
    case input.transport =>
      cases event with
      | connected d endpoint =>
        obtain ⟨hold, hne⟩ := Option.filter_eq_some_iff.mp h
        obtain ⟨p, hp, hold⟩ := Option.bind_eq_some_iff.mp hold
        exact .inr ⟨d, p, ⟨endpoint, nowMs, rfl, hp⟩, hold, of_decide_eq_true hne⟩
      | closed d => exact .inl h
      | _ => cases h
    all_goals cases h
  · rintro (hclose | ⟨d, p, ⟨endpoint, nowMs, rfl, hp⟩, hold, hne⟩)
    · rcases call with (⟨event, nowMs⟩ | _ | _ | _ | _) | _
      case input.transport => cases event <;> first | exact hclose | cases hclose
      all_goals cases hclose
    · show (endpoint.peerId.bind fun p => s.peerToConn[p]?).filter (· ≠ d) = some c
      rw [hp, Option.bind_some, hold]
      exact Option.filter_eq_some_iff.mpr ⟨rfl, decide_eq_true hne⟩

section Runs

variable [Sha256] [MultihashCodec]

/-- The entries that a call makes in the ledger. -/
def entriesBy (s : SwarmCore) (call : Call) : List OpenEntry :=
  s.settledBy call ++
    (openRequests ((step s call).actions.drop s.actions.length)).map fun ask =>
      .issued ask.1 ask.2

/-- What happened to the requests in a run. -/
def openLog : SwarmCore → List Call → List OpenEntry
  | _, [] => []
  | s, call :: calls => entriesBy s call ++ openLog (step s call) calls

theorem openLog_concat (s : SwarmCore) (calls : List Call) (call : Call) :
    openLog s (calls ++ [call]) = openLog s calls ++ entriesBy (run s calls) call := by
  induction calls generalizing s with
  | nil => simp [openLog]
  | cons first calls ih =>
    simp only [List.cons_append, openLog, List.append_assoc]
    rw [ih]
    rfl

omit [Sha256] [MultihashCodec] in
theorem issues_settledBy (s : SwarmCore) (call : Call) : issues (s.settledBy call) = [] := by
  unfold settledBy
  rw [Tickets.issues_append]
  cases call.answers? <;> cases s.givesUp? call <;> rfl

/-- The account of a call, with its entries spelled out. -/
theorem step_entries (s : SwarmCore) {call : Call} (hcall : call ≠ .pollOutput) :
    Traffic (s.upgrade? call).toList (entriesBy s call) s.outbox (step s call).outbox := by
  obtain ⟨asks, htraffic⟩ := step_traffic s hcall
  obtain ⟨added, heq, hadded⟩ := htraffic.actions
  rw [Tickets.issues_append, issues_settledBy, Tickets.issues_map_issued, List.nil_append] at hadded
  have hdrop : (step s call).actions.drop s.actions.length = added := by
    rw [show (step s call).actions = s.actions ++ added from heq, List.drop_left]
  rw [entriesBy, hdrop, hadded]
  exact htraffic

omit [Sha256] [MultihashCodec] in
/-- A poll hands over the oldest action, or none. -/
theorem polledActionBy_append (s : SwarmCore) :
    polledActionBy s .pollOutput ++ s.pollOutput.1.actions = s.actions := by
  unfold polledActionBy
  rcases pollOutput_cases s with ⟨a, actions, hs, h⟩ | ⟨e, events, hs, -, h⟩ | ⟨hs, -, h⟩
  · rw [h, hs]
    rfl
  · rw [h]
    rfl
  · rw [h]
    rfl

/-- A poll makes no entry. -/
theorem entriesBy_pollOutput (s : SwarmCore) : entriesBy s .pollOutput = [] := by
  have hdrop : s.pollOutput.1.actions.drop s.actions.length = [] := by
    apply List.drop_eq_nil_of_le
    rw [← polledActionBy_append s, List.length_append]
    exact Nat.le_add_left _ _
  unfold entriesBy
  rw [show (step s .pollOutput).actions = s.pollOutput.1.actions from rfl, hdrop]
  rfl

/-- The ledger, and the counter behind it, after a log. -/
structure Tracks (log : List OpenEntry) (s : SwarmCore) : Prop where
  ledger : s.outbox.ledger = ledgerAfter log
  counter : Takes 1 ((issues log).map Prod.fst) s.nextOpenToken

theorem Tracks.concat {s : SwarmCore} {log : List OpenEntry} (h : Tracks log s) (call : Call) :
    Tracks (log ++ entriesBy s call) (step s call) := by
  by_cases hcall : call = .pollOutput
  · rw [hcall, entriesBy_pollOutput, List.append_nil, step]
    rcases pollOutput_cases s with ⟨a, actions, -, hpoll⟩ | ⟨e, events, -, -, hpoll⟩ | ⟨-, -, hpoll⟩
    · rw [hpoll]
      exact ⟨h.ledger, h.counter⟩
    · rw [hpoll]
      exact ⟨h.ledger, h.counter⟩
    · rw [hpoll]
      exact h
  · have hentries := step_entries s hcall
    constructor
    · rw [hentries.ledger, h.ledger]
      exact List.foldl_append.symm
    · rw [Tickets.issues_append, List.map_append]
      exact takes_append h.counter hentries.counter

theorem tracks_run {s : SwarmCore} (hs : Tracks [] s) (calls : List Call) :
    Tracks (openLog s calls) (run s calls) := by
  induction calls using List.reverseRecOn with
  | nil => exact hs
  | append_singleton calls call ih =>
    rw [openLog_concat, run_concat]
    exact ih.concat call

/-- The log issues what the run asked for. -/
theorem issues_openLog {s : SwarmCore} (hs : s.actions = []) (calls : List Call) :
    issues (openLog s calls) = openRequests (emittedActions s calls) := by
  induction calls using List.reverseRecOn with
  | nil =>
    rw [emittedActions, run_nil, hs]
    rfl
  | append_singleton calls call ih =>
    rw [openLog_concat, Tickets.issues_append, ih]
    by_cases hcall : call = .pollOutput
    · have hsame : emittedActions s (calls ++ [call]) = emittedActions s calls := by
        rw [emittedActions, emittedActions, polledActions_concat, run_concat, hcall, step,
          List.append_assoc, polledActionBy_append]
      rw [hsame, hcall, entriesBy_pollOutput]
      exact List.append_nil _
    · have hentries := step_entries (run s calls) hcall
      obtain ⟨added, heq, hadded⟩ := hentries.actions
      rw [emittedActions_concat hcall heq, ← hadded]
      exact List.filterMap_append.symm

/-- An answer to no request is reported, and changes nothing else. -/
theorem unknown_answer (s : SwarmCore) {call : Call} {token : OpenStreamToken}
    (hanswers : call.answers? = some token) (htoken : token ∉ s.pendingOpens) :
    ∃ error, step s call = s.pushEvent (.error error) := by
  have hnone : s.pendingOpens[token]? = none := Std.ExtTreeMap.getElem?_eq_none htoken
  rcases call with (_ | _ | ⟨c, t, _, nowMs⟩ | ⟨_, reason, nowMs⟩ | _) | _
  case input.streamOpened =>
    rw [← Option.some.inj hanswers] at hnone
    simp only [step, handleInput, handleStreamOpened, hnone]
    exact ⟨_, rfl⟩
  case input.openStreamFailed =>
    rw [← Option.some.inj hanswers] at hnone
    simp only [step, handleInput, handleOpenStreamFailed, hnone]
    exact ⟨_, rfl⟩
  all_goals cases hanswers

/-- Until 2^64 - 1 streams have been asked for, every request has a token of its own, which is not
zero; the requests that the core holds are those that were neither answered nor given up since; and
an answer to any other token is reported and changes nothing else. -/
theorem openTokens_tracked (identifyConfig : Identify.IdentifyConfig)
    (pingConfig : Ping.PingConfig) (calls : List Call)
    (hfew : (openRequests (emittedActions (.new identifyConfig pingConfig) calls)).length <
      2 ^ 64 - 1) :
    (∀ ask ∈ openRequests (emittedActions (.new identifyConfig pingConfig) calls),
        ask.1.raw ≠ 0) ∧
      ((openRequests (emittedActions (.new identifyConfig pingConfig) calls)).map
        Prod.fst).Nodup ∧
      issues (openLog (.new identifyConfig pingConfig) calls) =
        openRequests (emittedActions (.new identifyConfig pingConfig) calls) ∧
      (∀ token connId,
        (∃ pending, (run (.new identifyConfig pingConfig) calls).pendingOpens[token]? =
            some pending ∧ pending.connId = connId) ↔
          Outstanding token connId (openLog (.new identifyConfig pingConfig) calls)) ∧
      ∀ call token, call.answers? = some token →
        token ∉ (run (.new identifyConfig pingConfig) calls).pendingOpens →
          ∃ error, step (run (.new identifyConfig pingConfig) calls) call =
            (run (.new identifyConfig pingConfig) calls).pushEvent (.error error) := by
  have hissues : issues (openLog (.new identifyConfig pingConfig) calls) =
      openRequests (emittedActions (.new identifyConfig pingConfig) calls) :=
    issues_openLog rfl calls
  have htracks : Tracks (openLog (.new identifyConfig pingConfig) calls)
      (run (.new identifyConfig pingConfig) calls) := by
    apply tracks_run
    refine ⟨?_, rfl⟩
    funext token
    show ((∅ : BTreeMap OpenStreamToken PendingOpen)[token]?).map (·.connId) = none
    rw [Std.ExtTreeMap.getElem?_empty, Option.map_none]
  rw [← hissues] at hfew ⊢
  set log := openLog (.new identifyConfig pingConfig) calls
  have hnumbers := htracks.counter.numbered (by decide) (by
    rw [List.length_map, UInt64.toNat_one]
    omega)
  have hnodup : ((issues log).map Prod.fst).Nodup := by
    apply List.Nodup.of_map (·.raw.toNat)
    rw [hnumbers]
    exact List.nodup_range'
  refine ⟨?_, hnodup, rfl, ?_, fun call token => unknown_answer _⟩
  · intro ask hask hzero
    have hmem : ask.1.raw.toNat ∈ ((issues log).map Prod.fst).map (·.raw.toNat) :=
      List.mem_map_of_mem (List.mem_map_of_mem hask)
    rw [hnumbers, hzero, List.mem_range'_1] at hmem
    exact absurd hmem.1 (by decide)
  · intro token connId
    rw [← Tickets.ledgerAfter_eq_some_iff hnodup, ← htracks.ledger]
    exact Option.map_eq_some_iff.symm

end Runs

/-! ## A concrete run -/

/-- After Alice reconnects, the request for a ping stream on her new connection is outstanding, and
a late failure of the one on her old connection is an error. -/
theorem reconnectRun_tokens :
    Outstanding ⟨4⟩ ⟨2⟩ (@openLog Sample.sha256 multihashCodec Sample.core reconnectRun) ∧
      ∃ error,
        @step Sample.sha256 multihashCodec (Sample.run reconnectRun)
            (.input (.openStreamFailed ⟨2⟩ "closed" 0)) =
          (Sample.run reconnectRun).pushEvent (.error error) := by
  obtain ⟨-, -, -, hledger, hunknown⟩ := @openTokens_tracked Sample.sha256 multihashCodec
    { protocolVersion := "ipfs/0.1.0", agentVersion := "minip2p/0.1.0", protocols := [],
      publicKey := [] } default reconnectRun (by decide +kernel)
  have hpending : ((Sample.run reconnectRun).pendingOpens[(⟨4⟩ : OpenStreamToken)]?).map
      (·.connId) = some ⟨2⟩ := by decide +kernel
  exact ⟨(hledger ⟨4⟩ ⟨2⟩).mp (Option.map_eq_some_iff.mp hpending),
    hunknown (.input (.openStreamFailed ⟨2⟩ "closed" 0)) ⟨2⟩ rfl (by decide +kernel)⟩

end Minip2p.Swarm
