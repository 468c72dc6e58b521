import Mathlib.Data.List.Induction
import Minip2p.Core.SansIo
import Minip2p.Identify.Protocol
import Minip2p.Lib.Runs

/-!
# Initiator streams are released

An initiator closes its write side when the remote has closed its own. A stream whose message is too
long is given up before that, and then nothing closes it.
-/

namespace Minip2p.Identify

open Runs (EachStep)
open SansIoProtocol (Call)

variable [MultihashCodec]

namespace IdentifyProtocol

/-- The machine after a call. -/
def after (identify : IdentifyProtocol) : Call IdentifyInput → IdentifyProtocol
  | .handleInput input => (identify.handleInput input).1
  | .pollOutput => identify.pollOutput.1

/-- A new machine after a sequence of calls. -/
def run (config : IdentifyConfig) (calls : List (Call IdentifyInput)) : IdentifyProtocol :=
  calls.foldl after (new config)

/-- The actions a call adds. -/
def newActions (identify : IdentifyProtocol) (call : Call IdentifyInput) : List IdentifyAction :=
  (identify.after call).actions.drop identify.actions.length

omit [MultihashCodec] in
/-- What a registered initiator stream has received. -/
def inbound (identify : IdentifyProtocol) (p : PeerId) (s : StreamId) : Option Bytes :=
  identify.peers[p]?.bind (·.inboundStreams[s]?)

/-- How many of the actions a call adds close the write side of the stream. -/
def closes (identify : IdentifyProtocol) (call : Call IdentifyInput) (p : PeerId) (s : StreamId) :
    ℕ :=
  (identify.newActions call).count (.closeStreamWrite p s)

/-- The call closes a stream, or removes or migrates a peer. -/
def Discards : Call IdentifyInput → Prop
  | .handleInput (.streamClosed _ _) | .handleInput (.removePeer _)
  | .handleInput (.migratePeer _ _) => True
  | _ => False

/-- The call may give the peer the stream. -/
def Registers (p : PeerId) (s : StreamId) : Call IdentifyInput → Prop
  | .handleInput (.registerInboundStream peerId streamId) => peerId = p ∧ streamId = s
  | .handleInput (.migratePeer _ newPeerId) => newPeerId = p
  | _ => False

/-- The write side of the stream is closed exactly once, by the call or by the
`StreamRemoteWriteClosed` that follows. -/
def Released (config : IdentifyConfig) (before : List (Call IdentifyInput))
    (call : Call IdentifyInput) (p : PeerId) (s : StreamId) : Prop :=
  ∀ between : List (Call IdentifyInput),
    (∀ call' ∈ between, ¬ Registers p s call' ∧
      call' ≠ .handleInput (.streamRemoteWriteClosed p s)) →
    (run config before).closes call p s +
      (run config (before ++ call :: between)).closes
        (.handleInput (.streamRemoteWriteClosed p s)) p s = 1

/-- Every stream that the call takes away is released. -/
def Releases (config : IdentifyConfig) (before : List (Call IdentifyInput))
    (call : Call IdentifyInput) : Prop :=
  ∀ p s, ((run config before).inbound p s).isSome →
    (run config (before ++ [call])).inbound p s = none → ¬ Discards call →
      Released config before call p s

/-- The call brings no registered stream over the limit. -/
def KeepsLimit (config : IdentifyConfig) (before : List (Call IdentifyInput))
    (call : Call IdentifyInput) : Prop :=
  ∀ p s data buf, call = .handleInput (.streamData p s data) →
    (run config before).inbound p s = some buf → (buf ++ data).length ≤ maxMessageSize

variable {identify : IdentifyProtocol} {p q : PeerId} {s t : StreamId} {buf data : Bytes}
  {state : PeerIdentifyState}

section Inbound

omit [MultihashCodec]

theorem inbound_of_some (h : identify.peers[p]? = some state) (s : StreamId) :
    identify.inbound p s = state.inboundStreams[s]? := by
  rw [inbound, h]
  rfl

theorem inbound_of_none (h : identify.peers[p]? = none) (s : StreamId) :
    identify.inbound p s = none := by
  rw [inbound, h]
  rfl

/-- Also of a peer that has no state yet. -/
theorem inbound_getD (identify : IdentifyProtocol) (p : PeerId) (s : StreamId) :
    (identify.peers[p]?.getD default).inboundStreams[s]? = identify.inbound p s := by
  cases hpeer : identify.peers[p]? with
  | none =>
    rw [inbound_of_none hpeer, Option.getD_none,
      show (default : PeerIdentifyState).inboundStreams = ∅ from rfl]
    simp
  | some state => exact (inbound_of_some hpeer s).symm

/-- The streams of a peer are those of its state. -/
theorem inbound_setPeer_self : (identify.setPeer p state).inbound p s = state.inboundStreams[s]? :=
  inbound_of_some Std.ExtTreeMap.getElem?_insert_self s

/-- The streams of other peers are kept. -/
theorem inbound_setPeer_of_ne (h : p ≠ q) :
    (identify.setPeer q state).inbound p s = identify.inbound p s := by
  rw [inbound, setPeer, BTreeMap.getElem?_insert_of_ne h]
  rfl

/-- Forgetting a peer keeps the streams of the others. -/
theorem inbound_erase_of_ne (h : p ≠ q) :
    (identify.removePeer q).inbound p s = identify.inbound p s := by
  rw [inbound, removePeer, BTreeMap.getElem?_erase_of_ne h]
  rfl

/-- A state of a peer that differs in one stream. -/
theorem inbound_setPeer_other (h : ¬ (q = p ∧ t = s))
    (hstate : t ≠ s → state.inboundStreams[s]? = identify.inbound q s) :
    (identify.setPeer q state).inbound p s = identify.inbound p s := by
  by_cases hq : p = q
  · subst hq
    rw [inbound_setPeer_self, hstate fun hts => h ⟨rfl, hts⟩]
  · exact inbound_setPeer_of_ne hq

/-- Registering a stream keeps the others. -/
theorem inbound_registerInboundStream (h : ¬ (q = p ∧ t = s)) :
    (identify.registerInboundStream q t).inbound p s = identify.inbound p s :=
  inbound_setPeer_other h fun hts =>
    (BTreeMap.getElem?_insert_of_ne hts.symm).trans (inbound_getD identify q s)

/-- Data on another stream. -/
theorem inbound_onStreamData_other (h : ¬ (q = p ∧ t = s)) :
    (identify.onStreamData q t data).1.inbound p s = identify.inbound p s := by
  rw [onStreamData]
  cases hpeer : identify.peers[q]? with
  | none => rfl
  | some state =>
    dsimp only
    cases hbuf : state.inboundStreams[t]? with
    | none => rfl
    | some buf =>
      dsimp only
      split
      · exact inbound_setPeer_other h fun hts =>
          (BTreeMap.getElem?_erase_of_ne hts.symm).trans (inbound_of_some hpeer s).symm
      · exact inbound_setPeer_other h fun hts =>
          (BTreeMap.getElem?_insert_of_ne hts.symm).trans (inbound_of_some hpeer s).symm

/-- Data on a stream that is not registered is ignored. -/
theorem onStreamData_of_none (h : identify.inbound p s = none) :
    identify.onStreamData p s data = (identify, []) := by
  rw [onStreamData]
  cases hpeer : identify.peers[p]? with
  | none => rfl
  | some state =>
    rw [inbound_of_some hpeer] at h
    dsimp only
    rw [h]

/-- Data on a registered stream: it is kept, or the stream is given up. -/
theorem onStreamData_of_some (h : identify.inbound p s = some buf) (data : Bytes) :
    (identify.onStreamData p s data).1.inbound p s =
        (if (buf ++ data).length > maxMessageSize then none else some (buf ++ data)) ∧
      (identify.onStreamData p s data).1.actions = identify.actions ∧
      (identify.onStreamData p s data).2 = [] := by
  rw [onStreamData]
  cases hpeer : identify.peers[p]? with
  | none =>
    rw [inbound_of_none hpeer] at h
    cases h
  | some state =>
    rw [inbound_of_some hpeer] at h
    dsimp only
    rw [h]
    dsimp only
    split
    · refine ⟨?_, rfl, rfl⟩
      exact inbound_setPeer_self.trans (BTreeMap.getElem?_erase_eq_none_iff.mpr (.inl rfl))
    · refine ⟨?_, rfl, rfl⟩
      exact inbound_setPeer_self.trans Std.ExtTreeMap.getElem?_insert_self

/-- A half-close keeps the other streams. -/
theorem inbound_onStreamRemoteWriteClosed_other (h : ¬ (q = p ∧ t = s)) :
    (identify.onStreamRemoteWriteClosed q t).1.inbound p s = identify.inbound p s := by
  rw [onStreamRemoteWriteClosed]
  cases hpeer : identify.peers[q]? with
  | none => rfl
  | some state =>
    dsimp only
    cases hbuf : state.inboundStreams[t]? with
    | none => rfl
    | some buf =>
      exact inbound_setPeer_other h fun hts =>
        (BTreeMap.getElem?_erase_of_ne hts.symm).trans (inbound_of_some hpeer s).symm

/-- The half-close takes the stream away, and closes our side of a registered one. -/
theorem onStreamRemoteWriteClosed_spec (identify : IdentifyProtocol) (p : PeerId) (s : StreamId) :
    (identify.onStreamRemoteWriteClosed p s).1.inbound p s = none ∧
      (identify.onStreamRemoteWriteClosed p s).1.actions = identify.actions ∧
      (identify.onStreamRemoteWriteClosed p s).2 =
        if (identify.inbound p s).isSome then [.closeStreamWrite p s] else [] := by
  rw [onStreamRemoteWriteClosed]
  cases hpeer : identify.peers[p]? with
  | none =>
    have hnone := inbound_of_none hpeer s
    exact ⟨hnone, rfl, by rw [hnone]; rfl⟩
  | some state =>
    have hinbound := inbound_of_some hpeer s
    dsimp only
    cases hbuf : state.inboundStreams[s]? with
    | none =>
      rw [hbuf] at hinbound
      exact ⟨hinbound, rfl, by rw [hinbound]; rfl⟩
    | some buf =>
      rw [hbuf] at hinbound
      refine ⟨?_, rfl, by rw [hinbound]; rfl⟩
      exact inbound_setPeer_self.trans (BTreeMap.getElem?_erase_eq_none_iff.mpr (.inl rfl))

/-- A stream that is not registered stays so when another one closes. -/
theorem inbound_onStreamClosed (h : identify.inbound p s = none) (q : PeerId) (t : StreamId) :
    (identify.onStreamClosed q t).inbound p s = none := by
  rw [onStreamClosed]
  cases hpeer : identify.peers[q]? with
  | none => exact h
  | some state =>
    dsimp only
    generalize (if state.outboundStream = some t then none else state.outboundStream) = outbound
    by_cases hq : p = q
    · subst hq
      split
      · exact inbound_of_none (BTreeMap.getElem?_erase_eq_none_iff.mpr (.inl rfl)) s
      · rw [inbound_of_some hpeer] at h
        exact inbound_setPeer_self.trans (BTreeMap.getElem?_erase_eq_none_iff.mpr (.inr h))
    · split
      · exact (inbound_erase_of_ne hq).trans h
      · exact (inbound_setPeer_of_ne hq).trans h

/-- A migration to another peer gives this one nothing. -/
theorem inbound_migratePeer (h : identify.inbound p s = none) {old new : PeerId} (hne : new ≠ p) :
    (identify.migratePeer old new).inbound p s = none := by
  rw [migratePeer]
  split
  · exact h
  · cases hold : identify.peers[old]? with
    | none => exact h
    | some state =>
      have hother : ((identify.removePeer old).setPeer new state).inbound p s =
          (identify.removePeer old).inbound p s := inbound_setPeer_of_ne hne.symm
      refine hother.trans ?_
      by_cases hp : p = old
      · subst hp
        exact inbound_of_none (BTreeMap.getElem?_erase_eq_none_iff.mpr (.inl rfl)) s
      · exact (inbound_erase_of_ne hp).trans h

/-- Polling keeps the streams. -/
theorem inbound_pollOutput (identify : IdentifyProtocol) (p : PeerId) (s : StreamId) :
    identify.pollOutput.1.inbound p s = identify.inbound p s := by
  rw [pollOutput]
  split <;> rfl

end Inbound

/-- An outbound stream is no inbound one. -/
theorem inbound_registerOutboundStream (identify : IdentifyProtocol) (p q : PeerId) (s t : StreamId)
    (observedAddr : Option Multiaddr) (listenAddrs : List Multiaddr) :
    (identify.handleInput (.registerOutboundStream q t observedAddr listenAddrs)).1.inbound p s =
      identify.inbound p s := by
  have hset : ∀ state : PeerIdentifyState,
      state.inboundStreams = (identify.peers[q]?.getD default).inboundStreams →
      (identify.setPeer q state).inbound p s = identify.inbound p s := by
    intro state hstate
    by_cases hq : p = q
    · subst hq
      rw [inbound_setPeer_self, hstate, inbound_getD]
    · exact inbound_setPeer_of_ne hq
  rw [handleInput, registerOutboundStream]
  split
  · next heq =>
    split at heq
    · cases heq
    · obtain ⟨rfl, -⟩ := Prod.mk.inj heq
      exact hset _ rfl
  · next heq =>
    split at heq
    · obtain ⟨rfl, -⟩ := Prod.mk.inj heq
      exact hset _ rfl
    · cases heq

/-! ## Calls -/

/-- A stream that is not registered stays so until the peer is given it. -/
theorem inbound_after_eq_none (h : identify.inbound p s = none) {call : Call IdentifyInput}
    (hcall : ¬ Registers p s call) : (identify.after call).inbound p s = none := by
  cases call with
  | pollOutput => exact (inbound_pollOutput identify p s).trans h
  | handleInput input =>
    cases input with
    | registerOutboundStream q t observedAddr listenAddrs =>
      exact (inbound_registerOutboundStream identify p q s t observedAddr listenAddrs).trans h
    | registerInboundStream q t => exact (inbound_registerInboundStream hcall).trans h
    | streamData q t data =>
      by_cases htarget : q = p ∧ t = s
      · obtain ⟨rfl, rfl⟩ := htarget
        rw [after, handleInput, onStreamData_of_none h]
        exact h
      · exact (inbound_onStreamData_other htarget).trans h
    | streamRemoteWriteClosed q t =>
      by_cases htarget : q = p ∧ t = s
      · obtain ⟨rfl, rfl⟩ := htarget
        exact (onStreamRemoteWriteClosed_spec identify q t).1
      · exact (inbound_onStreamRemoteWriteClosed_other htarget).trans h
    | streamClosed q t => exact inbound_onStreamClosed h q t
    | removePeer q =>
      by_cases hq : p = q
      · subst hq
        exact inbound_of_none (BTreeMap.getElem?_erase_eq_none_iff.mpr (.inl rfl)) s
      · exact (inbound_erase_of_ne hq).trans h
    | migratePeer old new => exact inbound_migratePeer h hcall

/-- A stream that nobody registers stays unknown. -/
theorem inbound_run_eq_none {between : List (Call IdentifyInput)}
    (h : identify.inbound p s = none) (hbetween : ∀ call ∈ between, ¬ Registers p s call) :
    (between.foldl after identify).inbound p s = none := by
  induction between generalizing identify with
  | nil => exact h
  | cons call between ih =>
    exact ih (inbound_after_eq_none h (hbetween call List.mem_cons_self))
      fun call' hmem => hbetween call' (List.mem_cons_of_mem _ hmem)

/-- A registered stream leaves with the half-close, or when its message becomes too long. -/
theorem leaves_cases (hbefore : identify.inbound p s = some buf) {call : Call IdentifyInput}
    (hafter : (identify.after call).inbound p s = none) (hcall : ¬ Discards call) :
    call = .handleInput (.streamRemoteWriteClosed p s) ∨
      ∃ data, call = .handleInput (.streamData p s data) ∧
        maxMessageSize < (buf ++ data).length := by
  cases call with
  | pollOutput =>
    rw [after, inbound_pollOutput, hbefore] at hafter
    cases hafter
  | handleInput input =>
    cases input with
    | registerOutboundStream q t observedAddr listenAddrs =>
      rw [after, inbound_registerOutboundStream, hbefore] at hafter
      cases hafter
    | registerInboundStream q t =>
      by_cases htarget : q = p ∧ t = s
      · obtain ⟨rfl, rfl⟩ := htarget
        have hsome : (identify.registerInboundStream q t).inbound q t ≠ none := by
          rw [registerInboundStream, inbound_setPeer_self, Std.ExtTreeMap.getElem?_insert_self]
          exact Option.some_ne_none _
        exact absurd hafter hsome
      · cases ((inbound_registerInboundStream htarget).trans hbefore).symm.trans hafter
    | streamData q t data =>
      by_cases htarget : q = p ∧ t = s
      · obtain ⟨rfl, rfl⟩ := htarget
        refine .inr ⟨data, rfl, ?_⟩
        by_contra hfits
        have hkept := (onStreamData_of_some hbefore data).1
        rw [if_neg hfits] at hkept
        cases hkept.symm.trans hafter
      · cases ((inbound_onStreamData_other htarget).trans hbefore).symm.trans hafter
    | streamRemoteWriteClosed q t =>
      by_cases htarget : q = p ∧ t = s
      · obtain ⟨rfl, rfl⟩ := htarget
        exact .inl rfl
      · cases ((inbound_onStreamRemoteWriteClosed_other htarget).trans hbefore).symm.trans hafter
    | streamClosed | removePeer | migratePeer => exact absurd trivial hcall

/-- The half-close closes our side of a stream that is registered, and of no other. -/
theorem closes_remoteWriteClosed (identify : IdentifyProtocol) (p : PeerId) (s : StreamId) :
    identify.closes (.handleInput (.streamRemoteWriteClosed p s)) p s =
      if (identify.inbound p s).isSome then 1 else 0 := by
  obtain ⟨-, hactions, hreturned⟩ := onStreamRemoteWriteClosed_spec identify p s
  rw [closes, newActions, after, handleInput, extend, pushActions, hactions, hreturned,
    List.drop_left]
  split
  · exact List.count_singleton_self
  · rfl

/-- Data on a stream does not release it. -/
theorem closes_streamData (h : identify.inbound p s = some buf) :
    identify.closes (.handleInput (.streamData p s data)) p s = 0 := by
  obtain ⟨-, hactions, hreturned⟩ := onStreamData_of_some h data
  rw [closes, newActions, after, handleInput, extend, pushActions, hactions, hreturned,
    List.append_nil, List.drop_length]
  rfl

/-! ## Runs -/

/-- A run in two parts. -/
theorem run_append (config : IdentifyConfig) (first rest : List (Call IdentifyInput)) :
    run config (first ++ rest) = rest.foldl after (run config first) := List.foldl_append

/-- A call releases the streams it takes away if and only if it brings none over the limit. -/
theorem releases_iff_keepsLimit (config : IdentifyConfig) (before : List (Call IdentifyInput))
    (call : Call IdentifyInput) : Releases config before call ↔ KeepsLimit config before call := by
  constructor
  · rintro h p s data buf rfl hbuf
    by_contra hover
    have hgiven := (onStreamData_of_some hbuf data).1
    rw [if_pos (Nat.not_le.mp hover)] at hgiven
    have hlast : (run config (before ++ [.handleInput (.streamData p s data)])).inbound p s =
        none := by
      rw [run_append]
      exact hgiven
    -- the half-close right after it finds the stream gone
    have hcount := h p s (by rw [hbuf]; rfl) hlast id [] fun _ hmem => absurd hmem List.not_mem_nil
    rw [closes_streamData hbuf, closes_remoteWriteClosed, hlast] at hcount
    cases hcount
  · intro h p s hbefore hafter hcall between hbetween
    obtain ⟨buf, hbuf⟩ := Option.isSome_iff_exists.mp hbefore
    rw [run_append] at hafter
    rcases leaves_cases hbuf hafter hcall with rfl | ⟨data, rfl, hover⟩
    · have hlast : (run config (before ++
          .handleInput (.streamRemoteWriteClosed p s) :: between)).inbound p s = none := by
        rw [run_append, List.foldl_cons]
        exact inbound_run_eq_none hafter fun call' hmem => (hbetween call' hmem).1
      rw [closes_remoteWriteClosed, closes_remoteWriteClosed, hlast, hbuf]
      rfl
    · exact absurd hover (Nat.not_lt.mpr (h p s data buf rfl hbuf))

/-- In every run, each stream that leaves is released if and only if no call brings a registered
stream over the limit. -/
theorem releases_iff (config : IdentifyConfig) (calls : List (Call IdentifyInput)) :
    EachStep (Releases config) [] calls ↔ EachStep (KeepsLimit config) [] calls := by
  constructor
  · exact fun h => h.mono fun before call => (releases_iff_keepsLimit config before call).mp
  · exact fun h => h.mono fun before call => (releases_iff_keepsLimit config before call).mpr

/-- A peer whose message is too long. -/
def oversizePeer : PeerId := ⟨0x00, [8, 1, 5], by decide⟩

/-- A message that is one byte too long. -/
def oversizeMessage : List (Call IdentifyInput) :=
  [.handleInput (.registerInboundStream oversizePeer ⟨0⟩),
    .handleInput (.streamData oversizePeer ⟨0⟩ (List.replicate 8193 0))]

omit [MultihashCodec] in
theorem oversize_not_released :
    letI := multihashCodec
    ¬ EachStep (Releases ⟨"ipfs/0.1.0", "minip2p", [], []⟩) [] oversizeMessage := by
  let codec := multihashCodec
  intro h
  have hkeeps := (releases_iff_keepsLimit _ _ _).mp h.2.1
  have hlen := hkeeps _ _ _ [] rfl (by decide)
  rw [List.nil_append, List.length_replicate] at hlen
  exact absurd hlen (by decide)

end IdentifyProtocol

end Minip2p.Identify
