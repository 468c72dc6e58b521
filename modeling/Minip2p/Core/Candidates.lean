import Minip2p.Core.PeerAddr
import Mathlib.Data.List.Induction
import Mathlib.Data.List.Nodup

/-!
# Direct-connect candidates

`select_direct_candidates` of `crates/core/src/candidates.rs`: the addresses a peer offers for a
direct connection, taken in the order manual, observed, listen. What is not a dialable QUIC address
is rejected with its reason, and so is what was accepted before.
-/

namespace Minip2p

/-- Where a direct-connect candidate came from. -/
inductive DirectCandidateSource
  | manual
  | identifyObserved
  | listen
deriving DecidableEq, Repr

/-- Stable text for logs. -/
def DirectCandidateSource.asStr : DirectCandidateSource → String
  | manual => "manual"
  | identifyObserved => "identify-observed"
  | listen => "listen"

/-- Why a direct-connect candidate was rejected. -/
inductive DirectCandidateRejectReason
  | wildcardBindAddress
  | notQuicV1Transport
  | duplicate
deriving DecidableEq, Repr

/-- Stable text for logs. -/
def DirectCandidateRejectReason.asStr : DirectCandidateRejectReason → String
  | wildcardBindAddress => "wildcard-bind-address"
  | notQuicV1Transport => "not-quic-v1-transport"
  | duplicate => "duplicate"

/-- A candidate that was skipped. -/
structure DirectCandidateRejection where
  source : DirectCandidateSource
  addr : Multiaddr
  reason : DirectCandidateRejectReason
deriving DecidableEq, Repr

/-- A candidate that was accepted. -/
structure DirectCandidate where
  source : DirectCandidateSource
  addr : Multiaddr
deriving DecidableEq, Repr

/-- Accepted candidates in order, and the skipped ones. -/
structure DirectCandidateSelection where
  accepted : List DirectCandidate
  rejected : List DirectCandidateRejection
deriving DecidableEq, Repr

namespace DirectCandidateSelection

/-- No dialable candidate was accepted. -/
def isEmpty (selection : DirectCandidateSelection) : Bool := selection.accepted.isEmpty

/-- The addresses of the accepted candidates. -/
def intoAddrs (selection : DirectCandidateSelection) : List Multiaddr :=
  selection.accepted.map (·.addr)

end DirectCandidateSelection

/-- The address starts with a wildcard IP host. -/
def isWildcardAddr (addr : Multiaddr) : Bool :=
  match addr.protocols.head? with
  | some (.ip4 octets) => octets == Vector.replicate 4 0
  | some (.ip6 octets) => octets == Vector.replicate 16 0
  | _ => false

/-- Files a candidate as rejected. -/
def reject (selection : DirectCandidateSelection) (source : DirectCandidateSource)
    (addr : Multiaddr) (reason : DirectCandidateRejectReason) : DirectCandidateSelection :=
  { selection with rejected := selection.rejected ++ [⟨source, addr, reason⟩] }

/-- Files one candidate. -/
def pushCandidate (selection : DirectCandidateSelection) (source : DirectCandidateSource)
    (addr : Multiaddr) : DirectCandidateSelection :=
  if isWildcardAddr addr then reject selection source addr .wildcardBindAddress
  else if !addr.isQuicTransport then reject selection source addr .notQuicV1Transport
  else if selection.accepted.any (fun candidate => candidate.addr == addr) then
    reject selection source addr .duplicate
  else { selection with accepted := selection.accepted ++ [⟨source, addr⟩] }

/-- Selects the dialable candidates: manual addresses first, then the observed one, then the
listen address. -/
def selectDirectCandidates (manual : List Multiaddr) (identifyObserved listen : Option Multiaddr) :
    DirectCandidateSelection :=
  let selection : DirectCandidateSelection := ⟨[], []⟩
  let selection := manual.foldl (pushCandidate · .manual ·) selection
  let selection := match identifyObserved with
    | some addr => pushCandidate selection .identifyObserved addr
    | none => selection
  match listen with
  | some addr => pushCandidate selection .listen addr
  | none => selection

/-! ## What can be dialed -/

/-- A strict QUIC address whose host is not a wildcard. -/
def Multiaddr.IsDialable (addr : Multiaddr) : Prop :=
  ∃ host port, addr.protocols = [host, .udp port, .quicV1] ∧ host.isHost = true ∧
    host ≠ .ip4 (Vector.replicate 4 0) ∧ host ≠ .ip6 (Vector.replicate 16 0)

/-- The addresses with a host, a UDP port and QUIC in this order, and nothing behind. -/
theorem isQuicTransportSlice_iff {protocols : List Protocol} :
    isQuicTransportSlice protocols = true ↔
      ∃ host port, protocols = [host, .udp port, .quicV1] ∧ host.isHost = true := by
  constructor
  · intro h
    unfold isQuicTransportSlice at h
    split at h
    · next host port => exact ⟨host, port, rfl, h⟩
    · exact absurd h Bool.false_ne_true
  · intro ⟨host, port, hprotocols, hhost⟩
    rw [hprotocols]
    exact hhost

theorem isWildcardAddr_eq_false_iff {addr : Multiaddr} {host : Protocol} {rest : List Protocol}
    (h : addr.protocols = host :: rest) :
    isWildcardAddr addr = false ↔
      host ≠ .ip4 (Vector.replicate 4 0) ∧ host ≠ .ip6 (Vector.replicate 16 0) := by
  unfold isWildcardAddr
  rw [h, List.head?_cons]
  cases host <;> simp

/-- The two checks before the one for duplicates. -/
theorem isDialable_iff {addr : Multiaddr} :
    addr.IsDialable ↔ isWildcardAddr addr = false ∧ addr.isQuicTransport = true := by
  unfold Multiaddr.isQuicTransport
  rw [isQuicTransportSlice_iff]
  constructor
  · intro ⟨host, port, hprotocols, hhost, hwild⟩
    exact ⟨(isWildcardAddr_eq_false_iff hprotocols).mpr hwild, host, port, hprotocols, hhost⟩
  · intro ⟨hwild, host, port, hprotocols, hhost⟩
    exact ⟨host, port, hprotocols, hhost, (isWildcardAddr_eq_false_iff hprotocols).mp hwild⟩

/-! ## Selecting from a list -/

/-- The input addresses with their sources, in order of priority. -/
def candidateInputs (manual : List Multiaddr) (identifyObserved listen : Option Multiaddr) :
    List DirectCandidate :=
  manual.map (⟨.manual, ·⟩) ++ identifyObserved.toList.map (⟨.identifyObserved, ·⟩) ++
    listen.toList.map (⟨.listen, ·⟩)

/-- One input after the other. -/
def selectFrom (inputs : List DirectCandidate) : DirectCandidateSelection :=
  inputs.foldl (fun selection input => pushCandidate selection input.source input.addr) ⟨[], []⟩

/-- One more input is pushed last. -/
theorem selectFrom_concat (inputs : List DirectCandidate) (input : DirectCandidate) :
    selectFrom (inputs ++ [input]) =
      pushCandidate (selectFrom inputs) input.source input.addr := by
  unfold selectFrom
  rw [List.foldl_append, List.foldl_cons, List.foldl_nil]

theorem selectDirectCandidates_eq (manual : List Multiaddr)
    (identifyObserved listen : Option Multiaddr) :
    selectDirectCandidates manual identifyObserved listen =
      selectFrom (candidateInputs manual identifyObserved listen) := by
  unfold selectDirectCandidates selectFrom candidateInputs
  simp only [List.foldl_append, List.foldl_map]
  cases identifyObserved <;> cases listen <;> rfl

/-- What an input that came with a verdict is filed as: accepted without a reason. -/
def acceptedOf : DirectCandidate × Option DirectCandidateRejectReason → Option DirectCandidate
  | (input, none) => some input
  | (_, some _) => none

/-- The rejection of a candidate, if there is a reason for one. -/
def rejectedOf :
    DirectCandidate × Option DirectCandidateRejectReason → Option DirectCandidateRejection
  | (_, none) => none
  | (input, some reason) => some ⟨input.source, input.addr, reason⟩

/-- The selection gives each of the inputs one verdict, none for an accepted one, and files it
under that verdict. -/
structure Selects (inputs : List DirectCandidate)
    (verdicts : List (Option DirectCandidateRejectReason)) (selection : DirectCandidateSelection) :
    Prop where
  length_eq : verdicts.length = inputs.length
  accepted_eq : selection.accepted = (inputs.zip verdicts).filterMap acceptedOf
  rejected_eq : selection.rejected = (inputs.zip verdicts).filterMap rejectedOf
  nodup : selection.intoAddrs.Nodup
  covers : ∀ input ∈ inputs, input.addr.IsDialable → input.addr ∈ selection.intoAddrs
  accepted_iff : ∀ i input, inputs[i]? = some input →
    (verdicts[i]? = some none ↔
      input.addr.IsDialable ∧ ∀ earlier ∈ inputs.take i, earlier.addr ≠ input.addr)
  duplicate_iff : ∀ i input, inputs[i]? = some input →
    (verdicts[i]? = some (some .duplicate) ↔
      input.addr.IsDialable ∧
        ∃ earlier, (earlier, none) ∈ (inputs.zip verdicts).take i ∧ earlier.addr = input.addr)

/-- A position of a list with one more element. -/
theorem getElem?_concat_cases {α : Type} {xs : List α} {x y : α} {i : ℕ}
    (h : (xs ++ [x])[i]? = some y) :
    i < xs.length ∧ xs[i]? = some y ∨ i = xs.length ∧ x = y := by
  by_cases hi : i < xs.length
  · rw [List.getElem?_append_left hi] at h
    exact .inl ⟨hi, h⟩
  · have hle : i < (xs ++ [x]).length := (List.getElem?_eq_some_iff.mp h).1
    rw [List.length_append, List.length_singleton] at hle
    have hi : i = xs.length := by omega
    rw [hi, List.getElem?_concat_length] at h
    exact .inr ⟨hi, Option.some.inj h⟩

namespace Selects

variable {inputs : List DirectCandidate} {input : DirectCandidate}
  {verdicts : List (Option DirectCandidateRejectReason)} {selection : DirectCandidateSelection}

theorem nil : Selects [] [] ⟨[], []⟩ where
  length_eq := rfl
  accepted_eq := rfl
  rejected_eq := rfl
  nodup := List.nodup_nil
  covers := fun _ h => absurd h List.not_mem_nil
  accepted_iff := by
    intro i input h
    cases h
  duplicate_iff := by
    intro i input h
    cases h

theorem zip_concat (h : Selects inputs verdicts selection) (input : DirectCandidate)
    (verdict : Option DirectCandidateRejectReason) :
    (inputs ++ [input]).zip (verdicts ++ [verdict]) = inputs.zip verdicts ++ [(input, verdict)] :=
  List.zip_append h.length_eq.symm

/-- The addresses returned are those of the inputs that were not rejected. -/
theorem mem_intoAddrs_iff (h : Selects inputs verdicts selection) {addr : Multiaddr} :
    addr ∈ selection.intoAddrs ↔
      ∃ earlier, (earlier, none) ∈ inputs.zip verdicts ∧ earlier.addr = addr := by
  unfold DirectCandidateSelection.intoAddrs
  rw [h.accepted_eq, List.mem_map]
  apply exists_congr
  intro earlier
  rw [List.mem_filterMap]
  constructor
  · rintro ⟨⟨⟨input, verdict⟩, hmem, hof⟩, haddr⟩
    cases verdict with
    | none =>
      obtain rfl := Option.some.inj hof
      exact ⟨hmem, haddr⟩
    | some reason => cases hof
  · intro ⟨hmem, haddr⟩
    exact ⟨⟨(earlier, none), hmem, rfl⟩, haddr⟩

/-- The verdicts on the inputs so far do not change when one more is filed: what is left to show
is that the new one is right. -/
theorem concat (h : Selects inputs verdicts selection) {next : DirectCandidateSelection}
    {verdict : Option DirectCandidateRejectReason}
    (haccepted : next.accepted = selection.accepted ++ (acceptedOf (input, verdict)).toList)
    (hrejected : next.rejected = selection.rejected ++ (rejectedOf (input, verdict)).toList)
    (hnodup : next.intoAddrs.Nodup)
    (hcovers : input.addr.IsDialable → input.addr ∈ next.intoAddrs)
    (hnone : verdict = none ↔
      input.addr.IsDialable ∧ ∀ earlier ∈ inputs, earlier.addr ≠ input.addr)
    (hduplicate : verdict = some .duplicate ↔
      input.addr.IsDialable ∧ input.addr ∈ selection.intoAddrs) :
    Selects (inputs ++ [input]) (verdicts ++ [verdict]) next where
  length_eq := by
    rw [List.length_append, List.length_append, h.length_eq]
    rfl
  accepted_eq := by
    rw [haccepted, h.accepted_eq, h.zip_concat, List.filterMap_append]
    cases verdict <;> rfl
  rejected_eq := by
    rw [hrejected, h.rejected_eq, h.zip_concat, List.filterMap_append]
    cases verdict <;> rfl
  nodup := hnodup
  covers := by
    intro other hother hdial
    rcases List.mem_append.mp hother with hold | hnew
    · unfold DirectCandidateSelection.intoAddrs
      rw [haccepted, List.map_append]
      exact List.mem_append_left _ (h.covers other hold hdial)
    · obtain rfl := List.mem_singleton.mp hnew
      exact hcovers hdial
  accepted_iff := by
    intro i other hother
    rcases getElem?_concat_cases hother with ⟨hi, hold⟩ | ⟨hi, hnew⟩
    · rw [List.getElem?_append_left (by rw [h.length_eq]; exact hi),
        List.take_append_of_le_length (by omega)]
      exact h.accepted_iff i other hold
    · rw [hi, ← hnew, ← h.length_eq, List.getElem?_concat_length, h.length_eq, List.take_left,
        Option.some_inj]
      exact hnone
  duplicate_iff := by
    intro i other hother
    have hzip : (inputs.zip verdicts).length = inputs.length := by
      rw [List.length_zip, h.length_eq, Nat.min_self]
    rw [h.zip_concat]
    rcases getElem?_concat_cases hother with ⟨hi, hold⟩ | ⟨hi, hnew⟩
    · rw [List.getElem?_append_left (by rw [h.length_eq]; exact hi),
        List.take_append_of_le_length (by omega)]
      exact h.duplicate_iff i other hold
    · rw [hi, ← hnew, ← h.length_eq, List.getElem?_concat_length, h.length_eq, ← hzip,
        List.take_left, Option.some_inj, ← h.mem_intoAddrs_iff]
      exact hduplicate

/-- A new dialable address is accepted. -/
theorem accept (h : Selects inputs verdicts selection) (hdial : input.addr.IsDialable)
    (hnew : input.addr ∉ selection.intoAddrs) :
    Selects (inputs ++ [input]) (verdicts ++ [none])
      { selection with accepted := selection.accepted ++ [input] } := by
  have haddrs : DirectCandidateSelection.intoAddrs
      { selection with accepted := selection.accepted ++ [input] } =
      selection.intoAddrs ++ [input.addr] := List.map_append
  refine h.concat rfl (List.append_nil _).symm ?_ ?_ ?_ ?_
  · rw [haddrs]
    exact List.nodup_append.mpr ⟨h.nodup, List.nodup_singleton _, by
      intro a ha b hb hab
      rw [List.mem_singleton.mp hb] at hab
      exact hnew (hab ▸ ha)⟩
  · intro _
    rw [haddrs]
    exact List.mem_append_right _ (List.mem_singleton_self _)
  · -- an equal input before would be dialable as well, and so among the accepted ones
    refine iff_of_true rfl ⟨hdial, ?_⟩
    intro earlier hearlier heq
    rw [← heq] at hdial hnew
    exact hnew (h.covers earlier hearlier hdial)
  · exact iff_of_false (fun h => nomatch h) (fun hdup => hnew hdup.2)

/-- An address is rejected because it is not dialable, or as a duplicate. -/
theorem reject (h : Selects inputs verdicts selection) {reason : DirectCandidateRejectReason}
    (hreason : reason = .duplicate ↔ input.addr.IsDialable)
    (hmem : input.addr.IsDialable → input.addr ∈ selection.intoAddrs) :
    Selects (inputs ++ [input]) (verdicts ++ [some reason])
      (Minip2p.reject selection input.source input.addr reason) := by
  refine h.concat (List.append_nil _).symm rfl h.nodup hmem ?_ ?_
  · refine iff_of_false (fun h => nomatch h) ?_
    intro ⟨hdial, hfirst⟩
    obtain ⟨earlier, hearlier, heq⟩ := h.mem_intoAddrs_iff.mp (hmem hdial)
    exact hfirst earlier (List.of_mem_zip hearlier).1 heq
  · rw [Option.some_inj, hreason]
    exact ⟨fun hdial => ⟨hdial, hmem hdial⟩, fun h => h.1⟩

/-- Each input gets its verdict when it is filed. -/
theorem push (h : Selects inputs verdicts selection) (input : DirectCandidate) :
    ∃ verdict, Selects (inputs ++ [input]) (verdicts ++ [verdict])
      (pushCandidate selection input.source input.addr) := by
  unfold pushCandidate
  cases hwild : isWildcardAddr input.addr with
  | true =>
    have hdial : ¬ input.addr.IsDialable := by
      rw [isDialable_iff, hwild]
      exact fun hbad => Bool.false_ne_true hbad.1.symm
    rw [if_pos rfl]
    exact ⟨_, h.reject (iff_of_false (by decide) hdial) (fun hbad => absurd hbad hdial)⟩
  | false =>
    rw [if_neg Bool.false_ne_true]
    cases hquic : input.addr.isQuicTransport with
    | false =>
      have hdial : ¬ input.addr.IsDialable := by
        rw [isDialable_iff, hquic]
        exact fun hbad => Bool.false_ne_true hbad.2
      rw [if_pos (by decide)]
      exact ⟨_, h.reject (iff_of_false (by decide) hdial) (fun hbad => absurd hbad hdial)⟩
    | true =>
      have hdial : input.addr.IsDialable := isDialable_iff.mpr ⟨hwild, hquic⟩
      have hany : (selection.accepted.any fun candidate => candidate.addr == input.addr) = true ↔
          input.addr ∈ selection.intoAddrs := by
        unfold DirectCandidateSelection.intoAddrs
        rw [List.any_eq_true, List.mem_map]
        simp only [beq_iff_eq]
      rw [if_neg (by decide)]
      by_cases hmem : input.addr ∈ selection.intoAddrs
      · rw [if_pos (hany.mpr hmem)]
        exact ⟨_, h.reject (iff_of_true rfl hdial) (fun _ => hmem)⟩
      · rw [if_neg (fun hbad => hmem (hany.mp hbad))]
        exact ⟨_, h.accept hdial hmem⟩

end Selects

/-- Every selection comes with a verdict for each input. -/
theorem selects_selectFrom (inputs : List DirectCandidate) :
    ∃ verdicts, Selects inputs verdicts (selectFrom inputs) := by
  induction inputs using List.reverseRecOn with
  | nil => exact ⟨[], Selects.nil⟩
  | append_singleton inputs input ih =>
    obtain ⟨verdicts, h⟩ := ih
    obtain ⟨verdict, hnext⟩ := h.push input
    rw [selectFrom_concat]
    exact ⟨verdicts ++ [verdict], hnext⟩

/-- Every input is accepted or rejected, once and in its place. The accepted addresses are distinct:
they are the dialable inputs where they come first, and a duplicate is a dialable input that came
before and was accepted. -/
theorem selectDirectCandidates_selects (manual : List Multiaddr)
    (identifyObserved listen : Option Multiaddr) :
    ∃ verdicts, Selects (candidateInputs manual identifyObserved listen) verdicts
      (selectDirectCandidates manual identifyObserved listen) := by
  rw [selectDirectCandidates_eq]
  exact selects_selectFrom _

/-- The listen address of a peer that binds all interfaces is no candidate, and the observed
address is one only where it is not the manual one. -/
example :
    let addr : Multiaddr := ⟨[.ip4 #v[203, 0, 113, 7], .udp 4001, .quicV1]⟩
    let wild : Multiaddr := ⟨[.ip4 #v[0, 0, 0, 0], .udp 4001, .quicV1]⟩
    selectDirectCandidates [addr] (some addr) (some wild) =
      ⟨[⟨.manual, addr⟩],
        [⟨.identifyObserved, addr, .duplicate⟩, ⟨.listen, wild, .wildcardBindAddress⟩]⟩ := by
  decide

end Minip2p
