import Minip2p.Core.MultiaddrTextTheorems

/-!
# Which multiaddr texts are canonical

An accepted text is printed again as it was, but for its numbers: the octets of an `ip4` component
and the port of a `udp` component are read by the integer parser, which takes a sign and leading
zeros. In the other direction every address that can be written is read back.
-/

namespace Minip2p

/-! ## Numbers -/

/-- The one decimal spelling of a number: no sign, and no zero in front. -/
def CanonicalNumber (text : String) : Prop :=
  text.toList.head? ≠ some '+' ∧ (text.toList.head? = some '0' → text = "0")

instance (text : String) : Decidable (CanonicalNumber text) :=
  inferInstanceAs (Decidable (_ ∧ (_ → _)))

/-- A number other than zero is written without leading zeros. -/
theorem head?_toDigits {n : ℕ} (h : n ≠ 0) : (Nat.toDigits 10 n).head? ≠ some '0' := by
  induction n using Nat.base_induction 10 (by decide) with
  | single n hn =>
    have hdigits : ∀ n : Fin 10, n.val ≠ 0 → n.val.digitChar ≠ '0' := by
      decide
    rw [Nat.toDigits_of_lt_base hn]
    intro hhead
    exact hdigits ⟨n, hn⟩ h (Option.some.inj hhead)
  | digit d n hd hn ih =>
    rw [← Nat.toDigits_append_toDigits (by decide) hn hd,
      List.head?_append_of_ne_nil _ Nat.toDigits_ne_nil]
    exact ih (Nat.ne_of_gt hn)

theorem exists_digitChar {c : Char} (h : c.isDigit = true) :
    c.toNat - 48 < 10 ∧ (c.toNat - 48).digitChar = c := by
  have hdigits : ∀ d : Fin 10, d.val.digitChar = Char.ofNat (48 + d) := by
    decide
  have hrange : 48 ≤ c.toNat ∧ c.toNat ≤ 57 := by
    rw [Char.isDigit, Bool.and_eq_true, decide_eq_true_eq, decide_eq_true_eq] at h
    exact h
  have hlt : c.toNat - 48 < 10 := by omega
  refine ⟨hlt, ?_⟩
  rw [hdigits ⟨c.toNat - 48, hlt⟩]
  show Char.ofNat (48 + (c.toNat - 48)) = c
  rw [Nat.add_sub_cancel' hrange.1, Char.ofNat_toNat]

/-- Digits without a zero in front are the digits of their number. -/
theorem toDigits_ofDigitChars {cs : List Char} (hdigits : ∀ c ∈ cs, c.isDigit = true)
    (hne : cs ≠ []) (hhead : cs.head? = some '0' → cs = ['0']) :
    Nat.toDigits 10 (Nat.ofDigitChars 10 cs 0) = cs := by
  induction cs using List.reverseRecOn with
  | nil => exact absurd rfl hne
  | append_singleton cs c ih =>
    obtain ⟨hcs, hc⟩ := List.forall_mem_append.mp hdigits
    obtain ⟨hlt, hchar⟩ := exists_digitChar (hc c List.mem_cons_self)
    have hvalue : Nat.ofDigitChars 10 (cs ++ [c]) 0 =
        10 * Nat.ofDigitChars 10 cs 0 + (c.toNat - 48) := by
      rw [Nat.ofDigitChars_append, Nat.ofDigitChars_cons, Nat.ofDigitChars_nil]
      rfl
    have hlast : Nat.toDigits 10 (c.toNat - 48) = [c] := by
      rw [Nat.toDigits_of_lt_base hlt, hchar]
    by_cases hnil : cs = []
    · rw [hvalue, hnil, Nat.ofDigitChars_nil, Nat.mul_zero, Nat.zero_add, hlast]
      rfl
    · have hzero : cs.head? ≠ some '0' := by
        intro hzero
        have hlen := congrArg List.length (hhead (by
          rw [List.head?_append_of_ne_nil _ hnil]
          exact hzero))
        rw [List.length_append] at hlen
        exact hnil (List.length_eq_zero_iff.mp (Nat.succ.inj hlen))
      have hread := ih hcs hnil fun h => absurd h hzero
      have hpos : 0 < Nat.ofDigitChars 10 cs 0 := by
        rw [Nat.pos_iff_ne_zero]
        intro hvalue
        rw [hvalue] at hread
        exact hzero (by rw [← hread]; rfl)
      rw [hvalue, ← Nat.toDigits_append_toDigits (by decide) hpos hlt, hread, hlast]

/-- The text of a number is canonical. -/
theorem canonicalNumber_repr (n : ℕ) : CanonicalNumber n.repr := by
  constructor
  · intro hplus
    exact absurd (isDigit_of_mem_repr (List.mem_of_mem_head? hplus)) (by decide)
  · intro hzero
    rw [Nat.toList_repr] at hzero
    by_cases hn : n = 0
    · rw [hn]
      rfl
    · exact absurd hzero (head?_toDigits hn)

/-- What the integer parser reads is below its bound, and is written as the text only if the text
is its one spelling. -/
theorem parseUnsigned_spec {bound n : ℕ} {text : String} (h : parseUnsigned bound text = some n) :
    n < bound ∧ (n.repr = text ↔ CanonicalNumber text) := by
  rw [parseUnsigned] at h
  generalize hcs : (if text.toList.head? = some '+' then text.toList.tail else text.toList) = cs
    at h
  rw [Option.ite_none_right_eq_some, Option.ite_none_right_eq_some, Bool.and_eq_true,
    Bool.not_eq_true', List.isEmpty_eq_false_iff, List.all_eq_true] at h
  obtain ⟨⟨hne, hdigits⟩, hlt, hvalue⟩ := h
  obtain rfl := Option.some.inj hvalue
  refine ⟨hlt, ?_, ?_⟩
  · intro htext
    rw [← htext]
    exact canonicalNumber_repr _
  · rintro ⟨hplus, hzero⟩
    rw [if_neg hplus] at hcs
    subst hcs
    apply String.toList_inj.mp
    rw [Nat.toList_repr]
    exact toDigits_ofDigitChars hdigits hne fun h => congrArg String.toList (hzero h)

/-! ## Components -/

/-- A text is determined by its segments. -/
theorem splitAtChar_inj {c : Char} {s t : String} :
    splitAtChar c s = splitAtChar c t ↔ s = t := by
  constructor
  · intro h
    have hsplit : s.toList.splitOn c = t.toList.splitOn c :=
      List.map_injective_iff.mpr (fun _ _ h => String.ofList_inj.mp h) h
    have hjoin := congrArg [c].intercalate hsplit
    rw [List.intercalate_splitOn, List.intercalate_splitOn] at hjoin
    exact String.toList_inj.mp hjoin
  · exact congrArg _

/-- A dotted quad is written as it was read if its four octets are. -/
theorem displayIp4_eq_iff {value : String} {octets : Vector UInt8 4}
    (h : parseIp4 value = some octets) :
    displayIp4 octets = value ↔ ∀ number ∈ splitAtChar '.' value, CanonicalNumber number := by
  rw [parseIp4] at h
  split at h
  next a b c d hparts =>
    simp only [Option.bind_eq_bind, Option.bind_eq_some_iff] at h
    obtain ⟨na, ha, nb, hb, nc, hc, nd, hd, hoctets⟩ := h
    obtain rfl := Option.some.inj hoctets
    obtain ⟨hlta, ha⟩ := parseUnsigned_spec ha
    obtain ⟨hltb, hb⟩ := parseUnsigned_spec hb
    obtain ⟨hltc, hc⟩ := parseUnsigned_spec hc
    obtain ⟨hltd, hd⟩ := parseUnsigned_spec hd
    have hmap : (#v[UInt8.ofNat na, UInt8.ofNat nb, UInt8.ofNat nc, UInt8.ofNat nd].toList.map
        fun octet => octet.toNat.repr) = [na.repr, nb.repr, nc.repr, nd.repr] := by
      show [_, _, _, _] = _
      simp only [UInt8.toNat_ofNat_of_lt' hlta, UInt8.toNat_ofNat_of_lt' hltb,
        UInt8.toNat_ofNat_of_lt' hltc, UInt8.toNat_ofNat_of_lt' hltd]
    rw [← splitAtChar_inj (c := '.'), splitAtChar_displayIp4, hmap, hparts]
    simp only [List.cons.injEq, and_true, List.forall_mem_cons, List.not_mem_nil, false_imp_iff,
      implies_true, ha, hb, hc, hd]
  · cases h

namespace Protocol

/-- The numbers in the value of a component: the octets of a dotted quad, or a port. -/
def numbers : String → String → List String
  | "ip4", value => splitAtChar '.' value
  | "udp", value => [value]
  | _, _ => []

/-- A component whose value is written here and not by the code for IPv6 addresses or peer ids. -/
def OwnText : Protocol → Prop
  | ip6 _ | p2p _ => False
  | _ => True

instance (protocol : Protocol) : Decidable protocol.OwnText :=
  match protocol with
  | ip6 _ | p2p _ => .isFalse not_false
  | ip4 _ | dns _ | dns4 _ | dns6 _ | udp _ | quicV1 => .isTrue trivial

variable [MultihashCodec] [Ipv6Text]

/-- A component is written under the name it was read by, and its value as it was if its numbers
are. -/
theorem segments_of_valueParser {name value : String}
    {parse : String → Except MultiaddrError Protocol} {protocol : Protocol}
    (h : valueParser name = some parse) (hparse : parse value = .ok protocol)
    (hown : protocol.OwnText) : ∃ text, protocol.segments = [name, text] ∧
      (text = value ↔ ∀ number ∈ numbers name value, CanonicalNumber number) := by
  unfold valueParser at h
  split at h
  case h_1 =>
    obtain rfl := Option.some.inj h
    simp only at hparse
    split at hparse
    next octets hread =>
      cases hparse
      exact ⟨_, rfl, displayIp4_eq_iff hread⟩
    · cases hparse
  case h_6 =>
    obtain rfl := Option.some.inj h
    simp only at hparse
    split at hparse
    next port hread =>
      cases hparse
      obtain ⟨hlt, hport⟩ := parseUnsigned_spec hread
      refine ⟨_, rfl, ?_⟩
      rw [UInt16.toNat_ofNat_of_lt' hlt, hport]
      exact List.forall_mem_singleton.symm
    · cases hparse
  case h_8 => cases h
  all_goals
    obtain rfl := Option.some.inj h
    simp only at hparse
    split at hparse
  all_goals cases hparse
  -- the names have no numbers in them
  all_goals first
    | exact hown.elim
    | exact ⟨_, rfl, iff_of_true rfl fun _ h => absurd h List.not_mem_nil⟩

/-- What is written between the slashes has none. -/
theorem segments_ne_slash {protocol : Protocol} (hname : protocol.NameOk)
    (hown : protocol.OwnText) : ∀ s ∈ protocol.segments, '/' ∉ s.toList := by
  refine List.forall_mem_cons.mpr ⟨protocol.label_ne_slash, ?_⟩
  intro s hs
  rw [Option.mem_toList] at hs
  cases protocol with
  | ip4 octets =>
    obtain rfl := Option.some.inj hs
    exact (displayIp4_plain octets).2
  | dns name | dns4 name | dns6 name =>
    obtain rfl := Option.some.inj hs
    exact (isValidDns_plain hname).2
  | udp port =>
    obtain rfl := Option.some.inj hs
    exact (repr_plain port.toNat).2
  | quicV1 => cases hs
  | ip6 octets | p2p peerId => exact hown.elim

end Protocol

/-! ## Addresses -/

namespace Multiaddr

/-- The numbers that the parser finds in the segments of an address. -/
def numbers : List String → List String
  | [] => []
  | protocol :: rest =>
    if protocol = "quic-v1" then numbers rest
    else
      match rest with
      | [] => []
      | value :: rest => Protocol.numbers protocol value ++ numbers rest

theorem numbers_quicV1 (rest : List String) : numbers ("quic-v1" :: rest) = numbers rest := by
  cases rest <;> rfl

/-- A text whose octets and ports all have their one decimal spelling. -/
def CanonicalText (text : String) : Prop :=
  ∀ number ∈ numbers ((splitAtChar '/' text).drop 1), CanonicalNumber number

instance (text : String) : Decidable (CanonicalText text) :=
  inferInstanceAs (Decidable (∀ _ ∈ _, _))

variable [MultihashCodec] [Ipv6Text]

/-- The components that are parsed are written as the segments they came from if the numbers are. -/
theorem segments_of_parseSegments {segments : List String} {done : List Protocol}
    {addr : Multiaddr} (h : parseSegments segments done = .ok addr)
    (hown : ∀ c ∈ addr.protocols, c.OwnText) : ∃ protocols, addr.protocols = done ++ protocols ∧
      (protocols.flatMap Protocol.segments = segments ↔
        ∀ number ∈ numbers segments, CanonicalNumber number) := by
  fun_induction parseSegments segments done with
  | case1 done =>
    obtain rfl := Except.ok.inj h
    exact ⟨[], (List.append_nil _).symm,
      iff_of_true rfl fun _ h => absurd h List.not_mem_nil⟩
  | case3 rest done hne ih =>
    obtain ⟨protocols, hprotocols, hrest⟩ := ih h
    refine ⟨.quicV1 :: protocols, by rw [hprotocols, List.append_assoc]; rfl, ?_⟩
    rw [numbers_quicV1, ← hrest]
    exact (List.cons.injEq _ _ _ _).to_iff.trans (and_iff_right rfl)
  | case8 name done hne hquic parse hparser value rest hvalue component hparse ih =>
    obtain ⟨protocols, hprotocols, hrest⟩ := ih h
    have hmem : component ∈ addr.protocols := by
      rw [hprotocols]
      exact List.mem_append_left _ (List.mem_append_right _ List.mem_cons_self)
    obtain ⟨text, hsegments, htext⟩ :=
      Protocol.segments_of_valueParser hparser hparse (hown component hmem)
    refine ⟨component :: protocols, by rw [hprotocols, List.append_assoc]; rfl, ?_⟩
    rw [numbers, if_neg hquic, List.forall_mem_append, ← hrest, ← htext, List.flatMap_cons,
      hsegments]
    simp only [List.cons_append, List.nil_append, List.cons.injEq, true_and]
  | case2 | case4 | case5 | case6 | case7 => cases h

/-- An accepted address without IPv6 addresses and peer ids is printed as it was if its numbers are
canonical. -/
theorem display_eq_iff {text : String} {addr : Multiaddr} (h : fromStr text = .ok addr)
    (hown : ∀ c ∈ addr.protocols, c.OwnText) : addr.display = text ↔ CanonicalText text := by
  rw [fromStr] at h
  split at h
  · cases h
  split at h
  · cases h
  next hslash =>
    obtain ⟨protocols, hprotocols, hsegments⟩ := segments_of_parseSegments h hown
    obtain rfl : addr.protocols = protocols := hprotocols
    have hname := nameOk_of_parseSegments (fun _ h => absurd h List.not_mem_nil) h
    have hplain : ∀ s ∈ addr.protocols.flatMap Protocol.segments, '/' ∉ s.toList := by
      intro s hs
      obtain ⟨c, hc, hs⟩ := List.mem_flatMap.mp hs
      exact Protocol.segments_ne_slash (hname c hc) (hown c hc) s hs
    have hfirst : splitAtChar '/' text = "" :: (splitAtChar '/' text).drop 1 := by
      obtain ⟨cs, htext⟩ := List.head?_eq_some_iff.mp (not_not.mp hslash)
      rw [splitAtChar, htext]
      exact congrArg (List.map String.ofList)
        (List.splitOn_append_cons_self_of_not_mem (List.not_mem_nil) cs)
    rw [CanonicalText, ← hsegments, ← splitAtChar_inj (c := '/'),
      splitAtChar_flatMap hplain addr.display_toList, hfirst, List.cons.injEq, and_iff_right rfl]
    rfl

/-- An accepted address without IPv6 addresses and peer ids is printed as it was exactly if its
octets and ports are in their one spelling, and such a text is the only one of its address. -/
theorem text_canonical_iff :
    (∀ (text : String) (addr : Multiaddr), fromStr text = .ok addr →
      (∀ c ∈ addr.protocols, c.OwnText) → (addr.display = text ↔ CanonicalText text)) ∧
    ∀ (text other : String) (addr : Multiaddr), fromStr text = .ok addr →
      fromStr other = .ok addr → (∀ c ∈ addr.protocols, c.OwnText) →
        CanonicalText text → CanonicalText other → text = other := by
  refine ⟨fun text addr => display_eq_iff, ?_⟩
  intro text other addr htext hother hown hcanonical hcanonical'
  rw [← (display_eq_iff htext hown).mpr hcanonical,
    (display_eq_iff hother hown).mpr hcanonical']

omit [MultihashCodec] [Ipv6Text] in
/-- `/dns/ip4/udp/4001/quic-v1`, where the name is that of a protocol. -/
theorem text_canonical_iff_dns :
    @display multihashCodec ipv6Decimal ⟨[.dns "ip4", .udp 4001, .quicV1]⟩ =
      "/dns/ip4/udp/4001/quic-v1" :=
  ((@text_canonical_iff multihashCodec ipv6Decimal).1 "/dns/ip4/udp/4001/quic-v1"
    ⟨[.dns "ip4", .udp 4001, .quicV1]⟩ (by decide +kernel) (by decide)).mpr (by decide +kernel)

omit [MultihashCodec] [Ipv6Text] in
/-- An octet with a zero in front and a port with a sign. -/
theorem not_display_of_fromStr :
    ¬ ∀ (codec : MultihashCodec) (ip6 : Ipv6Text) (text : String) (addr : Multiaddr),
      @fromStr codec ip6 text = .ok addr → (∀ c ∈ addr.protocols, c.OwnText) →
        @display codec ip6 addr = text := by
  intro h
  have hdisplay := h multihashCodec ipv6Decimal "/ip4/127.0.0.01/udp/+4001/quic-v1"
    ⟨[.ip4 #v[127, 0, 0, 1], .udp 4001, .quicV1]⟩ (by decide +kernel) (by decide)
  exact absurd hdisplay (by decide +kernel)

end Multiaddr

/-! ## Addresses, read back -/

/-- The multihashes of peer ids that are made of keys. -/
def Multihash.OfKey (multihash : Multihash) : Prop :=
  multihash.code = identityMultihashCode ∨
    multihash.code = sha256MultihashCode ∧ multihash.digest.length = 32

instance (multihash : Multihash) : Decidable multihash.OfKey :=
  inferInstanceAs (Decidable (_ ∨ _ ∧ _))

namespace PeerId

theorem valid_of_ofKey {peerId : PeerId} (h : peerId.multihash.OfKey) : peerId.Valid := by
  refine if_neg ?_
  rintro ⟨hcode, hlen⟩
  rcases h with hidentity | ⟨-, hsha256⟩
  · rw [hidentity] at hcode
    exact absurd hcode (by decide)
  · exact hlen hsha256

end PeerId

namespace Multiaddr

variable [MultihashCodec] [Ipv6Text]

/-- Every address that can be written is read back: the text of a peer id starts with `Qm` or with
a one, whatever its digest. -/
theorem text_read_back (hcodec : MultihashCodec.Exact) (hlayout : MultihashCodec.Layout)
    (hip6 : Ipv6Text.Exact) :
    (∀ addr : Multiaddr, addr.protocols ≠ [] → (∀ c ∈ addr.protocols, c.NameOk) →
      (∀ peerId, .p2p peerId ∈ addr.protocols → peerId.multihash.OfKey) →
        fromStr addr.display = .ok addr) ∧
    (∀ multihash : Multihash, multihash.code = sha256MultihashCode →
      multihash.digest.length = 32 →
        ['Q', 'm'] <+: (encodeBase58 (MultihashCodec.toBytes multihash)).toList) ∧
    (∀ multihash : Multihash, multihash.code = identityMultihashCode →
      ['1'] <+: (encodeBase58 (MultihashCodec.toBytes multihash)).toList) ∧
    ∀ peerId : PeerId, peerId.multihash.OfKey →
      PeerId.fromStr peerId.display = PeerId.fromBase58 peerId.display := by
  have hcode : ∀ peerId : PeerId, peerId.multihash.OfKey →
      peerId.multihash.code = identityMultihashCode ∨
        peerId.multihash.code = sha256MultihashCode :=
    fun peerId h => h.imp_right And.left
  refine ⟨?_, ?_, ?_, ?_⟩
  · intro addr hne hname hkeys
    apply fromStr_display hne
    intro c hc
    refine Protocol.readable hcodec hlayout hip6 ?_ (hname c hc) ?_
    · cases c with
      | p2p peerId => exact PeerId.valid_of_ofKey (hkeys peerId hc)
      | _ => exact trivial
    · rintro peerId rfl
      exact hcode peerId (hkeys peerId hc)
  · intro multihash hsha256 hlen
    have hhead : ([0x12, 0x20] ++ multihash.digest).head? ≠ some 0 :=
      fun h => absurd (Option.some.inj h) (by decide)
    rw [hlayout.toBytes_sha256 hsha256 hlen]
    exact (qm_prefix_encodeBase58_iff hhead).mpr (PeerId.sha256_leading_digits hlen)
  · intro multihash hidentity
    obtain ⟨text, htext⟩ := encodeBase58_zero (hlayout.head?_toBytes hidentity)
    rw [htext]
    exact ⟨text, rfl⟩
  · intro peerId h
    have hlegacy := PeerId.legacyForm_toBytes hlayout (PeerId.valid_of_ofKey h) (hcode peerId h)
    exact if_pos ((isLegacyText_encodeBase58 _).mpr hlegacy)

omit [MultihashCodec] [Ipv6Text] in
/-- An address with an inlined key, and one with a hashed key. -/
theorem text_read_back_dns :
    @fromStr multihashCodec ipv6Decimal (@display multihashCodec ipv6Decimal dnsAddr) =
      .ok dnsAddr ∧
    @fromStr multihashCodec ipv6Decimal
      (@display multihashCodec ipv6Decimal ⟨[.quicV1, .p2p PeerId.sha256PeerId]⟩) =
        .ok ⟨[.quicV1, .p2p PeerId.sha256PeerId]⟩ := by
  obtain ⟨hread, -⟩ := @text_read_back multihashCodec ipv6Decimal multihashCodec_exact
    multihashCodec_layout ipv6Decimal_exact
  refine ⟨hread dnsAddr (by decide) (by decide +kernel) ?_, hread _ (by decide) (by decide) ?_⟩
  · intro peerId hpeer
    obtain rfl : peerId = ⟨0x00, [7, 8, 9], loopbackAddr_digest_le⟩ := by
      simpa [dnsAddr] using hpeer
    exact .inl rfl
  · intro peerId hpeer
    obtain rfl : peerId = PeerId.sha256PeerId := by simpa using hpeer
    exact .inr ⟨rfl, rfl⟩

end Multiaddr

end Minip2p
