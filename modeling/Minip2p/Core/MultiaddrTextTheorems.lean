import Minip2p.Core.MultiaddrText
import Minip2p.Core.MultiaddrTheorems
import Minip2p.Identity.PeerIdTextTheorems

/-!
# The text form of a decoded multiaddr

An address that came in as bytes is printed and parsed again. The parser reads the components back
one by one, provided that none of the values that were printed is empty or has a `/` in it. Values
of every protocol but the DNS ones meet this by their format. The binary decoder checks of a DNS
name only that it is UTF-8, so there the parser's own check is the exact condition.
-/

namespace Minip2p

/-- What the text form needs of `core::net::Ipv6Addr`: its `Display` and `FromStr` are inverse, and
an address is written with hexadecimal digits, colons and dots. -/
structure Ipv6Text.Exact [Ipv6Text] : Prop where
  fromStr_display : ∀ octets, Ipv6Text.fromStr (Ipv6Text.display octets) = some octets
  no_slash : ∀ octets, '/' ∉ (Ipv6Text.display octets).toList
  nonempty : ∀ octets, Ipv6Text.display octets ≠ ""

/-! ## Numbers and dotted quads -/

theorem isDigit_of_mem_repr {n : ℕ} {c : Char} (h : c ∈ n.repr.toList) : c.isDigit = true := by
  rw [Nat.toList_repr] at h
  exact Nat.isDigit_of_mem_toDigits (by decide) (by decide) h

theorem repr_ne_empty (n : ℕ) : n.repr.toList ≠ [] := by
  rw [Nat.toList_repr]
  exact Nat.toDigits_ne_nil

/-- A number below the bound is read back. -/
theorem parseUnsigned_repr {n bound : ℕ} (h : n < bound) : parseUnsigned bound n.repr = some n := by
  have hplus : n.repr.toList.head? ≠ some '+' := by
    intro hhead
    exact absurd (isDigit_of_mem_repr (List.mem_of_mem_head? hhead)) (by decide)
  have hdigits : n.repr.toList.all Char.isDigit = true :=
    List.all_eq_true.mpr fun _ hc => isDigit_of_mem_repr hc
  have hvalue : Nat.ofDigitChars 10 n.repr.toList 0 = n := by
    rw [Nat.toList_repr, Nat.ofDigitChars_ten_toDigits]
  have hempty : n.repr.toList.isEmpty = false := List.isEmpty_eq_false_iff.mpr (repr_ne_empty n)
  rw [parseUnsigned]
  simp only [if_neg hplus, hdigits, hempty, hvalue, if_pos h, Bool.not_false, Bool.and_self,
    if_true]

theorem mapM_parseUnsigned {ns : List ℕ} {bound : ℕ} (h : ∀ n ∈ ns, n < bound) :
    (ns.map Nat.repr).mapM (parseUnsigned bound) = some ns := by
  induction ns with
  | nil => rfl
  | cons n ns ih =>
    rw [List.map_cons, List.mapM_cons, parseUnsigned_repr (h n List.mem_cons_self),
      ih fun n' hn' => h n' (List.mem_cons_of_mem _ hn')]
    rfl

/-- Splitting undoes joining. -/
theorem splitAtChar_intercalate {c : Char} {segments : List String}
    (h : ∀ s ∈ segments, c ∉ s.toList) (hne : segments ≠ []) :
    splitAtChar c ((String.singleton c).intercalate segments) = segments := by
  rw [splitAtChar, String.toList_intercalate, String.toList_singleton, List.splitOn_intercalate]
  · rw [List.map_map]
    simp
  · intro l hl
    obtain ⟨s, hs, rfl⟩ := List.mem_map.mp hl
    exact h s hs
  · simpa using hne

theorem not_mem_intercalate {c : Char} {separator : List Char} {lines : List (List Char)}
    (hseparator : c ∉ separator) (h : ∀ l ∈ lines, c ∉ l) : c ∉ separator.intercalate lines := by
  induction lines with
  | nil => exact List.not_mem_nil
  | cons l lines ih =>
    have hrest := ih fun l' hl' => h l' (List.mem_cons_of_mem _ hl')
    cases lines with
    | nil =>
      rw [List.intercalate_singleton]
      exact h l List.mem_cons_self
    | cons l' lines =>
      rw [List.intercalate_cons_cons, List.mem_append, List.mem_append]
      rintro ((hl | hl) | hl)
      · exact h l List.mem_cons_self hl
      · exact hseparator hl
      · exact hrest hl

/-- Text in which every segment follows a separator. -/
theorem splitAtChar_flatMap {c : Char} {segments : List String} {text : String}
    (h : ∀ s ∈ segments, c ∉ s.toList)
    (htext : text.toList = segments.flatMap fun s => c :: s.toList) :
    splitAtChar c text = "" :: segments := by
  have hjoin : ((String.singleton c).intercalate ("" :: segments)).toList = text.toList := by
    rw [htext, String.toList_intercalate, String.toList_singleton, List.map_cons]
    clear htext h
    induction segments with
    | nil => rfl
    | cons s segments ih =>
      rw [List.map_cons, List.intercalate_cons_cons, List.flatMap_cons, ← ih]
      cases segments with
      | nil =>
        rw [List.map_nil, List.intercalate_singleton]
        simp
      | cons s' segments =>
        rw [List.map_cons, List.intercalate_cons_cons, List.intercalate_cons_cons]
        simp
  rw [← String.toList_inj.mp hjoin]
  apply splitAtChar_intercalate
  · intro s hs
    rcases List.mem_cons.mp hs with rfl | hs
    · exact List.not_mem_nil
    · exact h s hs
  · exact List.cons_ne_nil _ _

theorem splitAtChar_displayIp4 (octets : Vector UInt8 4) :
    splitAtChar '.' (displayIp4 octets) = octets.toList.map fun octet => octet.toNat.repr := by
  apply splitAtChar_intercalate
  · intro s hs
    obtain ⟨octet, -, rfl⟩ := List.mem_map.mp hs
    intro hdot
    exact absurd (isDigit_of_mem_repr hdot) (by decide)
  · intro hnil
    have hlen := congrArg List.length hnil
    simp at hlen

/-- An IPv4 address is read back from its text. -/
theorem parseIp4_displayIp4 (octets : Vector UInt8 4) :
    parseIp4 (displayIp4 octets) = some octets := by
  have hsplit := splitAtChar_displayIp4 octets
  rcases octets with ⟨⟨l⟩, hl⟩
  obtain ⟨a, b, c, d, rfl⟩ := List.length_eq_four.mp hl
  have hparts : splitAtChar '.' _ = [a.toNat.repr, b.toNat.repr, c.toNat.repr, d.toNat.repr] :=
    hsplit
  rw [parseIp4, hparts]
  simp only [parseUnsigned_repr (UInt8.toNat_lt _), Option.bind_eq_bind, Option.bind_some,
    UInt8.ofNat_toNat]
  rfl

/-- A dotted quad is a value that the parser can take. -/
theorem displayIp4_plain (octets : Vector UInt8 4) :
    displayIp4 octets ≠ "" ∧ '/' ∉ (displayIp4 octets).toList := by
  constructor
  · intro hempty
    have hread := parseIp4_displayIp4 octets
    rw [hempty] at hread
    cases hread
  · rw [displayIp4, String.toList_intercalate]
    apply not_mem_intercalate (by decide)
    intro l hl
    obtain ⟨s, hs, rfl⟩ := List.mem_map.mp hl
    obtain ⟨octet, -, rfl⟩ := List.mem_map.mp hs
    intro hslash
    exact absurd (isDigit_of_mem_repr hslash) (by decide)

theorem repr_plain (n : ℕ) : n.repr ≠ "" ∧ '/' ∉ n.repr.toList := by
  constructor
  · intro hempty
    exact repr_ne_empty n (congrArg String.toList hempty)
  · intro hslash
    exact absurd (isDigit_of_mem_repr hslash) (by decide)

/-- Base58btc text has no slash. -/
theorem base58Char_ne_slash : ∀ digit : Fin 58, base58Char digit ≠ '/' := by
  decide +kernel

/-- The base58 alphabet has no slash. -/
theorem encodeBase58_ne_slash (bytes : Bytes) : '/' ∉ (encodeBase58 bytes).toList := by
  rw [encodeBase58_toList, List.mem_append]
  rintro (hslash | hslash)
  · exact absurd (List.eq_of_mem_replicate hslash) (by decide)
  · obtain ⟨digit, hdigit, hchar⟩ := List.mem_map.mp hslash
    exact base58Char_ne_slash ⟨digit, digits_reverse_lt _ digit hdigit⟩ hchar

/-- A name that passes the check is one. -/
theorem isValidDns_plain {value : String} (h : isValidDns value = true) :
    value ≠ "" ∧ '/' ∉ value.toList := by
  rw [isValidDns, Bool.and_eq_true, Bool.and_eq_true, Bool.not_eq_true', Bool.not_eq_true'] at h
  refine ⟨?_, ?_⟩
  · rintro rfl
    cases h.1.1
  · simpa using h.1.2

/-! ## Components -/

namespace Protocol

variable [MultihashCodec] [Ipv6Text]

/-- The name of a protocol in text. -/
def label : Protocol → String
  | ip4 _ => "ip4"
  | ip6 _ => "ip6"
  | dns _ => "dns"
  | dns4 _ => "dns4"
  | dns6 _ => "dns6"
  | udp _ => "udp"
  | quicV1 => "quic-v1"
  | p2p _ => "p2p"

omit [MultihashCodec] [Ipv6Text] in
theorem label_ne_slash (protocol : Protocol) : '/' ∉ protocol.label.toList := by
  have hlabels : ∀ name ∈ ["ip4", "ip6", "dns", "dns4", "dns6", "udp", "quic-v1", "p2p"],
      '/' ∉ name.toList := by
    decide
  apply hlabels
  cases protocol <;> simp [label]

/-- The text of the value of a component. -/
def valueText : Protocol → Option String
  | ip4 octets => some (displayIp4 octets)
  | ip6 octets => some (Ipv6Text.display octets)
  | dns value | dns4 value | dns6 value => some value
  | udp port => some port.toNat.repr
  | quicV1 => none
  | p2p peerId => some peerId.display

/-- What stands between the slashes. -/
def segments (protocol : Protocol) : List String := protocol.label :: protocol.valueText.toList

/-- A protocol is displayed as its segments, each behind a slash. -/
theorem display_toList (protocol : Protocol) :
    protocol.display.toList = protocol.segments.flatMap fun s => '/' :: s.toList := by
  cases protocol <;>
    simp [display, segments, label, valueText, String.toList_append]

/-- A value that the parser can take: it is not empty and has no slash, and the parser of its
protocol gives the component back. -/
def Readable (protocol : Protocol) : Prop :=
  ∀ value ∈ protocol.valueText, value ≠ "" ∧ '/' ∉ value.toList ∧
    ∃ parse, valueParser protocol.label = some parse ∧ parse value = .ok protocol

/-- The parser's check of a DNS name. -/
def NameOk : Protocol → Prop
  | dns value | dns4 value | dns6 value => isValidDns value = true
  | _ => True

instance (protocol : Protocol) : Decidable protocol.NameOk :=
  match protocol with
  | dns value | dns4 value | dns6 value => inferInstanceAs (Decidable (isValidDns value = true))
  | ip4 _ | ip6 _ | udp _ | quicV1 | p2p _ => .isTrue trivial

/-- A component whose DNS name passes the check is read back from its text. -/
theorem readable (hcodec : MultihashCodec.Exact) (hlayout : MultihashCodec.Layout)
    (hip6 : Ipv6Text.Exact) {protocol : Protocol} (hvalid : protocol.Valid)
    (hname : protocol.NameOk)
    (hcode : ∀ peerId, protocol = p2p peerId → peerId.multihash.code = identityMultihashCode ∨
      peerId.multihash.code = sha256MultihashCode) : protocol.Readable := by
  cases protocol with
  | ip4 octets =>
    rintro _ ⟨⟩
    obtain ⟨hne, hslash⟩ := displayIp4_plain octets
    refine ⟨hne, hslash, _, rfl, ?_⟩
    simp only [parseIp4_displayIp4]
  | ip6 octets =>
    rintro _ ⟨⟩
    refine ⟨hip6.nonempty octets, hip6.no_slash octets, _, rfl, ?_⟩
    simp only [hip6.fromStr_display]
  | dns name | dns4 name | dns6 name =>
    rintro _ ⟨⟩
    obtain ⟨hne, hslash⟩ := isValidDns_plain hname
    exact ⟨hne, hslash, _, rfl, if_pos hname⟩
  | udp port =>
    rintro _ ⟨⟩
    obtain ⟨hne, hslash⟩ := repr_plain port.toNat
    refine ⟨hne, hslash, _, rfl, ?_⟩
    simp only [parseUnsigned_repr port.toNat_lt, UInt16.ofNat_toNat]
  | quicV1 => rintro _ ⟨⟩
  | p2p peerId =>
    rintro _ ⟨⟩
    have hread : PeerId.fromStr peerId.display = .ok peerId :=
      PeerId.fromStr_display_of_legacyForm hcodec hvalid
        (PeerId.legacyForm_toBytes hlayout hvalid (hcode peerId rfl))
    refine ⟨?_, encodeBase58_ne_slash _, _, rfl, ?_⟩
    · intro hempty
      rw [hempty] at hread
      cases hread
    · simp only [hread]

/-- What the parser of a value returns has a checked name. -/
theorem nameOk_of_valueParser {name value : String}
    {parse : String → Except MultiaddrError Protocol} {protocol : Protocol}
    (h : valueParser name = some parse) (hparse : parse value = .ok protocol) :
    protocol.NameOk := by
  unfold valueParser at h
  split at h
  case h_8 => cases h
  all_goals
    obtain rfl := Option.some.inj h
    simp only at hparse
    split at hparse
  all_goals cases hparse
  -- the names come from the branch of the check, the other components have none
  all_goals first
    | exact trivial
    | exact ‹isValidDns value = true›

end Protocol

namespace Multiaddr

variable [MultihashCodec] [Ipv6Text]

theorem display_toList (addr : Multiaddr) :
    addr.display.toList = (addr.protocols.flatMap Protocol.segments).flatMap
      fun s => '/' :: s.toList := by
  rw [display, String.toList_join, List.flatMap_map, List.flatMap_assoc]
  exact congrArg List.flatten (List.map_congr_left fun c _ => c.display_toList)

/-- The parser takes the components off the segments, one by one. -/
theorem parseSegments_segments {protocols done : List Protocol}
    (h : ∀ c ∈ protocols, c.Readable) :
    parseSegments (protocols.flatMap Protocol.segments) done = .ok ⟨done ++ protocols⟩ := by
  induction protocols generalizing done with
  | nil =>
    rw [List.flatMap_nil, parseSegments, List.append_nil]
  | cons c protocols ih =>
    have hrest : parseSegments _ (done ++ [c]) = _ :=
      ih fun c' hc' => h c' (List.mem_cons_of_mem _ hc')
    rw [List.append_assoc, List.singleton_append] at hrest
    have hlabel : c.label.isEmpty = false := by
      cases c <;> rfl
    cases hvalue : c.valueText with
    | none =>
      obtain rfl : c = .quicV1 := by
        cases c <;> first | rfl | cases hvalue
      exact hrest
    | some value =>
      obtain ⟨hne, -, parse, hparser, hparse⟩ := h c List.mem_cons_self value hvalue
      have hquic : c.label ≠ "quic-v1" := by
        intro hquic
        rw [hquic] at hparser
        cases hparser
      have hempty : value.isEmpty = false := by
        rw [String.isEmpty_eq_false_iff]
        exact hne
      rw [List.flatMap_cons, Protocol.segments, hvalue, Option.toList_some, List.cons_append,
        List.singleton_append, parseSegments]
      simp only [hlabel, hempty, hparser, hparse, if_neg hquic, Bool.false_eq_true, if_false]
      exact hrest

/-- Every DNS name of a parsed address passed the check. -/
theorem nameOk_of_parseSegments {segments : List String} {done : List Protocol} {addr : Multiaddr}
    (hdone : ∀ c ∈ done, c.NameOk) (h : parseSegments segments done = .ok addr) :
    ∀ c ∈ addr.protocols, c.NameOk := by
  fun_induction parseSegments segments done with
  | case1 done =>
    obtain rfl := Except.ok.inj h
    exact hdone
  | case3 rest done hne ih =>
    refine ih ?_ h
    rw [List.forall_mem_append]
    exact ⟨hdone, List.forall_mem_singleton.mpr trivial⟩
  | case8 name done hne hquic parse hparser value rest hvalue component hparse ih =>
    refine ih ?_ h
    rw [List.forall_mem_append]
    exact ⟨hdone, List.forall_mem_singleton.mpr (Protocol.nameOk_of_valueParser hparser hparse)⟩
  | case2 | case4 | case5 | case6 | case7 => cases h

/-- An address of readable components is read back from its text. -/
theorem fromStr_display {addr : Multiaddr} (hne : addr.protocols ≠ [])
    (h : ∀ c ∈ addr.protocols, c.Readable) : fromStr addr.display = .ok addr := by
  have htext := addr.display_toList
  have hslash : ∀ s ∈ addr.protocols.flatMap Protocol.segments, '/' ∉ s.toList := by
    intro s hs
    obtain ⟨c, hc, hs⟩ := List.mem_flatMap.mp hs
    rcases List.mem_cons.mp hs with rfl | hs
    · exact c.label_ne_slash
    · exact (h c hc s (Option.mem_toList.mp hs)).2.1
  have hsplit := splitAtChar_flatMap hslash htext
  obtain ⟨c, protocols, hprotocols⟩ := List.exists_cons_of_ne_nil hne
  have hhead : addr.display.toList.head? = some '/' := by
    rw [htext, hprotocols]
    rfl
  have hempty : addr.display.isEmpty = false := by
    rw [String.isEmpty_eq_false_iff]
    intro hnil
    rw [hnil] at hhead
    cases hhead
  rw [fromStr, if_neg (by rw [hempty]; exact Bool.false_ne_true), if_neg (not_not.mpr hhead),
    hsplit]
  exact parseSegments_segments h

/-- A decoded address whose peer ids are inline or SHA-256 multihashes is read back from its text
exactly if its DNS names pass the check of the text parser. -/
theorem fromStr_display_iff (hcodec : MultihashCodec.Exact) (hlayout : MultihashCodec.Layout)
    (hip6 : Ipv6Text.Exact) {bytes : Bytes} {addr : Multiaddr} (hne : bytes ≠ [])
    (h : Yields (fromBytes bytes) addr)
    (hcode : ∀ peerId, .p2p peerId ∈ addr.protocols →
      peerId.multihash.code = identityMultihashCode ∨
        peerId.multihash.code = sha256MultihashCode) :
    fromStr addr.display = .ok addr ↔ ∀ c ∈ addr.protocols, c.NameOk := by
  have hvalid := fromBytes_valid hcodec h
  have hprotocols : addr.protocols ≠ [] := by
    intro hnil
    have hbytes := toBytes_of_fromBytes hcodec h
    rw [toBytes, hnil, List.flatMap_nil] at hbytes
    exact hne hbytes.symm
  constructor
  · intro hparse
    rw [fromStr] at hparse
    split at hparse
    · cases hparse
    split at hparse
    · cases hparse
    exact nameOk_of_parseSegments (fun _ hc => absurd hc List.not_mem_nil) hparse
  · intro hname
    apply fromStr_display hprotocols
    intro c hc
    refine Protocol.readable hcodec hlayout hip6 (hvalid c hc) (hname c hc) ?_
    rintro peerId rfl
    exact hcode peerId hc

end Multiaddr

/-! ## A run -/

/-- The groups of two octets of an IPv6 address. -/
def ipv6Groups : Bytes → List ℕ
  | hi :: lo :: octets => (256 * hi.toNat + lo.toNat) :: ipv6Groups octets
  | _ => []

/-- The octets of some groups. -/
def ipv6Octets (groups : List ℕ) : Bytes :=
  groups.flatMap fun group => [UInt8.ofNat (group / 256), UInt8.ofNat group]

/-- The eight groups of an address in decimal. Where every group is a digit other than zero, this
is the text of `core::net::Ipv6Addr`. -/
@[reducible] def ipv6Decimal : Ipv6Text where
  display octets := ":".intercalate ((ipv6Groups octets.toList).map Nat.repr)
  fromStr text :=
    match (splitAtChar ':' text).mapM (parseUnsigned 65536) with
    | none => none
    | some groups =>
      if h : (ipv6Octets groups).length = 16 then some ⟨(ipv6Octets groups).toArray, h⟩ else none

/-- The groups of an IPv6 address hold its octets. -/
theorem ipv6Groups_spec (octets : Bytes) (h : octets.length % 2 = 0) :
    ipv6Octets (ipv6Groups octets) = octets ∧ (∀ g ∈ ipv6Groups octets, g < 65536) ∧
      2 * (ipv6Groups octets).length = octets.length := by
  fun_induction ipv6Groups octets with
  | case1 hi lo octets ih =>
    obtain ⟨hoctets, hlt, hlen⟩ := ih (by rw [List.length_cons, List.length_cons] at h; omega)
    have hhi := hi.toNat_lt
    have hlo := lo.toNat_lt
    refine ⟨?_, List.forall_mem_cons.mpr ⟨by omega, hlt⟩, ?_⟩
    · have hhigh : UInt8.ofNat ((256 * hi.toNat + lo.toNat) / 256) = hi := by
        rw [Nat.mul_add_div (by decide), Nat.div_eq_of_lt (by omega), Nat.add_zero,
          UInt8.ofNat_toNat]
      have hlow : UInt8.ofNat (256 * hi.toNat + lo.toNat) = lo := by
        apply UInt8.toNat_inj.mp
        rw [UInt8.toNat_ofNat']
        omega
      have hcons : ipv6Octets ((256 * hi.toNat + lo.toNat) :: ipv6Groups octets) =
          [UInt8.ofNat ((256 * hi.toNat + lo.toNat) / 256),
            UInt8.ofNat (256 * hi.toNat + lo.toNat)] ++ ipv6Octets (ipv6Groups octets) := rfl
      rw [hcons, hhigh, hlow, hoctets]
      rfl
    · rw [List.length_cons, List.length_cons, List.length_cons]
      omega
  | case2 octets hshort =>
    cases octets with
    | nil => exact ⟨rfl, fun _ hg => absurd hg List.not_mem_nil, rfl⟩
    | cons hi octets =>
      cases octets with
      | nil => cases h
      | cons lo octets => exact absurd rfl (hshort hi lo octets)

theorem ipv6Decimal_exact : @Ipv6Text.Exact ipv6Decimal := by
  have hdecimal : ∀ octets : Vector UInt8 16, ∀ s ∈ (ipv6Groups octets.toList).map Nat.repr,
      s ≠ "" ∧ ∀ c ∈ s.toList, c.isDigit = true := by
    intro octets s hs
    obtain ⟨group, -, rfl⟩ := List.mem_map.mp hs
    exact ⟨(repr_plain group).1, fun c => isDigit_of_mem_repr⟩
  have hread : ∀ octets : Vector UInt8 16,
      @Ipv6Text.fromStr ipv6Decimal (@Ipv6Text.display ipv6Decimal octets) = some octets := by
    intro octets
    obtain ⟨hoctets, hlt, hlen⟩ :=
      ipv6Groups_spec octets.toList (by rw [Vector.length_toList])
    rw [Vector.length_toList] at hlen
    have hsplit : splitAtChar ':' (":".intercalate ((ipv6Groups octets.toList).map Nat.repr)) =
        (ipv6Groups octets.toList).map Nat.repr := by
      apply splitAtChar_intercalate
      · intro s hs hcolon
        exact absurd ((hdecimal octets s hs).2 _ hcolon) (by decide)
      · intro hnil
        rw [List.map_eq_nil_iff.mp hnil] at hlen
        cases hlen
    have hparse := mapM_parseUnsigned hlt
    unfold Ipv6Text.fromStr Ipv6Text.display ipv6Decimal
    simp only [hsplit, hparse, hoctets, Vector.length_toList, dite_true]
    rfl
  refine @Ipv6Text.Exact.mk ipv6Decimal hread ?_ ?_
  · intro octets
    show '/' ∉ (":".intercalate _).toList
    rw [String.toList_intercalate]
    apply not_mem_intercalate (by decide)
    intro l hl hslash
    obtain ⟨s, hs, rfl⟩ := List.mem_map.mp hl
    exact absurd ((hdecimal octets s hs).2 _ hslash) (by decide)
  · intro octets hempty
    have hnone := hread octets
    rw [hempty] at hnone
    cases hnone

/-- `/dns4/a/ip6/1:2:3:4:5:6:7:8/udp/4001/p2p/..` with an inlined peer id. -/
def dnsAddr : Multiaddr :=
  ⟨[.dns4 "a", .ip6 #v[0, 1, 0, 2, 0, 3, 0, 4, 0, 5, 0, 6, 0, 7, 0, 8], .udp 4001,
    .p2p ⟨0x00, [7, 8, 9], loopbackAddr_digest_le⟩]⟩

/-- The binary form of `dnsAddr`. -/
def dnsBytes : Bytes :=
  [0x36, 1, 97, 0x29, 0, 1, 0, 2, 0, 3, 0, 4, 0, 5, 0, 6, 0, 7, 0, 8, 0x91, 0x02, 0x0f, 0xa1,
    0xa5, 0x03, 5, 0, 3, 7, 8, 9]

namespace Multiaddr

theorem fromStr_display_dns :
    @fromStr multihashCodec ipv6Decimal (@display multihashCodec ipv6Decimal dnsAddr) =
      .ok dnsAddr ↔ ∀ c ∈ dnsAddr.protocols, c.NameOk := by
  refine @fromStr_display_iff multihashCodec ipv6Decimal multihashCodec_exact
    multihashCodec_layout ipv6Decimal_exact dnsBytes dnsAddr (by decide) ?_ ?_
  · show ExceptT.run _ = _
    decide +kernel
  · intro peerId hpeer
    obtain rfl : peerId = ⟨0x00, [7, 8, 9], by decide⟩ := by simpa [dnsAddr] using hpeer
    exact .inl rfl

/-- A DNS name with a slash in it is decoded, and its text is the text of another address. -/
theorem fromStr_display_slash :
    ¬ ∀ (codec : MultihashCodec) (ip6 : Ipv6Text), @MultihashCodec.Exact codec →
      @MultihashCodec.Layout codec → @Ipv6Text.Exact ip6 →
      ∀ (bytes : Bytes) (addr : Multiaddr), bytes ≠ [] → Yields (@fromBytes codec bytes) addr →
        (∀ peerId, .p2p peerId ∈ addr.protocols →
          peerId.multihash.code = identityMultihashCode ∨
            peerId.multihash.code = sha256MultihashCode) →
        @fromStr codec ip6 (@display codec ip6 addr) = .ok addr := by
  intro h
  have hparse := h multihashCodec ipv6Decimal multihashCodec_exact multihashCodec_layout
    ipv6Decimal_exact ([0x35, 7] ++ asBytes "a/udp/1") ⟨[.dns "a/udp/1"]⟩ (by decide +kernel)
    (by show ExceptT.run _ = _; decide +kernel) (by simp)
  exact absurd hparse (by decide +kernel)

end Multiaddr

end Minip2p
