import Minip2p.Core.Wire
import Minip2p.Identity.PeerId

/-!
# Binary multiaddrs

`Protocol` and the binary codec of `Multiaddr` from `crates/core/src/protocol.rs` and
`multiaddr.rs`: each component is a varint code followed by a value that is fixed in size,
length-prefixed or absent.
-/

namespace Minip2p

/-! ## UTF-8 errors -/

/-- `core::str::Utf8Error`: where the valid part ends, and the length of the invalid sequence
unless the input just stops early. -/
structure Utf8Error where
  validUpTo : Nat
  errorLen : Option Nat
deriving DecidableEq, Repr

namespace Utf8Error

/-- The `Display` text. -/
def display (error : Utf8Error) : String :=
  match error.errorLen with
  | some n => s!"invalid utf-8 sequence of {n} bytes from index {error.validUpTo}"
  | none => s!"incomplete utf-8 byte sequence from index {error.validUpTo}"

/-- A continuation byte. -/
def isContinuation (byte : UInt8) : Bool := 0x80 ≤ byte && byte ≤ 0xBF

/-- Which second bytes may follow the lead byte `first` of a sequence of three or four. -/
def secondByteOk (first second : UInt8) : Bool :=
  if first = 0xE0 then 0xA0 ≤ second && second ≤ 0xBF
  else if first = 0xED then 0x80 ≤ second && second ≤ 0x9F
  else if first = 0xF0 then 0x90 ≤ second && second ≤ 0xBF
  else if first = 0xF4 then 0x80 ≤ second && second ≤ 0x8F
  else isContinuation second

/-- The continuation bytes a lead byte asks for; `none` for a byte that cannot lead. -/
def continuationsOf (first : UInt8) : Option Nat :=
  if first < 0x80 then some 0
  else if 0xC2 ≤ first ∧ first ≤ 0xDF then some 1
  else if 0xE0 ≤ first ∧ first ≤ 0xEF then some 2
  else if 0xF0 ≤ first ∧ first ≤ 0xF4 then some 3
  else none

/-- The check of the continuation bytes from position `pos` of their sequence: the error length
on failure. -/
def checkContinuations (first : UInt8) : Nat → Nat → Bytes → Except (Option Nat) Bytes
  | 0, _, rest => .ok rest
  | _ + 1, _, [] => .error none
  | n + 1, pos, byte :: rest =>
    let ok := if pos = 1 then secondByteOk first byte else isContinuation byte
    if ok then checkContinuations first n (pos + 1) rest else .error (some pos)

/-- The validation loop of `core::str::from_utf8`, at byte `index` of the input. -/
def scan : Nat → Nat → Bytes → Option Utf8Error
  | 0, _, _ => none
  | _ + 1, _, [] => none
  | fuel + 1, index, first :: rest =>
    match continuationsOf first with
    | none => some ⟨index, some 1⟩
    | some n =>
      match checkContinuations first n 1 rest with
      | .error errorLen => some ⟨index, errorLen⟩
      | .ok rest => scan fuel (index + n + 1) rest

end Utf8Error

/-- `core::str::from_utf8`. -/
def fromUtf8 (bytes : Bytes) : Except Utf8Error String :=
  match String.fromUTF8? ⟨bytes.toArray⟩ with
  | some text => .ok text
  | none => .error ((Utf8Error.scan bytes.length 0 bytes).getD ⟨0, none⟩)

/-- `str::as_bytes`. -/
def asBytes (text : String) : Bytes := text.toUTF8.toList

/-- The loop of `ByteArray.toList` keeps what it has read, in reverse. -/
theorem toList_loop_eq (bytes : ByteArray) (i : Nat) (r : List UInt8) :
    ByteArray.toList.loop bytes i r = r.reverse ++ bytes.data.toList.drop i := by
  fun_induction ByteArray.toList.loop bytes i r with
  | case1 i r hlt ih =>
    have hi : i < bytes.data.toList.length := by simpa using hlt
    have hget : bytes.get! i = bytes.data.toList[i] := by
      have h : i < bytes.data.size := hlt
      show bytes.data[i]! = _
      rw [getElem!_pos bytes.data i h]
      simp
    rw [ih, List.drop_eq_getElem_cons hi, List.reverse_cons, List.append_assoc, hget]
    rfl
  | case2 i r hge =>
    have hi : bytes.data.toList.length ≤ i := by simpa using hge
    rw [List.drop_eq_nil_of_le hi, List.append_nil]

theorem asBytes_eq (text : String) : asBytes text = text.toByteArray.data.toList :=
  toList_loop_eq _ 0 []

theorem asBytes_empty : asBytes "" = [] := by
  rw [asBytes_eq]
  rfl

/-- The bytes of a joined text. -/
theorem asBytes_append (a b : String) : asBytes (a ++ b) = asBytes a ++ asBytes b := by
  simp [asBytes_eq]

/-- A text is determined by its bytes. -/
theorem asBytes_inj {a b : String} (h : asBytes a = asBytes b) : a = b := by
  rw [asBytes_eq, asBytes_eq] at h
  apply String.toByteArray_inj.mp
  exact ByteArray.ext (Array.toList_inj.mp h)

/-- Bytes that are UTF-8 are the bytes of their text. -/
theorem asBytes_of_fromUtf8 {bytes : Bytes} {text : String} (h : fromUtf8 bytes = .ok text) :
    asBytes text = bytes := by
  rw [fromUtf8] at h
  split at h
  · next text' htext =>
    obtain rfl := Except.ok.inj h
    rw [String.fromUTF8?] at htext
    split at htext
    · obtain rfl := Option.some.inj htext
      rw [asBytes_eq]
      rfl
    · cases htext
  · cases h

/-- The bytes of a text are UTF-8. -/
theorem fromUtf8_asBytes (text : String) : fromUtf8 (asBytes text) = .ok text := by
  have hbytes : (⟨(asBytes text).toArray⟩ : ByteArray) = text.toByteArray := by
    rw [asBytes_eq]
  rw [fromUtf8, hbytes, String.fromUTF8?, dif_pos text.isValidUTF8]
  rfl

/-! ## Components -/

def ip4Code : UInt64 := 0x04
def ip6Code : UInt64 := 0x29
def dnsCode : UInt64 := 0x35
def dns4Code : UInt64 := 0x36
def dns6Code : UInt64 := 0x37
def udpCode : UInt64 := 0x0111
def quicV1Code : UInt64 := 0x01cd
def p2pCode : UInt64 := 0x01a5

/-- A single component of a multiaddr. -/
inductive Protocol
  | ip4 (octets : Vector UInt8 4)
  | ip6 (octets : Vector UInt8 16)
  | dns (name : String)
  | dns4 (name : String)
  | dns6 (name : String)
  | udp (port : UInt16)
  | quicV1
  | p2p (peerId : PeerId)
deriving DecidableEq, Repr

/-- Errors from parsing a multiaddr, as text or in binary. -/
inductive MultiaddrError
  | emptyInput
  | missingLeadingSlash
  | emptyProtocol
  | missingValue (protocol : String)
  | unknownProtocol (protocol : String)
  | invalidIp4 (value : String)
  | invalidIp6 (value : String)
  | invalidPort (value : String)
  | invalidDnsName (value : String)
  | invalidPeerId (value : String) (source : PeerIdError)
  | unknownProtocolCode (code : UInt64)
  | truncatedBinaryValue (protocol : String)
  | invalidBinaryValue (protocol reason : String)
  | varint (error : VarintError)
deriving DecidableEq, Repr

namespace Protocol

/-- The multicodec code of a component. -/
def code : Protocol → UInt64
  | ip4 _ => ip4Code
  | ip6 _ => ip6Code
  | dns _ => dnsCode
  | dns4 _ => dns4Code
  | dns6 _ => dns6Code
  | udp _ => udpCode
  | quicV1 => quicV1Code
  | p2p _ => p2pCode

/-- A body after its varint length. -/
def writeLengthPrefixed (body : Bytes) : Bytes :=
  writeUvarint (UInt64.ofNat body.length) ++ body

/-- The value of a component after its code. -/
def writeValue [MultihashCodec] : Protocol → Bytes
  | ip4 octets => octets.toList
  | ip6 octets => octets.toList
  | dns name | dns4 name | dns6 name => writeLengthPrefixed (asBytes name)
  | udp port => [(port >>> 8).toUInt8, port.toUInt8]
  | quicV1 => []
  | p2p peerId => writeLengthPrefixed peerId.toBytes

/-- The binary encoding of a component. -/
def writeBinary [MultihashCodec] (protocol : Protocol) : Bytes :=
  writeUvarint protocol.code ++ protocol.writeValue

/-- Reads `n` bytes from the front of `bytes` as a fixed-size value. -/
def fixed (n : Nat) (bytes : Bytes) (protocol : String) :
    Fallible MultiaddrError (Vector UInt8 n) :=
  if h : bytes.length < n then throw (.truncatedBinaryValue protocol)
  else return ⟨(bytes.take n).toArray, by rw [List.size_toArray, List.length_take]; omega⟩

/-- Reads a length prefix and that many bytes; the count includes the prefix. -/
def lengthPrefixed (bytes : Bytes) (protocol : String) : Fallible MultiaddrError (Bytes × Nat) :=
  match readUvarint bytes with
  | .error e => throw (.varint e)
  | .ok (len, consumed) => do
    let len := len.toNat
    let available ← Exec.sub bytes.length consumed
    if len > available then throw (.truncatedBinaryValue protocol)
    else
      let stop ← Exec.add consumed len
      let body ← Exec.slice bytes consumed stop
      return (body, stop)

/-- The body of a DNS component. -/
def readName (rest : Bytes) (consumed : Nat) (label : String) (protocol : String → Protocol) :
    Fallible MultiaddrError (Protocol × Nat) := do
  let (body, used) ← lengthPrefixed rest label
  let consumed ← Exec.add consumed used
  match fromUtf8 body with
  | .error e => throw (.invalidBinaryValue label e.display)
  | .ok name => return (protocol name, consumed)

/-- What `readBinary` does after the code. -/
def readValue [MultihashCodec] (code : UInt64) (rest : Bytes) (consumed : Nat) :
    Fallible MultiaddrError (Protocol × Nat) := do
  if code = ip4Code then
    let value ← fixed 4 rest "ip4"
    let consumed ← Exec.add consumed 4
    return (ip4 value, consumed)
  else if code = ip6Code then
    let value ← fixed 16 rest "ip6"
    let consumed ← Exec.add consumed 16
    return (ip6 value, consumed)
  else if code = udpCode then
    let value ← fixed 2 rest "udp"
    let consumed ← Exec.add consumed 2
    return (udp ((value[0].toUInt16 <<< 8) ||| value[1].toUInt16), consumed)
  else if code = quicV1Code then
    return (quicV1, consumed)
  else if code = dnsCode then
    readName rest consumed "dns" dns
  else if code = dns4Code then
    readName rest consumed "dns4" dns4
  else if code = dns6Code then
    readName rest consumed "dns6" dns6
  else if code = p2pCode then
    let (body, used) ← lengthPrefixed rest "p2p"
    let consumed ← Exec.add consumed used
    match PeerId.fromBytes body with
    | .error e => throw (.invalidBinaryValue "p2p" e.display)
    | .ok peerId => return (p2p peerId, consumed)
  else throw (.unknownProtocolCode code)

/-- Reads a single component from the front of `bytes`, with the number of bytes consumed. -/
def readBinary [MultihashCodec] (bytes : Bytes) : Fallible MultiaddrError (Protocol × Nat) :=
  match readUvarint bytes with
  | .error e => throw (.varint e)
  | .ok (code, consumed) => do
    let rest ← Exec.sliceFrom bytes consumed
    readValue code rest consumed

end Protocol

theorem toList_pair (value : Vector UInt8 2) : value.toList = [value[0], value[1]] := by
  rcases value with ⟨⟨l⟩, hl⟩
  match l, hl with
  | [hi, lo], _ => rfl

/-! ## Addresses -/

/-- An ordered sequence of protocol components. -/
structure Multiaddr where
  protocols : List Protocol
deriving DecidableEq, Repr

namespace Multiaddr

/-- The binary encoding: that of each component in order. -/
def toBytes [MultihashCodec] (addr : Multiaddr) : Bytes :=
  addr.protocols.flatMap Protocol.writeBinary

/-- The loop of `fromBytes`. Every component has at least a byte of code, so
`bytes.length + 1` turns are enough. -/
def fromBytesGo [MultihashCodec] (bytes : Bytes) :
    Nat → List Protocol → Nat → Fallible MultiaddrError Multiaddr
  | 0, _, _ => liftM (Except.error Panic.diverged : Exec Multiaddr)
  | fuel + 1, protocols, offset =>
    if offset < bytes.length then do
      let rest ← Exec.sliceFrom bytes offset
      let (protocol, consumed) ← Protocol.readBinary rest
      let offset ← Exec.add offset consumed
      fromBytesGo bytes fuel (protocols ++ [protocol]) offset
    else return ⟨protocols⟩

/-- Decodes a multiaddr from its binary form. -/
def fromBytes [MultihashCodec] (bytes : Bytes) : Fallible MultiaddrError Multiaddr :=
  fromBytesGo bytes (bytes.length + 1) [] 0

end Multiaddr

/-! ## Arithmetic safety of the decoder -/

namespace Protocol

variable {bytes : Bytes}

/-- Reading a value of fixed length stays within the bytes. -/
theorem fixed_safe (n : Nat) (protocol : String) :
    Safe (fixed n bytes protocol) fun _ => n ≤ bytes.length := by
  unfold fixed
  split
  · exact Safe.throw _
  · exact Safe.pure (by omega)

/-- A length-prefixed body lies inside the input. -/
theorem lengthPrefixed_safe (hlen : bytes.length < 2 ^ 63) (protocol : String) :
    Safe (lengthPrefixed bytes protocol) fun r => r.2 ≤ bytes.length := by
  unfold lengthPrefixed
  split
  · exact Safe.throw _
  · next len consumed hread =>
    have hused := readUvarint_used hread
    refine Safe.bind_lift (Exec.sub_eq_ok (by omega)) ?_
    split
    · exact Safe.throw _
    · refine Safe.bind_lift (Exec.add_eq_ok (by omega)) ?_
      have hslice : Exec.slice bytes consumed (consumed + len.toNat) = .ok _ :=
        Exec.slice_eq_ok (by omega) (by omega)
      refine Safe.bind (Safe.lift (Q := fun _ => True) hslice trivial) ?_
      intro body _
      exact Safe.pure (by show consumed + len.toNat ≤ bytes.length; omega)

/-- The bytes of a value after `consumed` bytes of code: the sum stays in range. -/
theorem add_consumed_safe {ε : Type} {consumed used : Nat} (hlen : bytes.length < 2 ^ 63)
    (hc : consumed ≤ bytes.length) (hpos : 0 < consumed)
    (hused : used ≤ (bytes.drop consumed).length) :
    Safe (liftM (Exec.add consumed used) : Fallible ε Nat)
      fun r => 0 < r ∧ r ≤ bytes.length := by
  rw [List.length_drop] at hused
  exact Safe.lift (Exec.add_eq_ok (by omega)) (by omega)

/-- Reading a name stays within the bytes. -/
theorem readName_safe {consumed : Nat} (hlen : bytes.length < 2 ^ 63)
    (hc : consumed ≤ bytes.length) (hpos : 0 < consumed) (label : String)
    (protocol : String → Protocol) :
    Safe (readName (bytes.drop consumed) consumed label protocol)
      fun r => 0 < r.2 ∧ r.2 ≤ bytes.length := by
  have hrest : (bytes.drop consumed).length < 2 ^ 63 := by rw [List.length_drop]; omega
  unfold readName
  refine Safe.bind (lengthPrefixed_safe hrest label) ?_
  rintro ⟨body, used⟩ hused
  refine Safe.bind (add_consumed_safe hlen hc hpos hused) ?_
  intro consumed' hconsumed'
  split
  · exact Safe.throw _
  · exact Safe.pure hconsumed'

/-- Reading the value of a protocol stays within the bytes and moves on. -/
theorem readValue_safe [MultihashCodec] (hlen : bytes.length < 2 ^ 63)
    (hc : consumed ≤ bytes.length) (hpos : 0 < consumed) (code : UInt64) :
    Safe (readValue code (bytes.drop consumed) consumed)
      fun r => 0 < r.2 ∧ r.2 ≤ bytes.length := by
  have hrest : (bytes.drop consumed).length < 2 ^ 63 := by rw [List.length_drop]; omega
  have hfixed : ∀ (n : Nat) (label : String) (protocol : Vector UInt8 n → Protocol),
      Safe (do
        let value ← fixed n (bytes.drop consumed) label
        let consumed ← Exec.add consumed n
        return (protocol value, consumed) : Fallible MultiaddrError (Protocol × Nat))
        fun r => 0 < r.2 ∧ r.2 ≤ bytes.length := by
    intro n label protocol
    refine Safe.bind (fixed_safe n label) ?_
    intro value hvalue
    refine Safe.bind (add_consumed_safe hlen hc hpos hvalue) ?_
    intro consumed' hconsumed'
    exact Safe.pure hconsumed'
  unfold readValue
  -- one case for each code, in the order of the source's match
  split
  · exact hfixed 4 "ip4" ip4
  split
  · exact hfixed 16 "ip6" ip6
  split
  · exact hfixed 2 "udp" fun value => udp ((value[0].toUInt16 <<< 8) ||| value[1].toUInt16)
  split
  · exact Safe.pure ⟨hpos, hc⟩
  split
  · exact readName_safe hlen hc hpos "dns" dns
  split
  · exact readName_safe hlen hc hpos "dns4" dns4
  split
  · exact readName_safe hlen hc hpos "dns6" dns6
  split
  · refine Safe.bind (lengthPrefixed_safe hrest "p2p") ?_
    rintro ⟨body, used⟩ hused
    refine Safe.bind (add_consumed_safe hlen hc hpos hused) ?_
    intro consumed' hconsumed'
    split
    · exact Safe.throw _
    · exact Safe.pure hconsumed'
  · exact Safe.throw _

/-- A component that was read took at least one byte, all of them inside the input. -/
theorem readBinary_safe [MultihashCodec] (hlen : bytes.length < 2 ^ 63) :
    Safe (readBinary bytes) fun r => 0 < r.2 ∧ r.2 ≤ bytes.length := by
  unfold readBinary
  split
  · exact Safe.throw _
  next code consumed hread =>
  obtain ⟨hpos, hc, -⟩ := readUvarint_used hread
  exact Safe.bind_lift (Exec.sliceFrom_eq_ok hc) (readValue_safe hlen hc hpos code)

end Protocol

namespace Multiaddr

/-- The loop of `from_bytes` ends without a panic. -/
theorem fromBytesGo_safe [MultihashCodec] {bytes : Bytes} (hlen : bytes.length < 2 ^ 63)
    {fuel offset : Nat} {protocols : List Protocol} (hoffset : offset ≤ bytes.length)
    (hfuel : bytes.length < offset + fuel) :
    Safe (fromBytesGo bytes fuel protocols offset) fun _ => True := by
  induction fuel generalizing protocols offset with
  | zero => omega
  | succ fuel ih =>
    unfold fromBytesGo
    split
    · refine Safe.bind_lift (Exec.sliceFrom_eq_ok hoffset) ?_
      have hrest : (bytes.drop offset).length < 2 ^ 63 := by rw [List.length_drop]; omega
      refine Safe.bind (Protocol.readBinary_safe hrest) ?_
      rintro ⟨protocol, consumed⟩ ⟨hpos, hle⟩
      rw [List.length_drop] at hle
      dsimp only at hpos hle
      refine Safe.bind_lift (Exec.add_eq_ok (by omega)) ?_
      exact ih (by omega) (by omega)
    · exact Safe.pure trivial

/-- Decoding a multiaddr neither panics nor runs on. -/
theorem fromBytes_safe [MultihashCodec] {bytes : Bytes} (hlen : bytes.length < 2 ^ 63) :
    Safe (fromBytes bytes) fun _ => True :=
  fromBytesGo_safe hlen (Nat.zero_le _) (by omega)

end Multiaddr

end Minip2p
