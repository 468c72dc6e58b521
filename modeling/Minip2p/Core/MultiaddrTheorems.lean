import Minip2p.Core.Multiaddr
import Minip2p.Identity.PeerIdTheorems

/-!
# The binary form of a multiaddr is unique

Every address is read back from its binary form, and bytes that are accepted are the binary form
of the address they denote. A component says with its code how long it is, so no separators are
needed: `readBinary` stops exactly where `writeBinary` did.
-/

namespace Minip2p

/-! ## Ports -/

theorem toNat_bigEndian (hi lo : UInt8) :
    ((hi.toUInt16 <<< 8) ||| lo.toUInt16).toNat = 256 * hi.toNat + lo.toNat := by
  have hhi := hi.toNat_lt
  have hlo := lo.toNat_lt
  rw [UInt16.toNat_or, UInt16.toNat_shiftLeft, UInt8.toNat_toUInt16, UInt8.toNat_toUInt16]
  show (hi.toNat <<< 8) % 2 ^ 16 ||| lo.toNat = _
  rw [Nat.shiftLeft_eq, Nat.mod_eq_of_lt (by omega), mul_comm,
    ← Nat.two_pow_add_eq_or_of_lt (show lo.toNat < 2 ^ 8 by omega)]

theorem toNat_highByte (port : UInt16) : (port >>> 8).toUInt8.toNat = port.toNat / 256 := by
  have hport := port.toNat_lt
  rw [UInt16.toNat_toUInt8, UInt16.toNat_shiftRight]
  show (port.toNat >>> 8) % 2 ^ 8 = _
  rw [Nat.shiftRight_eq_div_pow]
  omega

/-- `u16::from_be_bytes` of `to_be_bytes`. -/
theorem bigEndian_bytes (port : UInt16) :
    ((port >>> 8).toUInt8.toUInt16 <<< 8) ||| port.toUInt8.toUInt16 = port := by
  apply UInt16.toNat_inj.mp
  rw [toNat_bigEndian, toNat_highByte, UInt16.toNat_toUInt8]
  omega

/-- `to_be_bytes` of `u16::from_be_bytes`. -/
theorem bytes_bigEndian (hi lo : UInt8) :
    [(((hi.toUInt16 <<< 8) ||| lo.toUInt16) >>> 8).toUInt8,
      ((hi.toUInt16 <<< 8) ||| lo.toUInt16).toUInt8] = [hi, lo] := by
  have hlo := lo.toNat_lt
  have hhigh : (((hi.toUInt16 <<< 8) ||| lo.toUInt16) >>> 8).toUInt8 = hi := by
    apply UInt8.toNat_inj.mp
    rw [toNat_highByte, toNat_bigEndian]
    omega
  have hlow : ((hi.toUInt16 <<< 8) ||| lo.toUInt16).toUInt8 = lo := by
    apply UInt8.toNat_inj.mp
    rw [UInt16.toNat_toUInt8, toNat_bigEndian]
    omega
  rw [hhigh, hlow]

/-! ## Values -/

namespace Protocol

/-- A value of fixed length is read from the front of the bytes. -/
theorem fixed_yields_iff {n : Nat} {bytes : Bytes} {label : String} {value : Vector UInt8 n} :
    Yields (fixed n bytes label) value ↔ n ≤ bytes.length ∧ bytes.take n = value.toList := by
  unfold fixed
  split
  · next hshort =>
    constructor
    · intro h
      exact absurd h Yields.not_throw
    · rintro ⟨hlen, -⟩
      omega
  · next hlong =>
    rw [Yields.pure_iff, ← Vector.toList_inj]
    exact ⟨fun h => ⟨by omega, h⟩, fun h => h.2⟩

/-- A length-prefixed body is read back. -/
theorem lengthPrefixed_write {body rest : Bytes} {label : String}
    (hlen : (writeLengthPrefixed body ++ rest).length < 2 ^ 63) :
    Yields (lengthPrefixed (writeLengthPrefixed body ++ rest) label)
      (body, (writeLengthPrefixed body).length) := by
  have hbody : (UInt64.ofNat body.length).toNat = body.length := by
    apply toNat_ofNat_length
    rw [List.length_append, writeLengthPrefixed, List.length_append] at hlen
    omega
  unfold lengthPrefixed
  rw [writeLengthPrefixed, List.append_assoc] at hlen ⊢
  rw [readUvarint_writeUvarint_append]
  simp only [List.length_append] at hlen ⊢
  rw [hbody, Yields.lift_bind_iff (Exec.sub_eq_ok (by omega)), if_neg (by omega),
    Yields.lift_bind_iff (Exec.add_eq_ok (by omega)),
    Yields.lift_bind_iff (Exec.slice_eq_ok (by omega) (by simp only [List.length_append]; omega)),
    Yields.pure_iff]
  rw [← List.append_assoc, List.take_left' (List.length_append), List.drop_left]

/-- What was read as length-prefixed is the prefix and the body. -/
theorem lengthPrefixed_inv {bytes body : Bytes} {label : String} {n : Nat}
    (h : Yields (lengthPrefixed bytes label) (body, n)) :
    n ≤ bytes.length ∧ bytes.take n = writeLengthPrefixed body := by
  unfold lengthPrefixed at h
  split at h
  · exact absurd h Yields.not_throw
  next len consumed hread =>
  have hused := readUvarint_used hread
  obtain ⟨available, havailable, h⟩ := Yields.bind_iff.mp h
  rw [Yields.lift_iff, Exec.sub_eq_ok hused.2.1, Except.ok.injEq] at havailable
  split at h
  · exact absurd h Yields.not_throw
  next hfits =>
  obtain ⟨stop, hstop, h⟩ := Yields.bind_iff.mp h
  obtain ⟨slice, hslice, h⟩ := Yields.bind_iff.mp h
  rw [Yields.pure_iff, Prod.mk.injEq] at h
  obtain ⟨rfl, rfl⟩ := h
  rw [Yields.lift_iff, Exec.add] at hstop
  split at hstop
  · obtain rfl := Except.ok.inj hstop
    rw [Yields.lift_iff, Exec.slice_eq_ok (by omega) (by omega), Except.ok.injEq] at hslice
    have hlength : slice.length = len.toNat := by
      rw [← hslice, List.length_drop, List.length_take]
      omega
    refine ⟨by omega, ?_⟩
    rw [writeLengthPrefixed, hlength, UInt64.ofNat_toNat, ← readUvarint_canonical hread, ← hslice,
      List.drop_take, Nat.add_sub_cancel_left, ← List.take_add]
  · cases hstop

/-- A name is read back from its binary form. -/
theorem readName_write {name : String} {rest : Bytes} {consumed : Nat} {label : String}
    {protocol : String → Protocol}
    (hlen : consumed + (writeLengthPrefixed (asBytes name) ++ rest).length < 2 ^ 63) :
    Yields (readName (writeLengthPrefixed (asBytes name) ++ rest) consumed label protocol)
      (protocol name, consumed + (writeLengthPrefixed (asBytes name)).length) := by
  refine Yields.bind_iff.mpr ⟨_, lengthPrefixed_write (by omega), ?_⟩
  rw [List.length_append] at hlen
  rw [Yields.lift_bind_iff (Exec.add_eq_ok (by omega)), fromUtf8_asBytes, Yields.pure_iff]

/-- A name that was read stands in the bytes behind its length. -/
theorem readName_inv {rest : Bytes} {consumed n : Nat} {label : String}
    {make : String → Protocol} {protocol : Protocol}
    (h : Yields (readName rest consumed label make) (protocol, n)) :
    ∃ name, protocol = make name ∧ n - consumed ≤ rest.length ∧ consumed ≤ n ∧
      rest.take (n - consumed) = writeLengthPrefixed (asBytes name) := by
  obtain ⟨⟨body, used⟩, hbody, h⟩ := Yields.bind_iff.mp h
  obtain ⟨total, htotal, h⟩ := Yields.bind_iff.mp h
  obtain ⟨hused, htake⟩ := lengthPrefixed_inv hbody
  rw [Yields.lift_iff, Exec.add] at htotal
  split at htotal
  · obtain rfl := Except.ok.inj htotal
    split at h
    · exact absurd h Yields.not_throw
    · next name hname =>
      rw [Yields.pure_iff, Prod.mk.injEq] at h
      obtain ⟨rfl, rfl⟩ := h
      refine ⟨name, rfl, by omega, by omega, ?_⟩
      rw [asBytes_of_fromUtf8 hname, Nat.add_sub_cancel_left, htake]
  · cases htotal

/-! ## Components -/

/-- A component that can be built: its peer id is one. -/
def Valid : Protocol → Prop
  | p2p peerId => peerId.Valid
  | _ => True

instance (protocol : Protocol) : Decidable protocol.Valid :=
  match protocol with
  | p2p peerId => inferInstanceAs (Decidable peerId.Valid)
  | ip4 _ | ip6 _ | dns _ | dns4 _ | dns6 _ | udp _ | quicV1 => .isTrue trivial

variable [MultihashCodec]

/-- Behind the code of the protocol stands its value. -/
theorem readBinary_eq {bytes : Bytes} {code : UInt64} {consumed : Nat}
    (h : readUvarint bytes = .ok (code, consumed)) :
    readBinary bytes = liftM (Exec.sliceFrom bytes consumed) >>= fun rest =>
      readValue code rest consumed := by
  unfold readBinary
  rw [h]

omit [MultihashCodec] in
/-- A fixed-size value and its place in the input. -/
theorem fixed_add_yields_iff {n consumed total : Nat} {rest : Bytes} {label : String}
    {make : Vector UInt8 n → Protocol} {protocol : Protocol} (hlen : consumed + n < 2 ^ 64) :
    Yields (do
      let value ← fixed n rest label
      let consumed ← Exec.add consumed n
      return (make value, consumed) : Fallible MultiaddrError (Protocol × Nat)) (protocol, total) ↔
    ∃ value, make value = protocol ∧ consumed + n = total ∧ n ≤ rest.length ∧
      rest.take n = value.toList := by
  rw [Yields.bind_iff]
  refine exists_congr fun value => ?_
  rw [fixed_yields_iff, Yields.lift_bind_iff (Exec.add_eq_ok hlen), Yields.pure_iff,
    Prod.mk.injEq]
  tauto

/-- The value of a component is read back, whatever follows. -/
theorem readValue_writeValue (hcodec : MultihashCodec.Exact) {protocol : Protocol}
    (hvalid : protocol.Valid) {rest : Bytes} {consumed : Nat}
    (hlen : consumed + (protocol.writeValue ++ rest).length < 2 ^ 63) :
    Yields (readValue protocol.code (protocol.writeValue ++ rest) consumed)
      (protocol, consumed + protocol.writeValue.length) := by
  unfold readValue
  rw [List.length_append] at hlen
  cases protocol with
  | ip4 octets =>
    simp only [code, writeValue, Vector.length_toList] at hlen ⊢
    rw [if_pos trivial, fixed_add_yields_iff (by omega)]
    exact ⟨octets, rfl, rfl, by simp, by simp⟩
  | ip6 octets =>
    simp only [code, writeValue, Vector.length_toList] at hlen ⊢
    rw [if_neg (by decide), if_pos trivial, fixed_add_yields_iff (by omega)]
    exact ⟨octets, rfl, rfl, by simp, by simp⟩
  | udp port =>
    simp only [code, writeValue, List.length_cons, List.length_nil] at hlen ⊢
    rw [if_neg (by decide), if_neg (by decide), if_pos trivial, fixed_add_yields_iff (by omega)]
    exact ⟨#v[(port >>> 8).toUInt8, port.toUInt8], congrArg udp (bigEndian_bytes port), rfl,
      by simp, by simp⟩
  | quicV1 =>
    simp only [code, writeValue]
    rw [if_neg (by decide), if_neg (by decide), if_neg (by decide), if_pos trivial, Yields.pure_iff]
    rfl
  | dns name =>
    simp only [code, writeValue] at hlen ⊢
    rw [if_neg (by decide), if_neg (by decide), if_neg (by decide), if_neg (by decide),
      if_pos trivial]
    exact readName_write (by rw [List.length_append]; exact hlen)
  | dns4 name =>
    simp only [code, writeValue] at hlen ⊢
    rw [if_neg (by decide), if_neg (by decide), if_neg (by decide), if_neg (by decide),
      if_neg (by decide), if_pos trivial]
    exact readName_write (by rw [List.length_append]; exact hlen)
  | dns6 name =>
    simp only [code, writeValue] at hlen ⊢
    rw [if_neg (by decide), if_neg (by decide), if_neg (by decide), if_neg (by decide),
      if_neg (by decide), if_neg (by decide), if_pos trivial]
    exact readName_write (by rw [List.length_append]; exact hlen)
  | p2p peerId =>
    simp only [code, writeValue] at hlen ⊢
    rw [if_neg (by decide), if_neg (by decide), if_neg (by decide), if_neg (by decide),
      if_neg (by decide), if_neg (by decide), if_neg (by decide), if_pos trivial]
    refine Yields.bind_iff.mpr
      ⟨_, lengthPrefixed_write (by rw [List.length_append]; omega), ?_⟩
    rw [Yields.lift_bind_iff (Exec.add_eq_ok (by omega)), PeerId.fromBytes_toBytes hcodec hvalid,
      Yields.pure_iff]

/-- What was read as a value is the value of a component with that code. -/
theorem readValue_inv (hcodec : MultihashCodec.Exact) {code : UInt64} {rest : Bytes}
    {consumed n : Nat} {protocol : Protocol} (hlen : consumed ≤ 10)
    (h : Yields (readValue code rest consumed) (protocol, n)) :
    code = protocol.code ∧ consumed ≤ n ∧ n - consumed ≤ rest.length ∧
      rest.take (n - consumed) = protocol.writeValue ∧ protocol.Valid := by
  unfold readValue at h
  split at h
  · next hcode =>
    obtain ⟨value, rfl, rfl, hle, htake⟩ := (fixed_add_yields_iff (by omega)).mp h
    rw [Nat.add_sub_cancel_left]
    exact ⟨hcode, by omega, hle, htake, trivial⟩
  split at h
  · next hcode =>
    obtain ⟨value, rfl, rfl, hle, htake⟩ := (fixed_add_yields_iff (by omega)).mp h
    rw [Nat.add_sub_cancel_left]
    exact ⟨hcode, by omega, hle, htake, trivial⟩
  split at h
  · next hcode =>
    obtain ⟨value, rfl, rfl, hle, htake⟩ := (fixed_add_yields_iff (by omega)).mp h
    rw [Nat.add_sub_cancel_left]
    refine ⟨hcode, by omega, hle, ?_, trivial⟩
    rw [htake, writeValue, bytes_bigEndian, toList_pair]
  split at h
  · next hcode =>
    rw [Yields.pure_iff, Prod.mk.injEq] at h
    obtain ⟨rfl, rfl⟩ := h
    rw [Nat.sub_self]
    exact ⟨hcode, by omega, by omega, rfl, trivial⟩
  have hname : ∀ {label : String} (make : String → Protocol),
      (∀ name, (make name).code = code) →
      (∀ name, (make name).writeValue = writeLengthPrefixed (asBytes name)) →
      (∀ name, (make name).Valid) → Yields (readName rest consumed label make) (protocol, n) →
      code = protocol.code ∧ consumed ≤ n ∧ n - consumed ≤ rest.length ∧
        rest.take (n - consumed) = protocol.writeValue ∧ protocol.Valid := by
    intro label make hcode hvalue hvalid hread
    obtain ⟨name, rfl, hle, hge, htake⟩ := readName_inv hread
    exact ⟨(hcode name).symm, hge, hle, htake.trans (hvalue name).symm, hvalid name⟩
  split at h
  · next hcode => exact hname dns (fun _ => hcode.symm) (fun _ => rfl) (fun _ => trivial) h
  split at h
  · next hcode => exact hname dns4 (fun _ => hcode.symm) (fun _ => rfl) (fun _ => trivial) h
  split at h
  · next hcode => exact hname dns6 (fun _ => hcode.symm) (fun _ => rfl) (fun _ => trivial) h
  split at h
  · next hcode =>
    obtain ⟨⟨body, used⟩, hbody, h⟩ := Yields.bind_iff.mp h
    obtain ⟨total, htotal, h⟩ := Yields.bind_iff.mp h
    obtain ⟨hused, htake⟩ := lengthPrefixed_inv hbody
    rw [Yields.lift_iff, Exec.add] at htotal
    split at htotal
    · obtain rfl := Except.ok.inj htotal
      split at h
      · exact absurd h Yields.not_throw
      · next peerId hpeer =>
        rw [Yields.pure_iff, Prod.mk.injEq] at h
        obtain ⟨rfl, rfl⟩ := h
        obtain ⟨hbytes, hvalid⟩ := PeerId.toBytes_of_fromBytes hcodec hpeer
        rw [Nat.add_sub_cancel_left, writeValue, hbytes]
        exact ⟨hcode, by omega, hused, htake, hvalid⟩
    · cases htotal
  · exact absurd h Yields.not_throw

/-- A component is read back from its encoding, whatever follows. -/
theorem readBinary_writeBinary (hcodec : MultihashCodec.Exact) {protocol : Protocol}
    (hvalid : protocol.Valid) {rest : Bytes}
    (hlen : (protocol.writeBinary ++ rest).length < 2 ^ 63) :
    Yields (readBinary (protocol.writeBinary ++ rest)) (protocol, protocol.writeBinary.length) := by
  rw [writeBinary, List.append_assoc] at hlen ⊢
  rw [List.length_append] at hlen
  rw [readBinary_eq (readUvarint_writeUvarint_append _ _), Yields.lift_bind_iff
    (Exec.sliceFrom_eq_ok (by rw [List.length_append]; omega)), List.drop_left,
    List.length_append]
  exact readValue_writeValue hcodec hvalid hlen

/-- What was read as a component is its encoding. -/
theorem readBinary_inv (hcodec : MultihashCodec.Exact) {bytes : Bytes} {protocol : Protocol}
    {n : Nat} (h : Yields (readBinary bytes) (protocol, n)) :
    n ≤ bytes.length ∧ bytes.take n = protocol.writeBinary ∧ protocol.Valid := by
  cases hread : readUvarint bytes with
  | error e =>
    rw [readBinary, hread] at h
    exact absurd h Yields.not_throw
  | ok r =>
    obtain ⟨code, consumed⟩ := r
    have hused := readUvarint_used hread
    rw [readBinary_eq hread, Yields.lift_bind_iff (Exec.sliceFrom_eq_ok hused.2.1)] at h
    obtain ⟨rfl, hge, hle, htake, hvalid⟩ := readValue_inv hcodec hused.2.2 h
    rw [List.length_drop] at hle
    refine ⟨by omega, ?_, hvalid⟩
    rw [writeBinary, ← readUvarint_canonical hread, ← htake, ← List.take_add,
      Nat.add_sub_cancel' hge]

end Protocol

/-! ## Addresses -/

namespace Multiaddr

/-- An address that can be built: its peer ids are valid. -/
def Valid (addr : Multiaddr) : Prop := ∀ protocol ∈ addr.protocols, protocol.Valid

instance (addr : Multiaddr) : Decidable addr.Valid :=
  inferInstanceAs (Decidable (∀ protocol ∈ addr.protocols, _))

variable [MultihashCodec]

/-- The loop reads the components that are still to come, one by one. -/
theorem fromBytesGo_write (hcodec : MultihashCodec.Exact) {front : Bytes}
    {done protocols : List Protocol} {fuel : Nat} (hvalid : ∀ p ∈ protocols, p.Valid)
    (hlen : (front ++ protocols.flatMap Protocol.writeBinary).length < 2 ^ 63)
    (hfuel : (protocols.flatMap Protocol.writeBinary).length < fuel) :
    Yields (fromBytesGo (front ++ protocols.flatMap Protocol.writeBinary) fuel done front.length)
      ⟨done ++ protocols⟩ := by
  induction protocols generalizing front done fuel with
  | nil =>
    cases fuel with
    | zero => simp at hfuel
    | succ fuel =>
      rw [fromBytesGo, if_neg (by simp), Yields.pure_iff, List.append_nil]
  | cons protocol protocols ih =>
    rw [List.flatMap_cons] at hlen hfuel ⊢
    rw [List.length_append] at hfuel
    have hlength : (front ++ (protocol.writeBinary ++
        protocols.flatMap Protocol.writeBinary)).length =
        front.length + (protocol.writeBinary.length +
          (protocols.flatMap Protocol.writeBinary).length) := by
      rw [List.length_append, List.length_append]
    have hpos : 0 < protocol.writeBinary.length := by
      have hused := readUvarint_used (readUvarint_writeUvarint_append protocol.code [])
      rw [Protocol.writeBinary, List.length_append]
      omega
    cases fuel with
    | zero => omega
    | succ fuel =>
      rw [fromBytesGo, if_pos (by omega),
        Yields.lift_bind_iff (Exec.sliceFrom_eq_ok (by omega)), List.drop_left]
      refine Yields.bind_iff.mpr ⟨_, Protocol.readBinary_writeBinary hcodec
        (hvalid protocol List.mem_cons_self) (by rw [List.length_append]; omega), ?_⟩
      rw [Yields.lift_bind_iff (Exec.add_eq_ok (by omega))]
      have hnext := @ih (front ++ protocol.writeBinary) (done ++ [protocol]) fuel
        (fun p hp => hvalid p (List.mem_cons_of_mem _ hp))
        (by rw [List.append_assoc]; exact hlen) (by omega)
      rw [List.append_assoc, List.append_assoc, List.length_append] at hnext
      exact hnext

/-- What the loop has read from `offset` on is the encoding of what it added. -/
theorem fromBytesGo_inv (hcodec : MultihashCodec.Exact) {bytes : Bytes} {done : List Protocol}
    {fuel offset : Nat} {addr : Multiaddr} (hoffset : offset ≤ bytes.length)
    (h : Yields (fromBytesGo bytes fuel done offset) addr) :
    ∃ protocols, addr.protocols = done ++ protocols ∧
      bytes.drop offset = protocols.flatMap Protocol.writeBinary ∧ ∀ p ∈ protocols, p.Valid := by
  induction fuel generalizing done offset with
  | zero =>
    rw [fromBytesGo, Yields.lift_iff] at h
    cases h
  | succ fuel ih =>
    rw [fromBytesGo] at h
    split at h
    · rw [Yields.lift_bind_iff (Exec.sliceFrom_eq_ok hoffset)] at h
      obtain ⟨⟨protocol, consumed⟩, hread, h⟩ := Yields.bind_iff.mp h
      obtain ⟨next, hnext, h⟩ := Yields.bind_iff.mp h
      obtain ⟨hle, htake, hvalid⟩ := Protocol.readBinary_inv hcodec hread
      rw [List.length_drop] at hle
      rw [Yields.lift_iff, Exec.add] at hnext
      split at hnext
      · obtain rfl := Except.ok.inj hnext
        obtain ⟨protocols, hprotocols, hdrop, hall⟩ := ih (by omega) h
        refine ⟨protocol :: protocols, by rw [hprotocols, List.append_assoc]; rfl, ?_,
          List.forall_mem_cons.mpr ⟨hvalid, hall⟩⟩
        rw [List.flatMap_cons, ← htake, ← hdrop, ← List.drop_drop, List.take_append_drop]
      · cases hnext
    · next hend =>
      rw [Yields.pure_iff] at h
      obtain rfl := h
      refine ⟨[], (List.append_nil _).symm, ?_, fun _ hp => absurd hp List.not_mem_nil⟩
      rw [List.drop_eq_nil_of_le (by omega), List.flatMap_nil]

/-- What was decoded is an address that can be built. -/
theorem fromBytes_valid (hcodec : MultihashCodec.Exact) {bytes : Bytes} {addr : Multiaddr}
    (h : Yields (fromBytes bytes) addr) : addr.Valid := by
  obtain ⟨protocols, hprotocols, -, hall⟩ := fromBytesGo_inv hcodec (Nat.zero_le _) h
  rw [List.nil_append] at hprotocols
  rw [Valid, hprotocols]
  exact hall

end Multiaddr

namespace Multiaddr

variable [MultihashCodec]

/-- An address comes back from its bytes. -/
theorem fromBytes_toBytes (hcodec : MultihashCodec.Exact) {addr : Multiaddr} (hvalid : addr.Valid)
    (hlen : addr.toBytes.length < 2 ^ 63) : Yields (fromBytes addr.toBytes) addr := by
  have hsize : ([] ++ addr.protocols.flatMap Protocol.writeBinary).length < 2 ^ 63 := hlen
  exact fromBytesGo_write hcodec hvalid hsize (Nat.lt_succ_self _)

/-- Bytes that are accepted are those of the address. -/
theorem toBytes_of_fromBytes (hcodec : MultihashCodec.Exact) {bytes : Bytes} {addr : Multiaddr}
    (h : Yields (fromBytes bytes) addr) : addr.toBytes = bytes := by
  obtain ⟨protocols, hprotocols, hdrop, -⟩ := fromBytesGo_inv hcodec (Nat.zero_le _) h
  rw [toBytes, hprotocols, List.nil_append, ← hdrop, List.drop_zero]

end Multiaddr

/-- The binary form of an address denotes it and nothing else does. A `Vec<u8>` has fewer than
`2 ^ 63` bytes. -/
theorem multiaddr_codec_exact [MultihashCodec] (hcodec : MultihashCodec.Exact) :
    (∀ addr : Multiaddr, addr.Valid → addr.toBytes.length < 2 ^ 63 →
      Yields (Multiaddr.fromBytes addr.toBytes) addr) ∧
    ∀ (bytes : Bytes) (addr : Multiaddr), Yields (Multiaddr.fromBytes bytes) addr →
      addr.toBytes = bytes := by
  constructor
  · intro addr hvalid hlen
    exact Multiaddr.fromBytes_toBytes hcodec hvalid hlen
  · intro bytes addr h
    exact Multiaddr.toBytes_of_fromBytes hcodec h

theorem loopbackAddr_digest_le : ([7, 8, 9] : Bytes).length ≤ 64 := by decide

/-- `/ip4/127.0.0.1/udp/4001/quic-v1/p2p/..` with a peer id of three inlined bytes. -/
def loopbackAddr : Multiaddr :=
  ⟨[.ip4 #v[127, 0, 0, 1], .udp 4001, .quicV1, .p2p ⟨0x00, [7, 8, 9], loopbackAddr_digest_le⟩]⟩

/-- The binary form of `loopbackAddr`. -/
def loopbackBytes : Bytes :=
  [0x04, 127, 0, 0, 1, 0x91, 0x02, 0x0f, 0xa1, 0xcd, 0x03, 0xa5, 0x03, 5, 0, 3, 7, 8, 9]

theorem multiaddr_codec_loopback :
    Yields (@Multiaddr.fromBytes multihashCodec (@Multiaddr.toBytes multihashCodec loopbackAddr))
      loopbackAddr ∧
    @Multiaddr.toBytes multihashCodec loopbackAddr = loopbackBytes := by
  have hexact := @multiaddr_codec_exact multihashCodec multihashCodec_exact
  refine ⟨hexact.1 loopbackAddr (by decide) (by decide), hexact.2 loopbackBytes _ ?_⟩
  show ExceptT.run _ = _
  decide

end Minip2p
