import Minip2p.Identity.PeerId
import Minip2p.Identity.VarintTheorems

/-!
# The wire form of a peer id

A peer id is read back from its wire form and has no other one, as far as the multihash codec is
exact. Every constructor of `PeerId` checks or keeps the length of a SHA-256 digest (`Valid`).
-/

namespace Minip2p

theorem toNat_ofNat_length {bytes : Bytes} (h : bytes.length < 2 ^ 64) :
    (UInt64.ofNat bytes.length).toNat = bytes.length := by
  rw [UInt64.toNat_ofNat', Nat.mod_eq_of_lt h]

/-- The two directions of the multihash codec are inverse to each other. -/
structure MultihashCodec.Exact [MultihashCodec] : Prop where
  fromBytes_toBytes : ∀ multihash : Multihash,
    MultihashCodec.fromBytes (MultihashCodec.toBytes multihash) = .ok multihash
  toBytes_of_fromBytes : ∀ (bytes : Bytes) (multihash : Multihash),
    MultihashCodec.fromBytes bytes = .ok multihash → MultihashCodec.toBytes multihash = bytes

/-- The wire format of the multihash specification is exact. -/
theorem multihashCodec_exact : @MultihashCodec.Exact multihashCodec := by
  refine @MultihashCodec.Exact.mk multihashCodec ?_ ?_
  · rintro ⟨code, digest, hle⟩
    have hlen : (UInt64.ofNat digest.length).toNat = digest.length :=
      toNat_ofNat_length (by omega)
    have hcode := readUvarint_writeUvarint_append code
      (writeUvarint (UInt64.ofNat digest.length) ++ digest)
    have hsize := readUvarint_writeUvarint_append (UInt64.ofNat digest.length) digest
    unfold MultihashCodec.fromBytes MultihashCodec.toBytes multihashCodec
    simp only [List.append_assoc, hcode, List.drop_left, hsize, ← List.drop_drop, hlen, hle,
      dite_true, if_true]
  · intro bytes multihash h
    unfold MultihashCodec.fromBytes multihashCodec at h
    unfold MultihashCodec.toBytes multihashCodec
    simp only at h ⊢
    split at h
    · cases h
    next code used hcode =>
    split at h
    · cases h
    next size sizeUsed hsize =>
    split at h
    next hle =>
      split at h
      next hlen =>
        obtain rfl := Except.ok.inj h
        have hsizeEq : UInt64.ofNat (bytes.drop (used + sizeUsed)).length = size := by
          rw [hlen, UInt64.ofNat_toNat]
        show writeUvarint code ++ writeUvarint (UInt64.ofNat (bytes.drop _).length) ++
          bytes.drop _ = bytes
        rw [hsizeEq, ← readUvarint_canonical hcode, ← readUvarint_canonical hsize,
          ← List.drop_drop, List.append_assoc, List.take_append_drop, List.take_append_drop]
      · cases h
    · cases h

namespace PeerId

/-- What `validate_multihash` checks. -/
def Valid (peerId : PeerId) : Prop := validateMultihash peerId.multihash = .ok ()

instance (peerId : PeerId) : Decidable peerId.Valid :=
  inferInstanceAs (Decidable (_ = _))

/-- A multihash is a peer id if it is a valid one. -/
theorem fromMultihash_eq_ok_iff {multihash : Multihash} {peerId : PeerId} :
    fromMultihash multihash = .ok peerId ↔ multihash = peerId.multihash ∧ peerId.Valid := by
  obtain ⟨inner⟩ := peerId
  show (validateMultihash multihash >>= fun _ => pure (PeerId.mk multihash)) = _ ↔ _
  cases hvalid : validateMultihash multihash with
  | error e =>
    constructor
    · intro h
      cases h
    · rintro ⟨rfl, h⟩
      rw [Valid, hvalid] at h
      cases h
  | ok =>
    constructor
    · intro h
      cases h
      exact ⟨rfl, hvalid⟩
    · rintro ⟨rfl, -⟩
      rfl

/-- An id that is built from a key has a digest of the right length. -/
theorem fromPublicKeyProtobuf_valid [Sha256] (key : Bytes) :
    (fromPublicKeyProtobuf key).Valid := by
  unfold fromPublicKeyProtobuf
  split
  · exact if_neg fun h => absurd h.1 (by show ¬ identityMultihashCode = _; decide)
  · exact if_neg fun h => h.2 (by simp)

variable [MultihashCodec]

/-- Bytes are a peer id if they are a multihash that is a valid one. -/
theorem fromBytes_eq_ok_iff {bytes : Bytes} {peerId : PeerId} :
    fromBytes bytes = .ok peerId ↔
      MultihashCodec.fromBytes bytes = .ok peerId.multihash ∧ peerId.Valid := by
  unfold fromBytes
  cases MultihashCodec.fromBytes bytes with
  | error e =>
    constructor
    · intro h
      cases h
    · rintro ⟨h, -⟩
      cases h
  | ok multihash =>
    rw [Except.ok.injEq]
    exact fromMultihash_eq_ok_iff

/-- The wire form of a valid id is read back. -/
theorem fromBytes_toBytes (hcodec : MultihashCodec.Exact) {peerId : PeerId} (h : peerId.Valid) :
    fromBytes peerId.toBytes = .ok peerId :=
  fromBytes_eq_ok_iff.mpr ⟨hcodec.fromBytes_toBytes _, h⟩

/-- Accepted bytes are the wire form of a valid id. -/
theorem toBytes_of_fromBytes (hcodec : MultihashCodec.Exact) {bytes : Bytes} {peerId : PeerId}
    (h : fromBytes bytes = .ok peerId) : peerId.toBytes = bytes ∧ peerId.Valid := by
  obtain ⟨hbytes, hvalid⟩ := fromBytes_eq_ok_iff.mp h
  exact ⟨hcodec.toBytes_of_fromBytes _ _ hbytes, hvalid⟩

end PeerId

end Minip2p
