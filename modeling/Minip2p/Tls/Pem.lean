import Minip2p.Core.Multiaddr
import Minip2p.Lib.Base64
import Minip2p.Lib.Slices

/-!
# PEM

The PEM text of certificates and private keys, `crates/tls/src/pem.rs`: a hand-written base64
encoder, and lines of 64 characters between a header and a footer.
-/

namespace Minip2p

/-- The standard alphabet. -/
def base64Alphabet : List Char :=
  "ABCDEFGHIJKLMNOPQRSTUVWXYZabcdefghijklmnopqrstuvwxyz0123456789+/".toList

/-- The characters of one chunk of at most three bytes. -/
def base64Chunk (chunk : Bytes) : List Char :=
  let b0 := (chunk.getD 0 0).toUInt32
  let b1 := if chunk.length > 1 then (chunk.getD 1 0).toUInt32 else 0
  let b2 := if chunk.length > 2 then (chunk.getD 2 0).toUInt32 else 0
  let triple := (b0 <<< 16) ||| (b1 <<< 8) ||| b2
  [base64Alphabet.getD ((triple >>> 18) &&& 0x3f).toNat 'A',
    base64Alphabet.getD ((triple >>> 12) &&& 0x3f).toNat 'A',
    if chunk.length > 1 then base64Alphabet.getD ((triple >>> 6) &&& 0x3f).toNat 'A' else '=',
    if chunk.length > 2 then base64Alphabet.getD (triple &&& 0x3f).toNat 'A' else '=']

/-- Minimal base64 encoder (standard alphabet, with padding). -/
def base64Encode (input : Bytes) : String :=
  String.ofList ((Slices.chunks 3 input).flatMap base64Chunk)

/-- `core::str::from_utf8(chunk).unwrap_or("")`. -/
def chunkText (chunk : Bytes) : String :=
  match fromUtf8 chunk with
  | .ok text => text
  | .error _ => ""

/-- Manual PEM encoding: base64 with 64-char line wrapping and header/footer. -/
def manualPem (label : String) (der : Bytes) : String :=
  let b64 := base64Encode der
  let pem := s!"-----BEGIN {label}-----\n"
  let pem := (Slices.chunks 64 (asBytes b64)).foldl
    (fun pem chunk => pem ++ chunkText chunk ++ "\n") pem
  pem ++ s!"-----END {label}-----\n"

/-- PKCS#8 private key bytes as PEM. -/
def privateKeyToPem (keyDer : Bytes) : String := manualPem "PRIVATE KEY" keyDer

/-- Certificate bytes as PEM, without the `std` feature. -/
def certToPem (certDer : Bytes) : String := manualPem "CERTIFICATE" certDer

/-! ## The encoder is RFC 4648 base64 -/

/-- Three bytes in one word. -/
theorem triple_toNat (b0 b1 b2 : UInt8) :
    ((b0.toUInt32 <<< 16) ||| (b1.toUInt32 <<< 8) ||| b2.toUInt32).toNat =
      b0.toNat * 65536 + b1.toNat * 256 + b2.toNat := by
  have h0 := b0.toNat_lt
  have h1 := b1.toNat_lt
  have h2 := b2.toNat_lt
  rw [UInt32.toNat_or, UInt32.toNat_or, UInt32.toNat_shiftLeft, UInt32.toNat_shiftLeft,
    UInt8.toNat_toUInt32, UInt8.toNat_toUInt32, UInt8.toNat_toUInt32]
  show b0.toNat <<< 16 % 2 ^ 32 ||| b1.toNat <<< 8 % 2 ^ 32 ||| b2.toNat = _
  rw [Nat.shiftLeft_eq, Nat.shiftLeft_eq, Nat.mod_eq_of_lt (by omega), Nat.mod_eq_of_lt (by omega)]
  have hlow : b1.toNat * 2 ^ 8 < 2 ^ 16 := by omega
  rw [mul_comm b0.toNat, ← Nat.two_pow_add_eq_or_of_lt hlow, ← Nat.mul_comm (2 ^ 8)]
  have hsum : 2 ^ 16 * b0.toNat + 2 ^ 8 * b1.toNat = 2 ^ 8 * (2 ^ 8 * b0.toNat + b1.toNat) := by
    omega
  rw [hsum, ← Nat.two_pow_add_eq_or_of_lt h2]
  omega

/-- Six bits of a word. -/
theorem six_toNat (triple : UInt32) {k : ℕ} (hk : k < 32) :
    ((triple >>> UInt32.ofNat k) &&& 0x3f).toNat = triple.toNat / 2 ^ k % 64 := by
  rw [UInt32.toNat_and, UInt32.toNat_shiftRight, UInt32.toNat_ofNat']
  show triple.toNat >>> (k % 2 ^ 32 % 32) &&& (2 ^ 6 - 1) = _
  rw [Nat.and_two_pow_sub_one_eq_mod, Nat.shiftRight_eq_div_pow,
    Nat.mod_eq_of_lt (show k < 2 ^ 32 by omega), Nat.mod_eq_of_lt hk]

/-- What the encoder looks up for three bytes, a missing one being zero. -/
theorem base64Alphabet_sixes (b0 b1 b2 : UInt8) :
    let triple := (b0.toUInt32 <<< 16) ||| (b1.toUInt32 <<< 8) ||| b2.toUInt32
    base64Alphabet.getD ((triple >>> 18) &&& 0x3f).toNat 'A' = Base64.char (b0.toNat / 4) ∧
      base64Alphabet.getD ((triple >>> 12) &&& 0x3f).toNat 'A' =
        Base64.char (b0.toNat % 4 * 16 + b1.toNat / 16) ∧
      base64Alphabet.getD ((triple >>> 6) &&& 0x3f).toNat 'A' =
        Base64.char (b1.toNat % 16 * 4 + b2.toNat / 64) ∧
      base64Alphabet.getD (triple &&& 0x3f).toNat 'A' = Base64.char (b2.toNat % 64) := by
  intro triple
  have h0 := b0.toNat_lt
  have h1 := b1.toNat_lt
  have h2 := b2.toNat_lt
  have htriple : triple.toNat = b0.toNat * 65536 + b1.toNat * 256 + b2.toNat :=
    triple_toNat b0 b1 b2
  have hsix : ∀ k n, k < 32 → triple.toNat / 2 ^ k % 64 = n →
      base64Alphabet.getD ((triple >>> UInt32.ofNat k) &&& 0x3f).toNat 'A' = Base64.char n := by
    intro k n hk hn
    rw [six_toNat triple hk, hn]
    rfl
  refine ⟨hsix 18 _ (by decide) ?_, hsix 12 _ (by decide) ?_, hsix 6 _ (by decide) ?_, ?_⟩
  · omega
  · omega
  · omega
  · have hlast := hsix 0 (b2.toNat % 64) (by decide) (by omega)
    rw [show UInt32.ofNat 0 = 0 from rfl, UInt32.shiftRight_zero] at hlast
    exact hlast

/-- A chunk of one, two or three bytes is a group of the encoding. -/
theorem base64Chunk_one (x : UInt8) : base64Chunk [x] = Base64.encode [x] := by
  obtain ⟨hfirst, hsecond, -, -⟩ := base64Alphabet_sixes x 0 0
  show [_, _, '=', '='] = [_, _, '=', '=']
  rw [← hfirst]
  exact congrArg (fun c => [_, c, '=', '=']) hsecond

theorem base64Chunk_two (x y : UInt8) : base64Chunk [x, y] = Base64.encode [x, y] := by
  obtain ⟨hfirst, hsecond, hthird, -⟩ := base64Alphabet_sixes x y 0
  unfold base64Chunk Base64.encode
  rw [← hfirst, ← hsecond]
  exact congrArg (fun c => [_, _, c, '=']) hthird

theorem base64Chunk_three (x y z : UInt8) : base64Chunk [x, y, z] = Base64.encode [x, y, z] := by
  obtain ⟨hfirst, hsecond, hthird, hfourth⟩ := base64Alphabet_sixes x y z
  unfold base64Chunk Base64.encode
  rw [← hfirst, ← hsecond, ← hthird, ← hfourth]
  rfl

/-- The text that `base64_encode` builds chunk by chunk is the encoding of the bytes. -/
theorem base64Encode_toList (input : Bytes) :
    (base64Encode input).toList = Base64.encode input := by
  unfold base64Encode
  rw [String.toList_ofList]
  fun_induction Base64.encode input with
  | case1 => rfl
  | case2 x => exact base64Chunk_one x
  | case3 x y => exact base64Chunk_two x y
  | case4 x y z rest ih =>
    rw [Slices.chunks_eq (by decide) (List.cons_ne_nil _ _), List.flatMap_cons]
    show base64Chunk [x, y, z] ++ (Slices.chunks 3 rest).flatMap base64Chunk = _
    rw [ih, base64Chunk_three]
    rfl

/-! ## The lines between header and footer -/

theorem asBytes_singleton {c : Char} (h : c.val ≤ 127) :
    asBytes (String.ofList [c]) = [c.val.toUInt8] := by
  rw [asBytes_eq, String.toByteArray_ofList, List.utf8Encode_singleton,
    String.utf8EncodeChar_eq_singleton (Char.utf8Size_eq_one_iff.mpr h)]
  simp

/-- ASCII text has a byte for each character. -/
theorem asBytes_ofList {text : List Char} (h : ∀ c ∈ text, c.val ≤ 127) :
    asBytes (String.ofList text) = text.map (·.val.toUInt8) := by
  induction text with
  | nil => exact asBytes_empty
  | cons c text ih =>
    have hc := h c List.mem_cons_self
    have htext := ih fun d hd => h d (List.mem_cons_of_mem _ hd)
    rw [← List.singleton_append, String.ofList_append, asBytes_append, asBytes_singleton hc, htext]
    rfl

/-- The characters of an encoding are ASCII, and none of them ends a line. -/
theorem plain_of_mem_encode {der : Bytes} {c : Char} (h : c ∈ Base64.encode der) :
    c.val ≤ 127 ∧ c ≠ '\n' := by
  have hall : ('=' :: Base64.alphabet).all (fun c => c.val ≤ 127 ∧ c ≠ '\n') = true := by
    decide +kernel
  exact of_decide_eq_true (List.all_eq_true.mp hall c (List.mem_cons.mpr (Base64.mem_encode h)))

/-- The encoding in pieces of 64 characters. -/
def pemBody (der : Bytes) : List String :=
  (Slices.chunks 64 (Base64.encode der)).map String.ofList

/-- A line of the body has no other characters than the encoded text. -/
theorem mem_encode_of_mem_pemBody {der : Bytes} {line : String} (h : line ∈ pemBody der) {c : Char}
    (hc : c ∈ line.toList) : c ∈ Base64.encode der := by
  obtain ⟨chunk, hchunk, rfl⟩ := List.mem_map.mp h
  rw [String.toList_ofList] at hc
  rw [← Slices.flatten_chunks (n := 64) (by decide) (Base64.encode der)]
  exact List.mem_flatten.mpr ⟨chunk, hchunk, hc⟩

/-- A line of the body has between one and 64 characters. -/
theorem length_of_mem_pemBody {der : Bytes} {line : String} (h : line ∈ pemBody der) :
    0 < line.length ∧ line.length ≤ 64 := by
  obtain ⟨chunk, hchunk, rfl⟩ := List.mem_map.mp h
  rw [String.length_ofList]
  exact Slices.length_of_mem_chunks (by decide) _ chunk hchunk

/-- All lines of the body but the last have 64 characters. -/
theorem length_of_mem_dropLast_pemBody {der : Bytes} {line : String}
    (h : line ∈ (pemBody der).dropLast) : line.length = 64 := by
  unfold pemBody at h
  rw [← List.map_dropLast] at h
  obtain ⟨chunk, hchunk, rfl⟩ := List.mem_map.mp h
  rw [String.length_ofList]
  exact Slices.length_of_mem_dropLast_chunks (by decide) _ chunk hchunk

/-- The lines of the body make up the encoded text. -/
theorem join_pemBody (der : Bytes) : String.join (pemBody der) = base64Encode der := by
  apply String.toList_inj.mp
  rw [String.toList_join, base64Encode_toList, pemBody, List.flatMap_map]
  simp only [String.toList_ofList]
  rw [List.flatMap_id']
  exact Slices.flatten_chunks (by decide) _

/-- The chunks of bytes are the lines. -/
theorem chunks_base64Encode (der : Bytes) :
    Slices.chunks 64 (asBytes (base64Encode der)) = (pemBody der).map asBytes := by
  have hascii : ∀ chunk ∈ Slices.chunks 64 (Base64.encode der), ∀ c ∈ chunk, c.val ≤ 127 := by
    intro chunk hchunk c hc
    apply (plain_of_mem_encode (mem_encode_of_mem_pemBody (List.mem_map_of_mem hchunk) _)).1
    rw [String.toList_ofList]
    exact hc
  rw [← String.ofList_toList (s := base64Encode der), base64Encode_toList,
    asBytes_ofList fun c hc => (plain_of_mem_encode hc).1, Slices.chunks_map (by decide), pemBody,
    List.map_map]
  apply List.map_congr_left
  intro chunk hchunk
  exact (asBytes_ofList (hascii chunk hchunk)).symm

theorem chunkText_asBytes (line : String) : chunkText (asBytes line) = line := by
  unfold chunkText
  rw [fromUtf8_asBytes]

theorem foldl_lines (lines : List String) (pem : String) :
    (lines.map asBytes).foldl (fun pem chunk => pem ++ chunkText chunk ++ "\n") pem =
      pem ++ String.join (lines.map (· ++ "\n")) := by
  induction lines generalizing pem with
  | nil => simp
  | cons line lines ih =>
    rw [List.map_cons, List.foldl_cons, ih, chunkText_asBytes, List.map_cons, String.join_cons]
    simp only [String.append_assoc]

/-- `manual_pem` writes the header, the lines of the body and the footer. -/
theorem manualPem_eq (label : String) (der : Bytes) :
    manualPem label der = s!"-----BEGIN {label}-----\n" ++
      String.join ((pemBody der).map (· ++ "\n")) ++ s!"-----END {label}-----\n" := by
  unfold manualPem
  simp only
  rw [chunks_base64Encode, foldl_lines]

/-- The text is the one encoding of the bytes that a strict decoder accepts, and it is written in
full lines of 64 characters and one that has the rest. -/
theorem pem_lossless (der : Bytes) :
    (∀ bytes, Base64.decode (base64Encode der).toList = some bytes ↔ bytes = der) ∧
    (∀ text, Base64.decode text = some der ↔ text = (base64Encode der).toList) ∧
    ∀ label, ∃ body : List String,
      manualPem label der = s!"-----BEGIN {label}-----\n" ++
        String.join (body.map (· ++ "\n")) ++ s!"-----END {label}-----\n" ∧
      (∀ line ∈ body, line ≠ "" ∧ '\n' ∉ line.toList ∧ line.length ≤ 64) ∧
      (∀ line ∈ body.dropLast, line.length = 64) ∧
      String.join body = base64Encode der := by
  refine ⟨?_, ?_, fun label => ⟨pemBody der, manualPem_eq label der, ?_, ?_, ?_⟩⟩
  · intro bytes
    rw [base64Encode_toList, Base64.decode_encode, Option.some_inj]
    exact eq_comm
  · intro text
    rw [base64Encode_toList]
    exact Base64.decode_eq_some_iff
  · intro line hline
    obtain ⟨hpos, hle⟩ := length_of_mem_pemBody hline
    refine ⟨?_, ?_, hle⟩
    · intro hempty
      rw [hempty, String.length_empty] at hpos
      exact Nat.lt_irrefl 0 hpos
    · intro hnewline
      exact (plain_of_mem_encode (mem_encode_of_mem_pemBody hline hnewline)).2 rfl
  · exact fun line hline => length_of_mem_dropLast_pemBody hline
  · exact join_pemBody der

/-- The three-byte boundary of the source's test, and the paddings next to it. -/
example : base64Encode [97, 98, 99] = "YWJj" ∧ base64Encode [97, 98] = "YWI=" ∧
    base64Encode [97] = "YQ==" := by
  decide

end Minip2p
