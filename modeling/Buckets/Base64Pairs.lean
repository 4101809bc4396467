/-
# Base64 between the files of the storage layer

Base64 was written again in every file that needed it.  Four encoders: `object.c` and
`metadata_utils.c` put the text of small objects into `xl.meta`, the client and the server of the
RPC send chunks as text.  Five decoders: `object.c`, `versioning.c` and `registry.c` read `xl.meta`,
and the two ends of the RPC read each other.  They differ in details: `+` or `|`, how the size is
computed, a loop over four characters or over one.

* `rpcEncode_eq`, `rpcDecodeLoop_eq` -- `|` on bits that are free is `+`, and so the RPC's loops are
  those of `object.c` and of `registry.c`;
* `decodedSize_encode` -- both formulas for the size give the length of the data;
* `decode_encode` -- so EVERY encoder can be followed by EVERY decoder.
-/
import Buckets.XlMeta
import Buckets.Registry
import Mathlib.Data.Nat.Bitwise

namespace Buckets.Base64Pairs

/-! ## 1. The encoders of the RPC -/

/-- `(octet_a << 16) | (octet_b << 8) | octet_c`. -/
def rpcTriple (a b c : UInt8) : ℕ := a.toNat <<< 16 ||| b.toNat <<< 8 ||| c.toNat

/-- The loop of `base64_encode` of `distributed.c` and `distributed_rpc.c`. -/
def rpcEncodeLoop : Bytes → CString
  | [] => []
  | a :: rest =>
    let b := rest.headD 0
    let c := rest.tail.headD 0
    let triple := rpcTriple a b c
    [base64Char (triple >>> 18), base64Char (triple >>> 12), base64Char (triple >>> 6),
      base64Char triple] ++ rpcEncodeLoop (rest.drop 2)
  termination_by data => data.length

/-- `base64_encode` of `distributed.c` and `distributed_rpc.c`. -/
def rpcEncode (data : Bytes) : CString :=
  let encodedLen := (data.length + 2) / 3 * 4
  let padding := (3 - data.length % 3) % 3
  (rpcEncodeLoop data).take (encodedLen - padding) ++ List.replicate padding padChar

theorem rpcTriple_eq (a b c : UInt8) : rpcTriple a b c = tripleOf a b c := by
  have hb := b.toNat_lt
  have hc := c.toNat_lt
  have hlow : b.toNat <<< 8 + c.toNat = b.toNat <<< 8 ||| c.toNat :=
    Nat.shiftLeft_add_eq_or_of_lt hc _
  have hlt : b.toNat <<< 8 + c.toNat < 2 ^ 16 := by
    rw [Nat.shiftLeft_eq]
    omega
  rw [rpcTriple, Nat.lor_assoc, ← hlow, ← Nat.shiftLeft_add_eq_or_of_lt hlt, Nat.shiftLeft_eq,
    Nat.shiftLeft_eq, tripleOf, Nat.add_assoc]

theorem rpcEncodeLoop_eq : ∀ data : Bytes, rpcEncodeLoop data = encodeLoop data
  | [] => by rw [rpcEncodeLoop, encodeLoop]
  | [a] => by
    rw [rpcEncodeLoop, encodeLoop, rpcTriple_eq]
    simp [encodeTriple, Nat.shiftRight_eq_div_pow, rpcEncodeLoop]
  | [a, b] => by
    rw [rpcEncodeLoop, encodeLoop, rpcTriple_eq]
    simp [encodeTriple, Nat.shiftRight_eq_div_pow, rpcEncodeLoop]
  | a :: b :: c :: rest => by
    rw [rpcEncodeLoop, encodeLoop, rpcTriple_eq]
    simp only [List.headD_cons, List.tail_cons, List.drop_succ_cons, List.drop_zero, encodeTriple,
      Nat.shiftRight_eq_div_pow, rpcEncodeLoop_eq rest]

/-- **The RPC encodes as `object.c` does.** -/
theorem rpcEncode_eq (data : Bytes) : rpcEncode data = base64Encode data := by
  rw [rpcEncode, base64Encode, rpcEncodeLoop_eq]

/-! ## 2. The decoders -/

/-- `base64_decode` of `object.c`: the bytes, and the size it reports. -/
def objectDecode (encoded : CString) : Bytes × ℕ :=
  (base64Decode encoded, encoded.length / 4 * 3 - paddingOf encoded)

/-- `base64_decode_version`: the size is computed the other way round. -/
def base64DecodeVersion (encoded : CString) : Bytes × ℕ :=
  let decodedSize := encoded.length * 3 / 4 - paddingOf encoded
  ((decodeLoop encoded).take decodedSize, decodedSize)

/-- The loop of `base64_decode` of `distributed.c` and `distributed_rpc.c`, in 32 bits.  A character
that `strchr` does not find is skipped. -/
def rpcDecodeLoop : (buffer bits : ℕ) → CString → Bytes
  | _, _, [] => []
  | buffer, bits, c :: rest =>
    if c = padChar then []
    else if base64Chars.idxOf c < 64 then
      let buffer := buffer <<< 6 % 2 ^ 32 ||| base64Chars.idxOf c
      if 8 ≤ bits + 6 then
        UInt8.ofNat (buffer >>> (bits + 6 - 8) &&& 0xFF) :: rpcDecodeLoop buffer (bits + 6 - 8) rest
      else rpcDecodeLoop buffer (bits + 6) rest
    else rpcDecodeLoop buffer bits rest

/-- `base64_decode` of `distributed.c` and `distributed_rpc.c`; `output_len` counts the bytes. -/
def rpcDecode (input : CString) : Bytes × ℕ :=
  (rpcDecodeLoop 0 0 input, (rpcDecodeLoop 0 0 input).length)

/-- **`|` on free bits**: one more character in 32 bits. -/
theorem shift_or_eq (buffer : ℕ) {v : ℕ} (hv : v < 64) :
    buffer <<< 6 % 2 ^ 32 ||| v = (buffer * 64 + v) % 2 ^ 32 := by
  have hshift : buffer <<< 6 % 2 ^ 32 = buffer % 2 ^ 26 * 2 ^ 6 := by
    rw [Nat.shiftLeft_eq]
    omega
  rw [hshift, ← Nat.shiftLeft_eq, ← Nat.shiftLeft_add_eq_or_of_lt hv, Nat.shiftLeft_eq]
  omega

/-- **The RPC decodes as `registry.c` does.** -/
theorem rpcDecodeLoop_eq (input : CString) (buffer bits : ℕ) :
    rpcDecodeLoop buffer bits input = decodeInlineLoop buffer bits input := by
  have hand : ∀ n : ℕ, n &&& 0xFF = n % 256 := fun n => Nat.and_two_pow_sub_one_eq_mod n 8
  induction input generalizing buffer bits with
  | nil => rw [rpcDecodeLoop, decodeInlineLoop]
  | cons c rest ih =>
    rw [rpcDecodeLoop, decodeInlineLoop]
    split
    · rfl
    · split
      · rename_i hv
        simp only [shift_or_eq buffer hv, hand, Nat.shiftRight_eq_div_pow, ih, ge_iff_le]
      · exact ih buffer bits

/-! ## 3. Sizes -/

theorem length_decodeLoop : ∀ encoded : CString,
    encoded.length / 4 * 3 ≤ (decodeLoop encoded).length
  | a :: b :: c :: d :: rest => by
    have ih := length_decodeLoop rest
    have hquad : (decodeQuad a b c d).length = 3 := rfl
    rw [decodeLoop, List.length_append, hquad]
    simp only [List.length_cons]
    omega
  | [a, b, c] => by simp
  | [a, b] => by simp
  | [a] => by simp
  | [] => by simp

/-- **The size the decoder computes** from the text is the length of the data. -/
theorem decodedSize_encode (data : Bytes) :
    (base64Encode data).length / 4 * 3 - paddingOf (base64Encode data) = data.length := by
  have hlen := congrArg List.length (base64Decode_base64Encode data)
  have hge := length_decodeLoop (base64Encode data)
  rw [base64Decode, List.length_take] at hlen
  omega

/-- The other formula gives the same, since the text is in groups of four. -/
theorem versionSize_encode (data : Bytes) :
    (base64Encode data).length * 3 / 4 = (base64Encode data).length / 4 * 3 := by
  rw [length_base64Encode]
  omega

/-! ## 4. Every pair -/

/-- The encoders of the storage layer. -/
inductive Encoder where
  | object
  | metadata
  | rpcClient
  | rpcServer
  deriving DecidableEq, Repr

/-- The decoders of the storage layer. -/
inductive Decoder where
  | object
  | version
  | registry
  | rpcServer
  | rpcClient
  deriving DecidableEq, Repr

/-- The two files that write `xl.meta` have the same function, and so have the two of the RPC. -/
def Encoder.encode : Encoder → Bytes → CString
  | object => base64Encode
  | metadata => base64Encode
  | rpcClient => rpcEncode
  | rpcServer => rpcEncode

/-- The bytes and the length that the caller gets. -/
def Decoder.decode : Decoder → CString → Option (Bytes × ℕ)
  | object, encoded => some (objectDecode encoded)
  | version, encoded => some (base64DecodeVersion encoded)
  | registry, encoded => (decodeBase64Inline encoded).map fun bytes => (bytes, bytes.length)
  | rpcServer, encoded => some (rpcDecode encoded)
  | rpcClient, encoded => some (rpcDecode encoded)

theorem Encoder.encode_eq (encoder : Encoder) (data : Bytes) :
    encoder.encode data = base64Encode data := by
  cases encoder with
  | object => rfl
  | metadata => rfl
  | rpcClient => exact rpcEncode_eq data
  | rpcServer => exact rpcEncode_eq data

theorem rpcDecode_encode (data : Bytes) : rpcDecode (base64Encode data) = (data, data.length) := by
  rw [rpcDecode, rpcDecodeLoop_eq, decodeInlineLoop_base64Encode]

/-- **Every encoder followed by every decoder** returns the bytes and their number. -/
theorem decode_encode (encoder : Encoder) (decoder : Decoder) {data : Bytes} (h : data ≠ []) :
    decoder.decode (encoder.encode data) = some (data, data.length) := by
  rw [encoder.encode_eq]
  cases decoder with
  | object =>
    rw [Decoder.decode, objectDecode, base64Decode_base64Encode, decodedSize_encode]
  | version =>
    have hdata : (decodeLoop (base64Encode data)).take data.length = data := by
      have hround := base64Decode_base64Encode data
      rwa [base64Decode, decodedSize_encode] at hround
    rw [Decoder.decode, base64DecodeVersion, versionSize_encode, decodedSize_encode, hdata]
  | registry =>
    rw [Decoder.decode, decodeBase64Inline_base64Encode h, Option.map_some]
  | rpcServer => rw [Decoder.decode, rpcDecode_encode]
  | rpcClient => rw [Decoder.decode, rpcDecode_encode]

/-- Four bytes from the client of the RPC, read as a version. -/
theorem decode_encode_fourBytes :
    Decoder.version.decode (Encoder.rpcClient.encode [0, 255, 16, 131]) =
      some ([0, 255, 16, 131], 4) :=
  decode_encode .rpcClient .version (List.cons_ne_nil _ _)

end Buckets.Base64Pairs
