/-
# BLAKE2b: `blake2b.c`

The cryptographic hash of the objects.  It takes blocks of 128 bytes; the LAST one, which may be
full, is compressed differently, so that a full block has to be held back until it is known whether
more follows.  A key is a block of its own in front of the message.  Every compression gets the
number of bytes so far, kept in two words with a carry between them.

* `blake2b7693` -- the algorithm of RFC 7693, on a whole message;
* `compress_eq` -- the code's compression is the function F of the RFC;
* `Counts.bump` -- the two words with their carry are one counter;
* `run_blocks` -- the blocks that were compressed, however the message was cut;
* `blake2b_pieces` -- so every way of cutting gives the digest of the RFC, and so does the one call.
-/
import Buckets.Json
import Buckets.Lib.BlockStream
import Buckets.Lib.LittleEndian

namespace Buckets.Blake2b

open BlockStream LittleEndian

/-- `blake2b_iv`. -/
def iv : Vector UInt64 8 :=
  #v[0x6a09e667f3bcc908, 0xbb67ae8584caa73b, 0x3c6ef372fe94f82b, 0xa54ff53a5f1d36f1,
    0x510e527fade682d1, 0x9b05688c2b3e6c1f, 0x1f83d9abfb41bd6b, 0x5be0cd19137e2179]

/-! ## 1. The code: compression -/

/-- `blake2b_sigma`. -/
def sigma : Vector (Vector (Fin 16) 16) 12 :=
  #v[#v[0, 1, 2, 3, 4, 5, 6, 7, 8, 9, 10, 11, 12, 13, 14, 15],
    #v[14, 10, 4, 8, 9, 15, 13, 6, 1, 12, 0, 2, 11, 7, 5, 3],
    #v[11, 8, 12, 0, 5, 2, 15, 13, 10, 14, 3, 6, 7, 1, 9, 4],
    #v[7, 9, 3, 1, 13, 12, 11, 14, 2, 6, 5, 10, 4, 0, 15, 8],
    #v[9, 0, 5, 7, 2, 4, 10, 15, 14, 1, 11, 12, 6, 8, 3, 13],
    #v[2, 12, 6, 10, 0, 11, 8, 3, 4, 13, 7, 5, 15, 14, 1, 9],
    #v[12, 5, 1, 15, 14, 13, 4, 10, 0, 7, 6, 3, 9, 2, 8, 11],
    #v[13, 11, 7, 14, 12, 1, 3, 9, 5, 0, 15, 4, 8, 6, 2, 10],
    #v[6, 15, 14, 9, 11, 3, 0, 8, 12, 2, 13, 7, 1, 4, 10, 5],
    #v[10, 2, 8, 4, 7, 6, 1, 5, 15, 11, 9, 14, 3, 12, 13, 0],
    #v[0, 1, 2, 3, 4, 5, 6, 7, 8, 9, 10, 11, 12, 13, 14, 15],
    #v[14, 10, 4, 8, 9, 15, 13, 6, 1, 12, 0, 2, 11, 7, 5, 3]]

/-- `G(r, i, v[a], v[b], v[c], v[d])`, with row `r` of the table. -/
def mixG (row : Vector (Fin 16) 16) (m : Vector UInt64 16) (i : Fin 8) (a b c d : Fin 16)
    (v : Vector UInt64 16) : Vector UInt64 16 :=
  let v := v.set a (v[a] + v[b] + m[row[2 * i.val + 0]])
  let v := v.set d (rotr (v[d] ^^^ v[a]) 32)
  let v := v.set c (v[c] + v[d])
  let v := v.set b (rotr (v[b] ^^^ v[c]) 24)
  let v := v.set a (v[a] + v[b] + m[row[2 * i.val + 1]])
  let v := v.set d (rotr (v[d] ^^^ v[a]) 16)
  let v := v.set c (v[c] + v[d])
  v.set b (rotr (v[b] ^^^ v[c]) 63)

/-- `ROUND(r)`. -/
def round (m : Vector UInt64 16) (v : Vector UInt64 16) (r : Fin 12) : Vector UInt64 16 :=
  let v := mixG sigma[r] m 0 0 4 8 12 v
  let v := mixG sigma[r] m 1 1 5 9 13 v
  let v := mixG sigma[r] m 2 2 6 10 14 v
  let v := mixG sigma[r] m 3 3 7 11 15 v
  let v := mixG sigma[r] m 4 0 5 10 15 v
  let v := mixG sigma[r] m 5 1 6 11 12 v
  let v := mixG sigma[r] m 6 2 7 8 13 v
  mixG sigma[r] m 7 3 4 9 14 v

/-- `t[2]` and `f[2]`. -/
structure Flags where
  t0 : UInt64
  t1 : UInt64
  f0 : UInt64
  f1 : UInt64
  deriving DecidableEq, Repr

/-- `blake2b_compress`. -/
def compress (h : Vector UInt64 8) (flags : Flags) (block : Bytes) : Vector UInt64 8 :=
  let m : Vector UInt64 16 := Vector.ofFn fun i => load 8 (block.drop (i * 8))
  let v : Vector UInt64 16 := (h ++ iv).cast rfl
  let v := v.set 12 (v[12] ^^^ flags.t0)
  let v := v.set 13 (v[13] ^^^ flags.t1)
  let v := v.set 14 (v[14] ^^^ flags.f0)
  let v := v.set 15 (v[15] ^^^ flags.f1)
  let v := (List.finRange 12).foldl (round m) v
  Vector.ofFn fun i : Fin 8 => h[i] ^^^ (v[i.val] ^^^ v[i.val + 8])

/-! ## 2. The code: the stream -/

/-- `BUCKETS_BLAKE2B_BLOCKBYTES`. -/
def blockBytes : ℕ := 128

/-- `t[0] += n`, and the carry. -/
def bump (flags : Flags) (n : UInt64) : Flags :=
  { flags with
    t0 := flags.t0 + n
    t1 := if flags.t0 + n < n then flags.t1 + 1 else flags.t1 }

/-- One full block that is not the last. -/
def absorb (state : Vector UInt64 8 × Flags) (block : Bytes) : Vector UInt64 8 × Flags :=
  let flags := bump state.2 128
  (compress state.1 flags block, flags)

/-- `buckets_blake2b_ctx_t`. -/
structure Ctx where
  h : Vector UInt64 8
  flags : Flags
  buf : Bytes
  outlen : ℕ

/-- The bytes of a `buckets_blake2b_param_t` with the given lengths, fanout 1 and depth 1. -/
def paramBytes (outlen keylen : ℕ) : Bytes :=
  [UInt8.ofNat outlen, UInt8.ofNat keylen, 1, 1] ++ List.replicate 60 0

/-- `buckets_blake2b_init_param`; the first byte is the length of the digest. -/
def blake2bInitParam (param : Bytes) : Ctx where
  h := Vector.ofFn fun i => iv[i] ^^^ load 8 (param.drop (8 * i))
  flags := ⟨0, 0, 0, 0⟩
  buf := []
  outlen := (param.headD 0).toNat

/-- `buckets_blake2b_init`. -/
def blake2bInit (outlen : ℕ) : Option Ctx :=
  if outlen = 0 ∨ 64 < outlen then none else some (blake2bInitParam (paramBytes outlen 0))

/-- `buckets_blake2b_update`. -/
def blake2bUpdate (ctx : Ctx) (data : Bytes) : Ctx :=
  let result := lazyUpdate blockBytes absorb ((ctx.h, ctx.flags), ctx.buf) data
  { ctx with h := result.1.1, flags := result.1.2, buf := result.2 }

/-- `buckets_blake2b_init_key`. -/
def blake2bInitKey (outlen : ℕ) (key : Bytes) : Option Ctx :=
  if outlen = 0 ∨ 64 < outlen then none
  else if 64 < key.length then none
  else
    let ctx := blake2bInitParam (paramBytes outlen key.length)
    some (if 0 < key.length then
      blake2bUpdate ctx (key ++ List.replicate (blockBytes - key.length) 0) else ctx)

/-- `buckets_blake2b_final` into a buffer of `outlen` bytes. -/
def blake2bFinal (ctx : Ctx) (outlen : ℕ) : Option Bytes :=
  if outlen < ctx.outlen then none
  else
    let block := ctx.buf ++ List.replicate (blockBytes - ctx.buf.length) 0
    let flags := { bump ctx.flags (UInt64.ofNat ctx.buf.length) with f0 := -1 }
    let h := compress ctx.h flags block
    some ((h.toList.flatMap store).take ctx.outlen)

/-- `buckets_blake2b`. -/
def blake2b (outlen : ℕ) (data key : Bytes) : Option Bytes := do
  let ctx ← if 0 < key.length then blake2bInitKey outlen key else blake2bInit outlen
  blake2bFinal (blake2bUpdate ctx data) outlen

/-! ## 3. RFC 7693 -/

/-- Table `SIGMA`, ten rows. -/
def publishedSigma : Vector (Vector (Fin 16) 16) 10 :=
  #v[#v[0, 1, 2, 3, 4, 5, 6, 7, 8, 9, 10, 11, 12, 13, 14, 15],
    #v[14, 10, 4, 8, 9, 15, 13, 6, 1, 12, 0, 2, 11, 7, 5, 3],
    #v[11, 8, 12, 0, 5, 2, 15, 13, 10, 14, 3, 6, 7, 1, 9, 4],
    #v[7, 9, 3, 1, 13, 12, 11, 14, 2, 6, 5, 10, 4, 0, 15, 8],
    #v[9, 0, 5, 7, 2, 4, 10, 15, 14, 1, 11, 12, 6, 8, 3, 13],
    #v[2, 12, 6, 10, 0, 11, 8, 3, 4, 13, 7, 5, 15, 14, 1, 9],
    #v[12, 5, 1, 15, 14, 13, 4, 10, 0, 7, 6, 3, 9, 2, 8, 11],
    #v[13, 11, 7, 14, 12, 1, 3, 9, 5, 0, 15, 4, 8, 6, 2, 10],
    #v[6, 15, 14, 9, 11, 3, 0, 8, 12, 2, 13, 7, 1, 4, 10, 5],
    #v[10, 2, 8, 4, 7, 6, 1, 5, 15, 11, 9, 14, 3, 12, 13, 0]]

/-- Section 3.1, function G. -/
def publishedG (v : Vector UInt64 16) (a b c d : Fin 16) (x y : UInt64) : Vector UInt64 16 :=
  let v := v.set a (v[a] + v[b] + x)
  let v := v.set d (rotateRight (v[d] ^^^ v[a]) 32)
  let v := v.set c (v[c] + v[d])
  let v := v.set b (rotateRight (v[b] ^^^ v[c]) 24)
  let v := v.set a (v[a] + v[b] + y)
  let v := v.set d (rotateRight (v[d] ^^^ v[a]) 16)
  let v := v.set c (v[c] + v[d])
  v.set b (rotateRight (v[b] ^^^ v[c]) 63)

/-- The body of the loop of function F: columns, then diagonals. -/
def publishedRound (m : Vector UInt64 16) (v : Vector UInt64 16) (i : ℕ) : Vector UInt64 16 :=
  let s := publishedSigma[i % 10]
  let v := publishedG v 0 4 8 12 m[s[0]] m[s[1]]
  let v := publishedG v 1 5 9 13 m[s[2]] m[s[3]]
  let v := publishedG v 2 6 10 14 m[s[4]] m[s[5]]
  let v := publishedG v 3 7 11 15 m[s[6]] m[s[7]]
  let v := publishedG v 0 5 10 15 m[s[8]] m[s[9]]
  let v := publishedG v 1 6 11 12 m[s[10]] m[s[11]]
  let v := publishedG v 2 7 8 13 m[s[12]] m[s[13]]
  publishedG v 3 4 9 14 m[s[14]] m[s[15]]

/-- The words of a block. -/
def blockWords (block : Bytes) : Vector UInt64 16 :=
  Vector.ofFn fun i => word ((block.drop (8 * i)).take 8)

/-- Section 3.2, function F: `t` is the offset, `last` the flag of the final block. -/
def publishedF (h : Vector UInt64 8) (block : Bytes) (t : ℕ) (last : Bool) : Vector UInt64 8 :=
  let v : Vector UInt64 16 := (h ++ iv).cast rfl
  let v := v.set 12 (v[12] ^^^ UInt64.ofNat t)
  let v := v.set 13 (v[13] ^^^ UInt64.ofNat (t / 2 ^ 64))
  let v := if last then v.set 14 (v[14] ^^^ 0xFFFFFFFFFFFFFFFF) else v
  let v := (List.range 12).foldl (publishedRound (blockWords block)) v
  Vector.ofFn fun i : Fin 8 => h[i] ^^^ v[i.val] ^^^ v[i.val + 8]

/-- Section 3.3: the key, if there is one, as a block, and the message. -/
def keyedInput (key message : Bytes) : Bytes :=
  (if key.length = 0 then [] else key ++ List.replicate (128 - key.length) 0) ++ message

/-- Block `d[i]`, filled up with zeros. -/
def dataBlock (input : Bytes) (i : ℕ) : Bytes :=
  block 128 input i ++ List.replicate (128 - (block 128 input i).length) 0

/-- **BLAKE2b** of a message, with a key or none, to `nn` bytes. -/
def blake2b7693 (nn : ℕ) (key message : Bytes) : Bytes :=
  let input := keyedInput key message
  let dd := max 1 ((input.length + 127) / 128)
  let p0 := (0x01010000 : UInt64) ^^^ UInt64.ofNat key.length <<< 8 ^^^ UInt64.ofNat nn
  let h := iv.set 0 (iv[0] ^^^ p0)
  let h := (List.range (dd - 1)).foldl
    (fun h i => publishedF h (dataBlock input i) ((i + 1) * 128) false) h
  let ll := message.length
  let h := publishedF h (dataBlock input (dd - 1)) (if key.length = 0 then ll else ll + 128) true
  (h.toList.flatMap bytesOf).take nn

/-- Appendix A: the digest of `abc`. -/
example : (blake2b7693 64 [] (cstr "abc")).take 8 =
    [0xba, 0x80, 0xa5, 0x3f, 0x98, 0x1c, 0x4d, 0x0d] := by decide +kernel

/-! ## 4. The compression is F -/

theorem mixG_eq (row : Vector (Fin 16) 16) (m : Vector UInt64 16) (i : Fin 8) (a b c d : Fin 16)
    (v : Vector UInt64 16) :
    mixG row m i a b c d v =
      publishedG v a b c d m[row[2 * i.val + 0]] m[row[2 * i.val + 1]] := by
  simp only [mixG, publishedG, rotr_eq _ (show 0 < 32 by decide) (by decide),
    rotr_eq _ (show 0 < 24 by decide) (by decide), rotr_eq _ (show 0 < 16 by decide) (by decide),
    rotr_eq _ (show 0 < 63 by decide) (by decide)]

/-- Twelve rows are the ten of the RFC, and the first two again. -/
theorem sigma_eq : ∀ r : Fin 12, sigma[r] = publishedSigma[r.val % 10] := by decide

theorem round_eq (m v : Vector UInt64 16) (r : Fin 12) : round m v r = publishedRound m v r := by
  simp only [round, mixG_eq, sigma_eq]
  rfl

theorem rounds_eq (m v : Vector UInt64 16) :
    (List.finRange 12).foldl (round m) v = (List.range 12).foldl (publishedRound m) v := by
  have hrange : List.range 12 = (List.finRange 12).map Fin.val :=
    (List.map_coe_finRange_eq_range).symm
  rw [hrange, List.foldl_map]
  refine List.foldl_ext _ _ _ ?_
  intro w r _
  exact round_eq m w r

/-- The flags hold the counter `t`, and it is not the last block. -/
structure Counts (flags : Flags) (t : ℕ) : Prop where
  low : flags.t0 = UInt64.ofNat t
  high : flags.t1 = UInt64.ofNat (t / 2 ^ 64)
  f0 : flags.f0 = 0
  f1 : flags.f1 = 0

theorem blockWords_eq (block : Bytes) :
    (Vector.ofFn fun i : Fin 16 => load 8 (block.drop (i * 8))) = blockWords block := by
  rw [blockWords]
  congr 1
  funext i
  rw [load_eq_word (Nat.le_refl 8), Nat.mul_comm]

/-- **The compression is the function F.** -/
theorem compress_eq (h : Vector UInt64 8) {flags : Flags} {t : ℕ} (hcounts : Counts flags t)
    (block : Bytes) (last : Bool) :
    compress h { flags with f0 := if last then -1 else 0 } block = publishedF h block t last := by
  have hsame : ∀ (v : Vector UInt64 16) (i : ℕ) (hi : i < 16), v.set i (v[i] ^^^ 0) = v := by
    intro v i hi
    rw [UInt64.xor_zero, Vector.set_getElem_self]
  rw [compress, publishedF]
  dsimp only
  rw [blockWords_eq, hcounts.low, hcounts.high, hcounts.f1, hsame, rounds_eq]
  cases last with
  | false =>
    rw [if_neg Bool.false_ne_true, if_neg Bool.false_ne_true, hsame]
    simp only [UInt64.xor_assoc]
  | true =>
    rw [if_pos rfl, if_pos rfl]
    simp only [UInt64.xor_assoc]
    rfl

/-! ## 5. The counter -/

/-- **The two words with their carry are one counter.** -/
theorem Counts.bump {flags : Flags} {t : ℕ} (h : Counts flags t) {n : ℕ} (hn : n < 2 ^ 64) :
    Counts (bump flags (UInt64.ofNat n)) (t + n) where
  low := by
    show flags.t0 + UInt64.ofNat n = _
    rw [h.low, UInt64.ofNat_add]
  high := by
    show (if flags.t0 + UInt64.ofNat n < UInt64.ofNat n then flags.t1 + 1 else flags.t1) = _
    have hcarry : flags.t0 + UInt64.ofNat n < UInt64.ofNat n ↔ 2 ^ 64 ≤ t % 2 ^ 64 + n := by
      rw [UInt64.lt_iff_toNat_lt, UInt64.toNat_add, h.low, UInt64.toNat_ofNat',
        UInt64.toNat_ofNat']
      omega
    rw [h.high]
    split
    · rename_i hlt
      rw [hcarry] at hlt
      have hdiv : (t + n) / 2 ^ 64 = t / 2 ^ 64 + 1 := by omega
      rw [hdiv, UInt64.ofNat_add]
      rfl
    · rename_i hlt
      rw [hcarry] at hlt
      have hdiv : (t + n) / 2 ^ 64 = t / 2 ^ 64 := by omega
      rw [hdiv]
  f0 := h.f0
  f1 := h.f1

theorem absorb_eq {h : Vector UInt64 8} {flags : Flags} {t : ℕ} (hcounts : Counts flags t)
    (block : Bytes) :
    (absorb (h, flags) block).1 = publishedF h block (t + 128) false ∧
      Counts (absorb (h, flags) block).2 (t + 128) := by
  have hbump : Counts (Blake2b.bump flags 128) (t + 128) := hcounts.bump (n := 128) (by decide)
  refine ⟨?_, hbump⟩
  have h := compress_eq h hbump block false
  rw [if_neg Bool.false_ne_true] at h
  have hflags : { Blake2b.bump flags 128 with f0 := 0 } = Blake2b.bump flags 128 := by
    rw [← hbump.f0]
  rw [hflags] at h
  exact h

/-! ## 6. The blocks of a message -/

theorem length_block_of_lt {input : Bytes} {i : ℕ} (h : i < (input.length - 1) / 128) :
    (block 128 input i).length = 128 := by
  rw [block, List.length_take, List.length_drop]
  omega

/-- **The full blocks**, compressed one after the other: `n` of them. -/
theorem run_blocks {h : Vector UInt64 8} {flags : Flags} (hcounts : Counts flags 0) (input : Bytes)
    {n : ℕ} (hn : n ≤ (input.length - 1) / 128) :
    ((List.range n).foldl (fun s i => absorb s (block 128 input i)) (h, flags)).1 =
        (List.range n).foldl
          (fun h i => publishedF h (dataBlock input i) ((i + 1) * 128) false) h ∧
      Counts ((List.range n).foldl (fun s i => absorb s (block 128 input i)) (h, flags)).2
        (n * 128) := by
  induction n with
  | zero =>
    rw [Nat.zero_mul]
    exact ⟨rfl, hcounts⟩
  | succ n ih =>
    obtain ⟨hstate, hcounts'⟩ := ih (Nat.le_of_succ_le hn)
    have hfull : dataBlock input n = block 128 input n := by
      rw [dataBlock, length_block_of_lt hn, Nat.sub_self, List.replicate_zero, List.append_nil]
    have hstep := @absorb_eq ((List.range n).foldl (fun s i => absorb s (block 128 input i))
      (h, flags)).1 _ _ hcounts' (block 128 input n)
    rw [List.range_succ, List.foldl_append, List.foldl_append, List.foldl_cons, List.foldl_nil,
      List.foldl_cons, List.foldl_nil, ← hstate, hfull, Nat.succ_mul]
    exact hstep

/-! ## 7. The start -/

/-- The first word of the parameters. -/
theorem load_paramBytes_zero {outlen keylen : ℕ} (hout : outlen ≤ 64) (hkey : keylen ≤ 64) :
    load 8 (paramBytes outlen keylen) =
      (0x01010000 : UInt64) ^^^ UInt64.ofNat keylen <<< 8 ^^^ UInt64.ofNat outlen := by
  have hlt : outlen + 256 * (keylen + 256 * 257) < 2 ^ 64 := by omega
  have hword : load 8 (paramBytes outlen keylen) =
      UInt64.ofNat (outlen + 256 * (keylen + 256 * 257)) := by
    rw [load_eq_word (Nat.le_refl 8), word]
    show UInt64.ofNat ((UInt8.ofNat outlen).toNat +
      256 * ((UInt8.ofNat keylen).toNat + 256 * 257)) = _
    rw [UInt8.toNat_ofNat', UInt8.toNat_ofNat', Nat.mod_eq_of_lt (by omega),
      Nat.mod_eq_of_lt (by omega)]
  -- Each parameter is below a byte, so it falls on zeros of the word it is joined to.
  have hkeyXor : (257 <<< 8 ^^^ keylen) = keylen + 256 * 257 := xor_shiftLeft (by omega) 257
  have hshift : keylen <<< 8 < 2 ^ 64 := by
    rw [Nat.shiftLeft_eq]
    omega
  refine UInt64.toNat_inj.mp ?_
  rw [hword, UInt64.toNat_ofNat_of_lt' hlt, UInt64.toNat_xor, UInt64.toNat_xor,
    UInt64.toNat_shiftLeft, UInt64.toNat_ofNat_of_lt' (by omega : keylen < 2 ^ 64),
    UInt64.toNat_ofNat_of_lt' (by omega : outlen < 2 ^ 64)]
  show _ = (257 <<< 8) <<< 8 ^^^ keylen <<< 8 % 2 ^ 64 ^^^ outlen
  rw [Nat.mod_eq_of_lt hshift, ← Nat.shiftLeft_xor_distrib, hkeyXor, xor_shiftLeft (by omega)]

theorem load_paramBytes_succ (outlen keylen : ℕ) {i : ℕ} (h0 : 0 < i) (h : i < 8) :
    load 8 ((paramBytes outlen keylen).drop (8 * i)) = 0 := by
  have hdrop : (paramBytes outlen keylen).drop (8 * i) = List.replicate (64 - 8 * i) 0 := by
    have hfront : [UInt8.ofNat outlen, UInt8.ofNat keylen, 1, 1].length ≤ 8 * i := by
      simp only [List.length_cons, List.length_nil]
      omega
    rw [paramBytes, List.drop_append, List.drop_eq_nil_of_le hfront, List.nil_append,
      List.drop_replicate]
    simp only [List.length_cons, List.length_nil]
    congr 1
    omega
  rw [load_eq_word (Nat.le_refl 8), hdrop, List.take_replicate, word, value_zeros]
  rfl

/-- The state of the RFC before the first block. -/
def publishedStart (outlen keylen : ℕ) : Vector UInt64 8 :=
  iv.set 0 (iv[0] ^^^ ((0x01010000 : UInt64) ^^^ UInt64.ofNat keylen <<< 8 ^^^ UInt64.ofNat outlen))

/-- **The start.** -/
theorem initParam_eq {outlen keylen : ℕ} (hout : outlen ≤ 64) (hkey : keylen ≤ 64) :
    blake2bInitParam (paramBytes outlen keylen) =
      ⟨publishedStart outlen keylen, ⟨0, 0, 0, 0⟩, [], outlen⟩ := by
  have hlen : ((paramBytes outlen keylen).headD 0).toNat = outlen := by
    show (UInt8.ofNat outlen).toNat = outlen
    rw [UInt8.toNat_ofNat']
    omega
  have hstart : (Vector.ofFn fun i : Fin 8 =>
      iv[i] ^^^ load 8 ((paramBytes outlen keylen).drop (8 * i))) =
      publishedStart outlen keylen := by
    refine Vector.ext ?_
    intro i hi
    rw [Vector.getElem_ofFn, publishedStart, Vector.getElem_set]
    by_cases h0 : 0 = i
    · subst h0
      rw [if_pos rfl, Nat.mul_zero, List.drop_zero, load_paramBytes_zero hout hkey]
      rfl
    · rw [if_neg h0, load_paramBytes_succ outlen keylen (by omega) hi, UInt64.xor_zero]
      rfl
  rw [blake2bInitParam, hlen, hstart]

theorem counts_start : Counts ⟨0, 0, 0, 0⟩ 0 := ⟨rfl, rfl, rfl, rfl⟩

/-- The context with the given state of the stream. -/
def Ctx.ofStream (outlen : ℕ) (stream : (Vector UInt64 8 × Flags) × Bytes) : Ctx :=
  ⟨stream.1.1, stream.1.2, stream.2, outlen⟩

theorem update_ofStream (outlen : ℕ) (stream : (Vector UInt64 8 × Flags) × Bytes) (data : Bytes) :
    blake2bUpdate (.ofStream outlen stream) data =
      .ofStream outlen (lazyUpdate blockBytes absorb stream data) := rfl

theorem updates_ofStream (outlen : ℕ) (stream : (Vector UInt64 8 × Flags) × Bytes)
    (chunks : List Bytes) :
    chunks.foldl blake2bUpdate (.ofStream outlen stream) =
      .ofStream outlen (chunks.foldl (lazyUpdate blockBytes absorb) stream) := by
  induction chunks generalizing stream with
  | nil => rfl
  | cons chunk chunks ih => rw [List.foldl_cons, List.foldl_cons, update_ofStream, ih]

/-- The stream over an input, from the start of the RFC. -/
def streamOf (outlen keylen : ℕ) (input : Bytes) : (Vector UInt64 8 × Flags) × Bytes :=
  run blockBytes 1 absorb (publishedStart outlen keylen, ⟨0, 0, 0, 0⟩) input

theorem streamOf_nil (outlen keylen : ℕ) :
    streamOf outlen keylen [] = ((publishedStart outlen keylen, ⟨0, 0, 0, 0⟩), []) :=
  run_of_lt (by decide)

/-- **A start with a key, or with none**, is the stream over the block of the key. -/
theorem initKey_eq {outlen : ℕ} (h1 : 1 ≤ outlen) (h64 : outlen ≤ 64) {key : Bytes}
    (hkey : key.length ≤ 64) :
    blake2bInitKey outlen key =
      some (.ofStream outlen (streamOf outlen key.length (keyedInput key []))) := by
  have hstart : blake2bInitParam (paramBytes outlen key.length) =
      .ofStream outlen (streamOf outlen key.length []) := by
    rw [initParam_eq h64 hkey, streamOf_nil]
    rfl
  unfold blake2bInitKey
  rw [if_neg (by omega), if_neg (by omega), hstart]
  dsimp only
  rw [keyedInput, List.append_nil]
  by_cases hzero : key.length = 0
  · rw [if_neg (by omega), if_pos hzero]
  · have hupdate := @lazyUpdates_eq _ _ blockBytes absorb (by decide)
      (publishedStart outlen key.length, ⟨0, 0, 0, 0⟩) []
      [key ++ List.replicate (blockBytes - key.length) 0]
    rw [List.foldl_cons, List.foldl_nil, List.flatten_singleton, List.nil_append] at hupdate
    rw [if_pos (by omega), if_neg hzero, update_ofStream]
    exact congrArg (fun stream => some (Ctx.ofStream outlen stream)) hupdate

/-! ## 8. The end -/

theorem length_keyedInput {key : Bytes} (hkey : key.length ≤ 64) (message : Bytes) :
    (keyedInput key message).length =
      if key.length = 0 then message.length else message.length + 128 := by
  rw [keyedInput, List.length_append]
  split
  · rw [List.length_nil, Nat.zero_add]
  · rw [List.length_append, List.length_replicate]
    omega

theorem final_ofStream (outlen : ℕ) (stream : (Vector UInt64 8 × Flags) × Bytes) :
    blake2bFinal (.ofStream outlen stream) outlen =
      some (((compress stream.1.1
        { bump stream.1.2 (UInt64.ofNat stream.2.length) with f0 := -1 }
        (stream.2 ++ List.replicate (blockBytes - stream.2.length) 0)).toList.flatMap store).take
          outlen) :=
  if_neg (Nat.lt_irrefl outlen)

/-- **The end of a stream** is the last block of the RFC. -/
theorem final_streamOf {outlen : ℕ} {key : Bytes} (hkey : key.length ≤ 64) (message : Bytes) :
    blake2bFinal (.ofStream outlen (streamOf outlen key.length (keyedInput key message))) outlen =
      some (blake2b7693 outlen key message) := by
  set input := keyedInput key message with hinput
  have hlen := length_keyedInput hkey message
  rw [← hinput] at hlen
  -- the blocks before the last one
  have hcount : max 1 ((input.length + 127) / 128) - 1 = (input.length - 1) / 128 := by omega
  obtain ⟨hstate, hcounts⟩ := @run_blocks (publishedStart outlen key.length) _ counts_start input
    _ (Nat.le_refl _)
  have hstream : streamOf outlen key.length input =
      ((List.range ((input.length - 1) / 128)).foldl (fun s i => absorb s (block 128 input i))
        (publishedStart outlen key.length, ⟨0, 0, 0, 0⟩),
        input.drop ((input.length - 1) / 128 * 128)) := run_eq (by decide) _ _
  -- the last block, and the count with it
  have hrest : (input.drop ((input.length - 1) / 128 * 128)).length ≤ 128 := by
    rw [List.length_drop]
    omega
  have hblock : block 128 input ((input.length - 1) / 128) =
      input.drop ((input.length - 1) / 128 * 128) := List.take_of_length_le hrest
  have htotal : (input.length - 1) / 128 * 128 +
      (input.drop ((input.length - 1) / 128 * 128)).length = input.length := by
    rw [List.length_drop]
    omega
  have hlast := hcounts.bump (n := (input.drop ((input.length - 1) / 128 * 128)).length) (by omega)
  rw [htotal] at hlast
  have hcompress := compress_eq ((List.range ((input.length - 1) / 128)).foldl
    (fun s i => absorb s (block 128 input i))
      (publishedStart outlen key.length, ⟨0, 0, 0, 0⟩)).1 hlast
    (dataBlock input ((input.length - 1) / 128)) true
  rw [if_pos rfl, hstate, dataBlock, hblock] at hcompress
  have hbytes : store = bytesOf := funext store_eq
  rw [final_ofStream, hstream, hbytes]
  unfold blockBytes
  rw [hstate, hcompress, blake2b7693, ← hinput, hcount, ← hlen, dataBlock, hblock]
  rfl

/-- **Every way of cutting a message gives its BLAKE2b**: for every length of the digest from 1 to
64, every key of up to 64 bytes and every list of pieces, the updates and the final give the digest
of the RFC of the whole; without a key both ways to start do; and so does the call with the whole
at once. -/
theorem blake2b_pieces {outlen : ℕ} (h1 : 1 ≤ outlen) (h64 : outlen ≤ 64) {key : Bytes}
    (hkey : key.length ≤ 64) (chunks : List Bytes) :
    ((blake2bInitKey outlen key).bind fun ctx =>
        blake2bFinal (chunks.foldl blake2bUpdate ctx) outlen) =
        some (blake2b7693 outlen key chunks.flatten) ∧
      (key = [] → ((blake2bInit outlen).bind fun ctx =>
        blake2bFinal (chunks.foldl blake2bUpdate ctx) outlen) =
        some (blake2b7693 outlen key chunks.flatten)) ∧
      blake2b outlen chunks.flatten key = some (blake2b7693 outlen key chunks.flatten) := by
  have hpieces : ∀ chunks : List Bytes, ((blake2bInitKey outlen key).bind fun ctx =>
      blake2bFinal (chunks.foldl blake2bUpdate ctx) outlen) =
      some (blake2b7693 outlen key chunks.flatten) := by
    intro chunks
    have happend : keyedInput key [] ++ chunks.flatten = keyedInput key chunks.flatten := by
      rw [keyedInput, keyedInput, List.append_nil]
    have hrun := @lazyUpdates_eq _ _ blockBytes absorb (by decide)
      (publishedStart outlen key.length, ⟨0, 0, 0, 0⟩) (keyedInput key []) chunks
    rw [happend] at hrun
    rw [initKey_eq h1 h64 hkey, Option.bind_some, updates_ofStream, streamOf, hrun]
    exact final_streamOf hkey chunks.flatten
  have hnone : key = [] → blake2bInit outlen = blake2bInitKey outlen key := by
    rintro rfl
    rw [blake2bInit, blake2bInitKey]
    simp
  refine ⟨hpieces chunks, ?_, ?_⟩
  · intro hempty
    rw [hnone hempty]
    exact hpieces chunks
  · have hwhole := hpieces [chunks.flatten]
    simp only [List.foldl_cons, List.foldl_nil, List.flatten_singleton] at hwhole
    rw [blake2b]
    split
    · exact hwhole
    · rename_i hlen
      rw [hnone (List.length_eq_zero_iff.mp (by omega))]
      exact hwhole

/-- A message of three bytes in two pieces, with a key of one byte, to 32 bytes. -/
theorem blake2b_pieces_keyed :
    ((blake2bInitKey 32 [7]).bind fun ctx =>
        blake2bFinal ([[1, 2], [3]].foldl blake2bUpdate ctx) 32) =
      some (blake2b7693 32 [7] [1, 2, 3]) :=
  (blake2b_pieces (by decide) (by decide) (by decide) [[1, 2], [3]]).1

end Buckets.Blake2b
