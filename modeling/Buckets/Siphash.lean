/-
# SipHash-2-4: `siphash.c`

The keyed hash that places objects.  It can be fed in pieces: eight bytes are a word of the message,
the state of four words absorbs one after the other, and what does not make a word waits in a buffer
of eight bytes.  At the end the buffer and the length, in ONE byte, make the last word.

* `siphash24` -- the algorithm as published, on a whole message;
* `sipRound_eq`, `compress_eq` -- the code's round and its compression are the published ones;
* `updates_state` -- what the pieces leave in the state, however they were cut;
* `siphash_pieces` -- so every way of cutting gives the published value, and so does the one call.
-/
import Buckets.Json
import Buckets.Lib.BlockStream
import Buckets.Lib.LittleEndian

namespace Buckets.Siphash

open BlockStream LittleEndian

/-! ## 1. The code -/

/-- `v0` to `v3`. -/
structure Words where
  v0 : UInt64
  v1 : UInt64
  v2 : UInt64
  v3 : UInt64
  deriving DecidableEq, Repr

/-- `SIPROUND`. -/
def sipRound (v : Words) : Words :=
  let v0 := v.v0 + v.v1
  let v1 := rotl v.v1 13 ^^^ v0
  let v0 := rotl v0 32
  let v2 := v.v2 + v.v3
  let v3 := rotl v.v3 16 ^^^ v2
  let v0 := v0 + v3
  let v3 := rotl v3 21 ^^^ v0
  let v2 := v2 + v1
  let v1 := rotl v1 17 ^^^ v2
  let v2 := rotl v2 32
  ⟨v0, v1, v2, v3⟩

/-- One word of the message, `m`. -/
def mix (v : Words) (m : UInt64) : Words :=
  let v := sipRound (sipRound { v with v3 := v.v3 ^^^ m })
  { v with v0 := v.v0 ^^^ m }

/-- `load_le64` of eight bytes, and two rounds with it. -/
def compress (v : Words) (block : Bytes) : Words := mix v (load 8 block)

/-- `buckets_siphash_state_t`.  `k0` and `k1` are not read after the start, nor are the bytes of the
buffer behind `buf_len`. -/
structure State where
  words : Words
  totalLen : UInt64
  buf : Bytes
  deriving DecidableEq, Repr

/-- `buckets_siphash_init`. -/
def siphashInit (k0 k1 : UInt64) : State where
  words :=
    { v0 := k0 ^^^ 0x736f6d6570736575
      v1 := k1 ^^^ 0x646f72616e646f6d
      v2 := k0 ^^^ 0x6c7967656e657261
      v3 := k1 ^^^ 0x7465646279746573 }
  totalLen := 0
  buf := []

/-- `buckets_siphash_update`. -/
def siphashUpdate (state : State) (data : Bytes) : State :=
  let result := update 8 compress (state.words, state.buf) data
  { words := result.1, totalLen := state.totalLen + UInt64.ofNat data.length, buf := result.2 }

/-- The last word: the length, and the `switch` over the bytes of the buffer, from the last on. -/
def lastWord (state : State) : UInt64 :=
  (state.buf.zipIdx 0).foldr (fun b w => w ||| b.1.toUInt64 <<< UInt64.ofNat (8 * b.2))
    ((state.totalLen &&& 0xff) <<< 56)

/-- `buckets_siphash_final`. -/
def siphashFinal (state : State) : UInt64 :=
  let v := mix state.words (lastWord state)
  let v := { v with v2 := v.v2 ^^^ 0xff }
  let v := sipRound (sipRound (sipRound (sipRound v)))
  v.v0 ^^^ v.v1 ^^^ v.v2 ^^^ v.v3

/-- `buckets_siphash`. -/
def siphash (k0 k1 : UInt64) (data : Bytes) : UInt64 :=
  siphashFinal (siphashUpdate (siphashInit k0 k1) data)

/-! ## 2. The published algorithm -/

/-- SipRound: two halves, each of two additions, two rotations, two exclusive ors and one more
rotation by 32. -/
def publishedRound (v : Words) : Words :=
  let a : Words := { v with v0 := v.v0 + v.v1, v2 := v.v2 + v.v3 }
  let a := { a with v1 := rotateLeft a.v1 13, v3 := rotateLeft a.v3 16 }
  let a := { a with v1 := a.v1 ^^^ a.v0, v3 := a.v3 ^^^ a.v2 }
  let a := { a with v0 := rotateLeft a.v0 32 }
  let b := { a with v2 := a.v2 + a.v1, v0 := a.v0 + a.v3 }
  let b := { b with v1 := rotateLeft b.v1 17, v3 := rotateLeft b.v3 21 }
  let b := { b with v1 := b.v1 ^^^ b.v2, v3 := b.v3 ^^^ b.v0 }
  { b with v2 := rotateLeft b.v2 32 }

/-- The message filled up to whole words: zeros, and the length modulo 256 as the last byte. -/
def padded (message : Bytes) : Bytes :=
  message ++ List.replicate (7 - message.length % 8) 0 ++ [UInt8.ofNat message.length]

/-- The words of a message. -/
def messageWords (message : Bytes) : List UInt64 :=
  (List.range (message.length / 8 + 1)).map fun i => word (block 8 (padded message) i)

/-- Compression, with two rounds. -/
def publishedMix (v : Words) (m : UInt64) : Words :=
  let v := publishedRound^[2] { v with v3 := v.v3 ^^^ m }
  { v with v0 := v.v0 ^^^ m }

/-- **SipHash-2-4.** -/
def siphash24 (k0 k1 : UInt64) (message : Bytes) : UInt64 :=
  let v : Words :=
    { v0 := k0 ^^^ 0x736f6d6570736575
      v1 := k1 ^^^ 0x646f72616e646f6d
      v2 := k0 ^^^ 0x6c7967656e657261
      v3 := k1 ^^^ 0x7465646279746573 }
  let v := (messageWords message).foldl publishedMix v
  let v := publishedRound^[4] { v with v2 := v.v2 ^^^ 0xff }
  v.v0 ^^^ v.v1 ^^^ v.v2 ^^^ v.v3

/-- The test vector of the paper: the key `00 01 … 0f` and the message `00 01 … 0e`. -/
example : siphash24 0x0706050403020100 0x0f0e0d0c0b0a0908
    [0, 1, 2, 3, 4, 5, 6, 7, 8, 9, 10, 11, 12, 13, 14] = 0xa129ca6149be45e5 := by decide +kernel

/-! ## 3. The code computes it -/

/-- **The order of the statements does not matter.** -/
theorem sipRound_eq (v : Words) : sipRound v = publishedRound v := by
  simp only [sipRound, publishedRound, rotl_eq _ (show 0 < 13 by decide) (by decide),
    rotl_eq _ (show 0 < 16 by decide) (by decide), rotl_eq _ (show 0 < 17 by decide) (by decide),
    rotl_eq _ (show 0 < 21 by decide) (by decide), rotl_eq _ (show 0 < 32 by decide) (by decide)]

theorem mix_eq (v : Words) (m : UInt64) : mix v m = publishedMix v m := by
  rw [mix, publishedMix, sipRound_eq, sipRound_eq]
  rfl

theorem compress_eq (v : Words) {bytes : Bytes} (h : bytes.length = 8) :
    compress v bytes = publishedMix v (word bytes) := by
  rw [compress, mix_eq, load_eq_word (Nat.le_refl 8), List.take_of_length_le (Nat.le_of_eq h)]

/-- What pieces leave in the state: the loop over all of them, and their length. -/
theorem updates_state (state : State) (chunks : List Bytes) :
    chunks.foldl siphashUpdate state =
      { words := (chunks.foldl (update 8 compress) (state.words, state.buf)).1
        totalLen := state.totalLen + UInt64.ofNat chunks.flatten.length
        buf := (chunks.foldl (update 8 compress) (state.words, state.buf)).2 } := by
  induction chunks generalizing state with
  | nil => simp
  | cons chunk chunks ih =>
    rw [List.foldl_cons, ih, List.flatten_cons, List.length_append, UInt64.ofNat_add,
      List.foldl_cons]
    simp only [siphashUpdate, UInt64.add_assoc]

/-- The length, in one byte. -/
theorem length_byte (n : ℕ) : UInt64.ofNat n &&& 0xff = (UInt8.ofNat n).toUInt64 := by
  refine UInt64.toNat_inj.mp ?_
  rw [UInt64.toNat_and, UInt64.toNat_ofNat', UInt8.toNat_toUInt64, UInt8.toNat_ofNat']
  show n % 2 ^ 64 &&& 2 ^ 8 - 1 = n % 2 ^ 8
  rw [Nat.and_two_pow_sub_one_eq_mod]
  omega

/-- **The last word**: the rest of the message, zeros, and the length. -/
theorem lastWord_eq {state : State} {n : ℕ} (htotal : state.totalLen = UInt64.ofNat n)
    (hbuf : state.buf.length < 8) :
    lastWord state = word (state.buf ++ List.replicate (7 - state.buf.length) 0 ++
      [UInt8.ofNat n]) := by
  rw [lastWord, foldr_or, htotal, length_byte, word_last (by omega)]

theorem block_padded_of_lt {message : Bytes} {i : ℕ} (h : i < message.length / 8) :
    block 8 (padded message) i = block 8 message i := by
  have hle : i * 8 ≤ message.length := by omega
  have hlong : 8 ≤ (message.drop (i * 8)).length := by
    rw [List.length_drop]
    omega
  rw [block, block, padded, List.append_assoc, List.drop_append_of_le_length hle,
    List.take_append_of_le_length hlong]

theorem block_padded_last (message : Bytes) :
    block 8 (padded message) (message.length / 8) =
      message.drop (message.length / 8 * 8) ++
        List.replicate (7 - (message.drop (message.length / 8 * 8)).length) 0 ++
        [UInt8.ofNat message.length] := by
  have hle : message.length / 8 * 8 ≤ message.length := Nat.div_mul_le_self _ _
  have hrest : (message.drop (message.length / 8 * 8)).length = message.length % 8 := by
    rw [List.length_drop]
    omega
  rw [block, padded, List.append_assoc, List.drop_append_of_le_length hle, hrest,
    ← List.append_assoc]
  refine List.take_of_length_le ?_
  rw [List.length_append, List.length_append, hrest, List.length_replicate]
  simp only [List.length_singleton]
  omega

/-- The loop over a message, and the published words but the last. -/
theorem run_eq_words (v : Words) (message : Bytes) :
    (run 8 0 compress v message).1 =
      ((List.range (message.length / 8)).map fun i =>
        word (block 8 (padded message) i)).foldl publishedMix v := by
  have hwords : ∀ (w : Words), ∀ i ∈ List.range (message.length / 8),
      compress w (block 8 message i) = publishedMix w (word (block 8 (padded message) i)) := by
    intro w i hi
    have hlt := List.mem_range.mp hi
    have hlen : (block 8 message i).length = 8 := by
      rw [block, List.length_take, List.length_drop]
      omega
    rw [compress_eq w hlen, block_padded_of_lt hlt]
  rw [run_eq (by decide), List.foldl_map, Nat.sub_zero]
  exact List.foldl_ext _ _ _ hwords

theorem final_eq (v : Words) (message : Bytes) :
    siphashFinal ⟨(run 8 0 compress v message).1, UInt64.ofNat message.length,
        (run 8 0 compress v message).2⟩ =
      (let v := (messageWords message).foldl publishedMix v
       let v := publishedRound^[4] { v with v2 := v.v2 ^^^ 0xff }
       v.v0 ^^^ v.v1 ^^^ v.v2 ^^^ v.v3) := by
  have hbuf : (run 8 0 compress v message).2 = message.drop (message.length / 8 * 8) := by
    rw [run_eq (by decide), Nat.sub_zero]
  have hlt := @length_run_lt _ _ 8 0 compress (by decide) v message
  have hlast := @lastWord_eq ⟨(run 8 0 compress v message).1, UInt64.ofNat message.length,
    (run 8 0 compress v message).2⟩ message.length rfl hlt
  rw [siphashFinal, hlast]
  dsimp only
  rw [hbuf, ← block_padded_last, run_eq_words, mix_eq, sipRound_eq, sipRound_eq, sipRound_eq,
    sipRound_eq, messageWords, List.range_succ, List.map_append, List.foldl_append]
  rfl

/-- **Every way of cutting a message gives its SipHash-2-4**: for every key and every list of
pieces, empty ones among them, the updates and the final give the published value of the whole, and
so does the call with the whole at once. -/
theorem siphash_pieces (k0 k1 : UInt64) (chunks : List Bytes) :
    siphashFinal (chunks.foldl siphashUpdate (siphashInit k0 k1)) =
        siphash24 k0 k1 chunks.flatten ∧
      siphash k0 k1 chunks.flatten = siphash24 k0 k1 chunks.flatten := by
  have hpieces : ∀ chunks : List Bytes,
      siphashFinal (chunks.foldl siphashUpdate (siphashInit k0 k1)) =
        siphash24 k0 k1 chunks.flatten := by
    intro chunks
    have hrun := @updates_eq _ _ 8 compress (by decide) (siphashInit k0 k1).words chunks
    rw [updates_state]
    dsimp only [siphashInit] at hrun ⊢
    rw [hrun, UInt64.zero_add]
    exact final_eq _ _
  refine ⟨hpieces chunks, ?_⟩
  have hwhole := hpieces [chunks.flatten]
  rwa [List.foldl_cons, List.foldl_nil, List.flatten_singleton] at hwhole

end Buckets.Siphash
