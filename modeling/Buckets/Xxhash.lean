/-
# XXH64: `xxhash.c`

The checksum of the chunks.  Stripes of 32 bytes go into four accumulators; what is left at the end,
up to 31 bytes, is taken in words of eight bytes, then at most one of four, then single bytes.
Input of less than one stripe never touches the accumulators.

* `xxh64` -- the algorithm as published, on a whole message;
* `stripe_eq`, `tail_eq` -- a stripe and the end of the message, as the code and the paper
  have them;
* `xxhash_pieces` -- every way of cutting a message gives the published value, and so does the one
  call.  The length is kept in 64 bits: the test for a short message is right for every length that
  a `size_t` can hold.
-/
import Buckets.Json
import Buckets.Lib.BlockStream
import Buckets.Lib.LittleEndian

namespace Buckets.Xxhash

open BlockStream LittleEndian

def prime1 : UInt64 := 0x9E3779B185EBCA87

def prime2 : UInt64 := 0xC2B2AE3D27D4EB4F

def prime3 : UInt64 := 0x165667B19E3779F9

def prime4 : UInt64 := 0x85EBCA77C2B2AE63

def prime5 : UInt64 := 0x27D4EB2F165667C5

/-! ## 1. The code -/

/-- `v1` to `v4`. -/
structure Lanes where
  v1 : UInt64
  v2 : UInt64
  v3 : UInt64
  v4 : UInt64
  deriving DecidableEq, Repr

/-- `xxh_round`. -/
def xxhRound (acc input : UInt64) : UInt64 := rotl (acc + input * prime2) 31 * prime1

/-- `xxh_merge_round`. -/
def xxhMergeRound (acc val : UInt64) : UInt64 := (acc ^^^ xxhRound 0 val) * prime1 + prime4

/-- A stripe, read by `xxh_read64` at 0, 8, 16 and 24. -/
def stripe (v : Lanes) (p : Bytes) : Lanes where
  v1 := xxhRound v.v1 (load 8 p)
  v2 := xxhRound v.v2 (load 8 (p.drop 8))
  v3 := xxhRound v.v3 (load 8 (p.drop 16))
  v4 := xxhRound v.v4 (load 8 (p.drop 24))

/-- `buckets_xxhash_state_t`. -/
structure State where
  lanes : Lanes
  totalLen : UInt64
  seed : UInt64
  buf : Bytes
  deriving DecidableEq, Repr

/-- `buckets_xxhash_init`. -/
def xxhashInit (seed : UInt64) : State where
  lanes := ⟨seed + prime1 + prime2, seed + prime2, seed, seed - prime1⟩
  totalLen := 0
  seed := seed
  buf := []

/-- `buckets_xxhash_update`. -/
def xxhashUpdate (state : State) (data : Bytes) : State :=
  let result := update 32 stripe (state.lanes, state.buf) data
  { state with
    lanes := result.1
    totalLen := state.totalLen + UInt64.ofNat data.length
    buf := result.2 }

/-- The accumulators mixed. -/
def converge (v : Lanes) : UInt64 :=
  let h64 := rotl v.v1 1 + rotl v.v2 7 + rotl v.v3 12 + rotl v.v4 18
  xxhMergeRound (xxhMergeRound (xxhMergeRound (xxhMergeRound h64 v.v1) v.v2) v.v3) v.v4

/-- One turn of the loop over words of eight bytes. -/
def tail8 (h64 : UInt64) (p : Bytes) : UInt64 :=
  rotl (h64 ^^^ xxhRound 0 (load 8 p)) 27 * prime1 + prime4

def tail4 (h64 : UInt64) (p : Bytes) : UInt64 :=
  rotl (h64 ^^^ load 4 p * prime1) 23 * prime2 + prime3

def tail1 (h64 : UInt64) (b : UInt8) : UInt64 :=
  rotl (h64 ^^^ b.toUInt64 * prime5) 11 * prime1

/-- The three stages of the end. -/
def tail (h64 : UInt64) (p : Bytes) : UInt64 :=
  let (h64, p) := run 8 0 tail8 h64 p
  let (h64, p) := if 4 ≤ p.length then (tail4 h64 p, p.drop 4) else (h64, p)
  p.foldl tail1 h64

/-- The avalanche. -/
def avalanche (h64 : UInt64) : UInt64 :=
  let h64 := h64 ^^^ h64 >>> 33
  let h64 := h64 * prime2
  let h64 := h64 ^^^ h64 >>> 29
  let h64 := h64 * prime3
  h64 ^^^ h64 >>> 32

/-- `buckets_xxhash_final`. -/
def xxhashFinal (state : State) : UInt64 :=
  let h64 := if 32 ≤ state.totalLen then converge state.lanes else state.seed + prime5
  avalanche (tail (h64 + state.totalLen) state.buf)

/-- `buckets_xxhash64`. -/
def xxhash64 (seed : UInt64) (data : Bytes) : UInt64 :=
  xxhashFinal (xxhashUpdate (xxhashInit seed) data)

/-! ## 2. The published algorithm -/

/-- A lane of eight bytes into an accumulator. -/
def publishedRound (acc lane : UInt64) : UInt64 := rotateLeft (acc + lane * prime2) 31 * prime1

def mergeAccumulator (acc accN : UInt64) : UInt64 :=
  (acc ^^^ publishedRound 0 accN) * prime1 + prime4

/-- Stripe `i` of the input: lane `j` is in its eight bytes from `32 i + 8 j` on. -/
def publishedStripe (input : Bytes) (v : Lanes) (i : ℕ) : Lanes :=
  let lane (j : ℕ) : UInt64 := word ((input.drop (32 * i + 8 * j)).take 8)
  ⟨publishedRound v.v1 (lane 0), publishedRound v.v2 (lane 1), publishedRound v.v3 (lane 2),
    publishedRound v.v4 (lane 3)⟩

/-- Steps 1 to 3: the accumulators, the stripes and the convergence, or the short way. -/
def publishedStripes (seed : UInt64) (input : Bytes) : UInt64 :=
  if input.length < 32 then seed + prime5
  else
    let v : Lanes := ⟨seed + prime1 + prime2, seed + prime2, seed, seed - prime1⟩
    let v := (List.range (input.length / 32)).foldl (publishedStripe input) v
    let acc := rotateLeft v.v1 1 + rotateLeft v.v2 7 + rotateLeft v.v3 12 + rotateLeft v.v4 18
    mergeAccumulator (mergeAccumulator (mergeAccumulator (mergeAccumulator acc v.v1) v.v2)
      v.v3) v.v4

/-- Step 5: what is left, in words, half words and bytes. -/
def publishedTail (acc : UInt64) (rest : Bytes) : UInt64 :=
  let acc := (List.range (rest.length / 8)).foldl (fun acc i =>
    rotateLeft (acc ^^^ publishedRound 0 (word ((rest.drop (8 * i)).take 8))) 27 * prime1 +
      prime4) acc
  let rest := rest.drop (8 * (rest.length / 8))
  let half := 4 ≤ rest.length
  let acc :=
    if half then rotateLeft (acc ^^^ word (rest.take 4) * prime1) 23 * prime2 + prime3 else acc
  let rest := if half then rest.drop 4 else rest
  rest.foldl (fun acc b => rotateLeft (acc ^^^ b.toUInt64 * prime5) 11 * prime1) acc

/-- **XXH64.** -/
def xxh64 (seed : UInt64) (input : Bytes) : UInt64 :=
  let acc := publishedStripes seed input + UInt64.ofNat input.length
  avalanche (publishedTail acc (input.drop (32 * (input.length / 32))))

/-- Two values that are often quoted: of nothing, and of a text longer than a stripe. -/
example : xxh64 0 [] = 0xEF46DB3751D8E999 := by decide +kernel

example : xxh64 0 (cstr "The quick brown fox jumps over the lazy dog") = 0x0B242D361FDA71BC := by
  decide +kernel

/-! ## 3. The code computes it -/

theorem xxhRound_eq (acc input : UInt64) : xxhRound acc input = publishedRound acc input := by
  rw [xxhRound, publishedRound, rotl_eq _ (by decide) (by decide)]

theorem xxhMergeRound_eq (acc val : UInt64) : xxhMergeRound acc val = mergeAccumulator acc val := by
  rw [xxhMergeRound, mergeAccumulator, xxhRound_eq]

/-- Eight bytes of a stripe are eight bytes of the input. -/
theorem take_drop_block (input : Bytes) (i : ℕ) {k : ℕ} (h : k + 8 ≤ 32) :
    ((block 32 input i).drop k).take 8 = (input.drop (32 * i + k)).take 8 := by
  rw [block, List.drop_take, List.drop_drop, List.take_take, Nat.min_eq_left (by omega),
    Nat.mul_comm]

/-- **A stripe.** -/
theorem stripe_eq (input : Bytes) (v : Lanes) (i : ℕ) :
    stripe v (block 32 input i) = publishedStripe input v i := by
  have hlane : ∀ {k : ℕ}, k + 8 ≤ 32 →
      load 8 ((block 32 input i).drop k) = word ((input.drop (32 * i + k)).take 8) := by
    intro k h
    rw [load_eq_word (by decide), take_drop_block input i h]
  have hfirst := hlane (show 0 + 8 ≤ 32 by decide)
  rw [List.drop_zero] at hfirst
  simp only [stripe, publishedStripe, xxhRound_eq, hfirst, hlane (show 8 + 8 ≤ 32 by decide),
    hlane (show 16 + 8 ≤ 32 by decide), hlane (show 24 + 8 ≤ 32 by decide), Nat.mul_zero,
    Nat.mul_one, Nat.reduceMul]

theorem converge_eq (v : Lanes) : converge v =
    mergeAccumulator (mergeAccumulator (mergeAccumulator (mergeAccumulator
      (rotateLeft v.v1 1 + rotateLeft v.v2 7 + rotateLeft v.v3 12 + rotateLeft v.v4 18)
        v.v1) v.v2) v.v3) v.v4 := by
  rw [converge]
  simp only [xxhMergeRound_eq, rotl_eq _ (show 0 < 1 by decide) (by decide),
    rotl_eq _ (show 0 < 7 by decide) (by decide), rotl_eq _ (show 0 < 12 by decide) (by decide),
    rotl_eq _ (show 0 < 18 by decide) (by decide)]

theorem tail8_eq (h64 : UInt64) (rest : Bytes) (i : ℕ) :
    tail8 h64 (block 8 rest i) =
      rotateLeft (h64 ^^^ publishedRound 0 (word ((rest.drop (8 * i)).take 8))) 27 * prime1 +
        prime4 := by
  rw [tail8, xxhRound_eq, rotl_eq _ (by decide) (by decide), load_eq_word (by decide), block,
    List.take_take, Nat.min_self, Nat.mul_comm i]

theorem tail4_eq (h64 : UInt64) (p : Bytes) :
    tail4 h64 p = rotateLeft (h64 ^^^ word (p.take 4) * prime1) 23 * prime2 + prime3 := by
  rw [tail4, rotl_eq _ (by decide) (by decide), load_eq_word (by decide)]

theorem tail1_eq (h64 : UInt64) (b : UInt8) :
    tail1 h64 b = rotateLeft (h64 ^^^ b.toUInt64 * prime5) 11 * prime1 := by
  rw [tail1, rotl_eq _ (by decide) (by decide)]

/-- **The end of the message.** -/
theorem tail_eq (h64 : UInt64) (rest : Bytes) : tail h64 rest = publishedTail h64 rest := by
  have hbyte : tail1 = fun acc b => rotateLeft (acc ^^^ b.toUInt64 * prime5) 11 * prime1 := by
    funext acc b
    exact tail1_eq acc b
  unfold tail publishedTail
  rw [run_eq (by decide), Nat.sub_zero, Nat.mul_comm (rest.length / 8), hbyte]
  simp only [tail8_eq, tail4_eq]
  split
  · rfl
  · rfl

/-- What pieces leave in the state. -/
theorem updates_state (state : State) (chunks : List Bytes) :
    chunks.foldl xxhashUpdate state =
      { lanes := (chunks.foldl (update 32 stripe) (state.lanes, state.buf)).1
        totalLen := state.totalLen + UInt64.ofNat chunks.flatten.length
        seed := state.seed
        buf := (chunks.foldl (update 32 stripe) (state.lanes, state.buf)).2 } := by
  induction chunks generalizing state with
  | nil => simp
  | cons chunk chunks ih =>
    rw [List.foldl_cons, ih, List.flatten_cons, List.length_append, UInt64.ofNat_add,
      List.foldl_cons]
    simp only [xxhashUpdate, UInt64.add_assoc]

/-- A length that fits is compared as it is. -/
theorem le_ofNat_iff {n : ℕ} (h : n < 2 ^ 64) : 32 ≤ UInt64.ofNat n ↔ 32 ≤ n := by
  rw [UInt64.le_iff_toNat_le, UInt64.toNat_ofNat', Nat.mod_eq_of_lt h]
  rfl

theorem final_eq (seed : UInt64) {input : Bytes} (h : input.length < 2 ^ 64) :
    xxhashFinal
        { lanes := (run 32 0 stripe (xxhashInit seed).lanes input).1
          totalLen := UInt64.ofNat input.length
          seed := seed
          buf := (run 32 0 stripe (xxhashInit seed).lanes input).2 } = xxh64 seed input := by
  have hstripes : (if 32 ≤ UInt64.ofNat input.length then
      converge (run 32 0 stripe (xxhashInit seed).lanes input).1 else seed + prime5) =
      publishedStripes seed input := by
    rw [publishedStripes]
    by_cases hshort : input.length < 32
    · rw [if_neg (by rw [le_ofNat_iff h]; omega), if_pos hshort]
    · rw [if_pos (by rw [le_ofNat_iff h]; omega), if_neg hshort, converge_eq, run_eq (by decide),
        Nat.sub_zero]
      simp only [stripe_eq]
      rfl
  rw [xxhashFinal, xxh64]
  dsimp only
  rw [hstripes, tail_eq, run_eq (by decide), Nat.sub_zero, Nat.mul_comm (input.length / 32)]

/-- **Every way of cutting a message gives its XXH64**: for every seed and every list of pieces,
empty ones among them, the updates and the final give the published value of the whole, and so does
the call with the whole at once.  The whole is a byte string of the program: its length is a
`size_t`. -/
theorem xxhash_pieces (seed : UInt64) {chunks : List Bytes} (h : chunks.flatten.length < 2 ^ 64) :
    xxhashFinal (chunks.foldl xxhashUpdate (xxhashInit seed)) = xxh64 seed chunks.flatten ∧
      xxhash64 seed chunks.flatten = xxh64 seed chunks.flatten := by
  have hpieces : ∀ chunks : List Bytes, chunks.flatten.length < 2 ^ 64 →
      xxhashFinal (chunks.foldl xxhashUpdate (xxhashInit seed)) = xxh64 seed chunks.flatten := by
    intro chunks h
    have hrun := @updates_eq _ _ 32 stripe (by decide) (xxhashInit seed).lanes chunks
    have hbuf : (xxhashInit seed).buf = [] := rfl
    have htotal : (xxhashInit seed).totalLen = 0 := rfl
    rw [updates_state, hbuf, htotal, hrun, UInt64.zero_add]
    exact final_eq seed h
  refine ⟨hpieces chunks h, ?_⟩
  have hwhole := hpieces [chunks.flatten] (by rwa [List.flatten_singleton])
  rwa [List.foldl_cons, List.foldl_nil, List.flatten_singleton] at hwhole

/-- Forty bytes in three pieces, the middle one empty. -/
theorem xxhash_pieces_forty :
    xxhashFinal ([List.replicate 33 7, [], List.replicate 7 9].foldl xxhashUpdate (xxhashInit 5)) =
        xxh64 5 [List.replicate 33 7, [], List.replicate 7 9].flatten ∧
      xxhash64 5 [List.replicate 33 7, [], List.replicate 7 9].flatten =
        xxh64 5 [List.replicate 33 7, [], List.replicate 7 9].flatten :=
  xxhash_pieces 5 (by decide)

end Buckets.Xxhash
