/-
# `net/conn_pool.c`, `storage/binary_transport.c`: reading the response of a peer

`buckets_conn_send_request` and `buckets_binary_read_chunk` receive into a header buffer until the
end of the headers is in it, allocate what `Content-Length` announces, copy the bytes of the body
that came with the headers, and receive the rest.  A peer sends a STREAM of bytes, and `recv`
returns it in pieces: a `cuts` says for each call how much has come, or that the call fails.

A buffer records whether something was written outside of it.  Neither function compares what came
with the headers with what is announced before it copies, and only one of them looks at the end of
the stream:

* `readChunk_sound_iff`: the chunk reader is sound in every fragmentation if no prefix of the stream
  that fits the header buffer has MORE of the body than is announced;
* `connSendRequest_sound_iff`: the other one needs an announcement, a stream that is not SHORTER,
  and a number to which one can be added.
-/
import Buckets.BinaryTransport

namespace Buckets
namespace ResponseReaders

open CStr Strtoull

/-! ## 1. The two readers -/

/-- An allocated piece of memory: what was written, and whether a write went outside. -/
structure Buffer where
  size : ℕ
  bytes : Bytes
  outside : Bool

/-- `bytes` more, after those that are there. -/
def Buffer.write (b : Buffer) (got : Bytes) : Buffer :=
  { b with
    bytes := b.bytes ++ got
    outside := b.outside || decide (b.size < b.bytes.length + got.length) }

/-- The terminator, after the bytes that are there. -/
def Buffer.terminate (b : Buffer) : Buffer :=
  { b with outside := b.outside || decide (b.size ≤ b.bytes.length) }

/-- For each `recv`: it fails, or at most `k + 1` bytes have come. -/
abbrev Cuts := List (Option ℕ)

/-- Where the body starts in the header buffer. -/
def bodyStart (buf : Bytes) : Option ℕ :=
  (strstr (cstr "\r\n\r\n") (text buf)).map fun headersEnd =>
    (text buf).length - headersEnd.length + 4

/-- `%zu` of `sscanf`. -/
def scanSize (s : CString) : Option ℕ :=
  if digits 10 (sign (s.dropWhile isSpace)).2 = [] then none else some (strtoull 10 s)

/-- The number after a header's name and colon. -/
def numberAfter (name : CString) (buf : Bytes) : Option ℕ := (after name (text buf)).bind scanSize

/-- `Content-Length` as `buckets_binary_read_chunk` looks for it. -/
def chunkLength (buf : Bytes) : Option ℕ :=
  if (strstr (cstr "Content-Length:") (text buf)).isSome then
    numberAfter (cstr "Content-Length:") buf
  else numberAfter (cstr "content-length:") buf

/-- `Content-Length` as `buckets_conn_send_request` looks for it. -/
def connLength (buf : Bytes) : Option ℕ := numberAfter (cstr "Content-Length:") buf

/-- The loop over `recv` until the headers are there, while less than `stop` bytes are; what is left
of the stream, if they are. -/
def receiveHead (stop : ℕ) : Cuts → Bytes → Buffer → Buffer × Option (Bytes × Cuts)
  | [], _, b => (b, none)
  | none :: _, _, b => (b, none)
  | some k :: cuts, stream, b =>
    if b.bytes.length < stop then
      let n := min (k + 1) (b.size - b.bytes.length - 1)
      if stream.take n = [] then (b, none)
      else
        let b := (b.write (stream.take n)).terminate
        if (bodyStart b.bytes).isSome then (b, some (stream.drop n, cuts))
        else receiveHead stop cuts (stream.drop n) b
    else (b, none)

/-- How the loop over `recv` for the rest of the body ends. -/
inductive RestEnd where
  | complete
  | closed
  | failed
  deriving DecidableEq

def receiveRest : Cuts → ℕ → Bytes → Buffer → Buffer × RestEnd
  | _, 0, _, b => (b, .complete)
  | [], _ + 1, _, b => (b, .failed)
  | none :: _, _ + 1, _, b => (b, .failed)
  | some k :: cuts, remaining + 1, stream, b =>
    let n := min (k + 1) (remaining + 1)
    if stream.take n = [] then (b, .closed)
    else receiveRest cuts (remaining + 1 - (stream.take n).length) (stream.drop n)
      (b.write (stream.take n))

inductive ReadResult where
  /-- `buckets_malloc` found no memory. -/
  | aborted
  /-- `BUCKETS_ERR_IO`. -/
  | error
  /-- `BUCKETS_OK`, with the body if the caller wants one. -/
  | ok (body : Option Bytes)
  deriving DecidableEq

/-- What a reader did: a write outside of a buffer, a counter that wrapped, the status and the
length it read in the headers, and what it returns. -/
structure Report where
  outside : Bool
  wrapped : Bool
  status : Option ℤ
  announced : Option ℕ
  result : ReadResult
  deriving DecidableEq

/-- The bytes of the body that came with the headers. -/
def bodyInBuffer (head : Bytes) : Bytes := head.drop ((bodyStart head).getD 0)

/-- `buckets_binary_read_chunk` after the headers; `alloc` says for which sizes there is memory. -/
def readChunkBody (alloc : ℕ → Bool) (head : Buffer) (cuts : Cuts) (stream : Bytes) : Report :=
  let status := parseStatus (text head.bytes)
  let announced := chunkLength head.bytes
  let contentLength := announced.getD 0
  if status = some 200 ∧ contentLength ≠ 0 then
    if alloc contentLength then
      let body := bodyInBuffer head.bytes
      let data := (Buffer.mk contentLength [] head.outside).write body
      let remaining := (contentLength + 2 ^ 64 - body.length) % 2 ^ 64
      let received := receiveRest cuts remaining stream data
      ⟨received.1.outside, decide (contentLength < body.length), status, announced,
        if received.2 = .complete then .ok (some received.1.bytes) else .error⟩
    else ⟨head.outside, false, status, announced, .aborted⟩
  else ⟨head.outside, false, status, announced, .error⟩

/-- `buckets_binary_read_chunk`, after the request is sent. -/
def readChunk (alloc : ℕ → Bool) (cuts : Cuts) (stream : Bytes) : Report :=
  match receiveHead 4095 cuts stream ⟨4096, [], false⟩ with
  | (head, none) => ⟨head.outside, false, none, none, .error⟩
  | (head, some (stream, cuts)) => readChunkBody alloc head cuts stream

/-- `buckets_conn_send_request` after the headers. -/
def connSendRequestBody (alloc : ℕ → Bool) (wantsBody : Bool) (head : Buffer) (cuts : Cuts)
    (stream : Bytes) : Report :=
  let status := some (((strstr (cstr "HTTP/1.") (text head.bytes)).bind parseStatus).getD 0)
  let announced := connLength head.bytes
  let contentLength := announced.getD 0
  let body := bodyInBuffer head.bytes
  if wantsBody then
    if 0 < contentLength then
      let size := (contentLength + 1) % 2 ^ 64
      if alloc size then
        let data := (Buffer.mk size [] head.outside).write body
        -- The loop runs while less than `content_length` bytes are there.
        let received := receiveRest cuts (contentLength - body.length) stream data
        if received.2 = .failed then ⟨received.1.outside, false, status, announced, .error⟩
        else ⟨received.1.terminate.outside, false, status, announced, .ok (some received.1.bytes)⟩
      else ⟨head.outside, false, status, announced, .aborted⟩
    else if alloc (body.length + 1) then
      let data := ((Buffer.mk (body.length + 1) [] head.outside).write body).terminate
      ⟨data.outside, false, status, announced, .ok (some data.bytes)⟩
    else ⟨head.outside, false, status, announced, .aborted⟩
  else ⟨head.outside, false, status, announced, .ok none⟩

/-- `buckets_conn_send_request`, after the request is sent. -/
def connSendRequest (alloc : ℕ → Bool) (wantsBody : Bool) (cuts : Cuts) (stream : Bytes) : Report :=
  match receiveHead (8192 - 256) cuts stream ⟨8192, [], false⟩ with
  | (head, none) => ⟨head.outside, false, none, none, .error⟩
  | (head, some (stream, cuts)) => connSendRequestBody alloc wantsBody head cuts stream

/-- No write outside, no counter that wraps, and a body only with as many bytes as were
announced. -/
structure Report.Sound (r : Report) : Prop where
  inside : r.outside = false
  counted : r.wrapped = false
  exact : ∀ body, r.result = .ok (some body) → r.announced = some body.length

/-! ## 2. The loops -/

section Loops

variable {stop : ℕ} {cuts cuts' : Cuts} {stream rest : Bytes} {b b' : Buffer}

theorem write_of_le {got : Bytes} (h : b.bytes.length + got.length ≤ b.size) :
    b.write got = { b with bytes := b.bytes ++ got } := by
  simp [Buffer.write, h]

theorem terminate_of_lt (h : b.bytes.length < b.size) : b.terminate = b := by
  have hd : decide (b.size ≤ b.bytes.length) = false := decide_eq_false (by omega)
  rw [Buffer.terminate, hd, Bool.or_false]

/-- One `recv` into the header buffer stays inside, with the terminator. -/
theorem write_head {n : ℕ} (hb : b.bytes.length < b.size) (hn : n ≤ b.size - b.bytes.length - 1) :
    (b.write (stream.take n)).terminate = { b with bytes := b.bytes ++ stream.take n } := by
  have hl : (stream.take n).length ≤ n := List.length_take_le ..
  rw [write_of_le (by omega), terminate_of_lt]
  simp only [List.length_append]
  omega

/-- The header buffer is never left; if the headers are found, it has a prefix of the stream. -/
theorem receiveHead_spec (stop : ℕ) (cuts : Cuts) (stream : Bytes) (hb : b.bytes.length < b.size) :
    (receiveHead stop cuts stream b).1.outside = b.outside ∧
      ∀ rest cuts', (receiveHead stop cuts stream b).2 = some (rest, cuts') →
        (receiveHead stop cuts stream b).1.bytes ++ rest = b.bytes ++ stream ∧
          (receiveHead stop cuts stream b).1.bytes.length < b.size ∧
          (bodyStart (receiveHead stop cuts stream b).1.bytes).isSome = true := by
  fun_induction receiveHead stop cuts stream b with
  | case1 => simp
  | case2 => simp
  | case3 k cuts stream b hlt n hne => simp
  | case4 k cuts stream b hlt n hne b₁ he =>
    have h1 : b₁ = { b with bytes := b.bytes ++ stream.take n } :=
      write_head hb (Nat.min_le_right ..)
    have hl : (stream.take n).length ≤ n := List.length_take_le ..
    refine ⟨by rw [h1], ?_⟩
    rintro rest cuts' heq
    simp only [Option.some.injEq, Prod.mk.injEq] at heq
    obtain ⟨rfl, rfl⟩ := heq
    refine ⟨by simp [h1], ?_, he⟩
    simp only [h1, List.length_append]
    omega
  | case5 k cuts stream b hlt n hne b₁ he ih =>
    have h1 : b₁ = { b with bytes := b.bytes ++ stream.take n } :=
      write_head hb (Nat.min_le_right ..)
    have hl : (stream.take n).length ≤ n := List.length_take_le ..
    have hb₁ : b₁.bytes.length < b₁.size := by
      simp only [h1, List.length_append]
      omega
    obtain ⟨ho, hr⟩ := ih hb₁
    have h2 : b₁.bytes ++ stream.drop n = b.bytes ++ stream := by simp [h1]
    refine ⟨ho.trans (by rw [h1]), fun rest cuts' heq => ?_⟩
    obtain ⟨h3, h4, h5⟩ := hr rest cuts' heq
    exact ⟨h3.trans h2, by simpa [h1] using h4, h5⟩
  | case6 => simp

theorem receiveHead_found {size : ℕ} (h0 : 0 < size)
    (h : receiveHead stop cuts stream ⟨size, [], false⟩ = (b, some (rest, cuts'))) :
    b.outside = false ∧ ∃ m < size, (bodyStart (stream.take m)).isSome = true ∧
      b.bytes = stream.take m ∧ rest = stream.drop m := by
  obtain ⟨ho, hr⟩ := receiveHead_spec stop cuts stream (b := ⟨size, [], false⟩) h0
  rw [h] at ho hr
  obtain ⟨h1, h2, h3⟩ := hr rest cuts' rfl
  have h4 : stream.take b.bytes.length = b.bytes := by
    rw [← List.nil_append stream, ← h1, List.take_left']
    rfl
  have h5 : stream.drop b.bytes.length = rest := by
    rw [← List.nil_append stream, ← h1, List.drop_left']
    rfl
  exact ⟨ho, b.bytes.length, h2, by rw [h4]; exact h3, h4.symm, h5.symm⟩

theorem receiveHead_failed {size : ℕ} (h0 : 0 < size)
    (h : receiveHead stop cuts stream ⟨size, [], false⟩ = (b, none)) : b.outside = false := by
  obtain ⟨ho, -⟩ := receiveHead_spec stop cuts stream (b := ⟨size, [], false⟩) h0
  rw [h] at ho
  exact ho

/-- Any prefix with the headers in it may be what the first `recv` brings. -/
theorem receiveHead_once {size m : ℕ} (hs : 0 < stop) (hm : m < size)
    (h : (bodyStart (stream.take m)).isSome = true) (cuts : Cuts) :
    receiveHead stop (some (m - 1) :: cuts) stream ⟨size, [], false⟩ =
      (⟨size, stream.take m, false⟩, some (stream.drop m, cuts)) := by
  have hne : stream.take m ≠ [] := by
    intro h0
    rw [h0] at h
    exact absurd h (by decide)
  have h0 : m ≠ 0 := by
    rintro rfl
    exact hne rfl
  have hn : min (m - 1 + 1) (size - 0 - 1) = m := by omega
  have hw : ((Buffer.mk size [] false).write (stream.take m)).terminate =
      ⟨size, stream.take m, false⟩ :=
    write_head (b := ⟨size, [], false⟩) (by simp; omega) (by simp; omega)
  simp only [receiveHead, List.length_nil, hs, if_true, hn, if_neg hne, hw, h]

theorem write_outside {got : Bytes} (h : b.outside = true) : (b.write got).outside = true := by
  simp [Buffer.write, h]

theorem receiveRest_outside (n : ℕ) (h : b.outside = true) :
    (receiveRest cuts n stream b).1.outside = true := by
  fun_induction receiveRest cuts n stream b <;> simp_all [write_outside]

/-- The rest of the body: nothing outside if there is room for it, all of it if the loop is
complete, and too short a stream if that was closed. -/
theorem receiveRest_spec (cuts : Cuts) (n : ℕ) (stream : Bytes) (hb : b.bytes.length + n ≤ b.size) :
    (receiveRest cuts n stream b).1.outside = b.outside ∧
    (receiveRest cuts n stream b).1.size = b.size ∧
      (receiveRest cuts n stream b).1.bytes.length ≤ b.bytes.length + n ∧
      ((receiveRest cuts n stream b).2 = .complete →
        (receiveRest cuts n stream b).1.bytes.length = b.bytes.length + n) ∧
      ((receiveRest cuts n stream b).2 = .closed → stream.length < n) := by
  fun_induction receiveRest cuts n stream b with
  | case1 => simp
  | case2 => simp
  | case3 => simp
  | case4 k cuts r stream b n hne =>
    have h0 : stream = [] := by
      rcases List.take_eq_nil_iff.mp hne with h0 | h0
      · omega
      · exact h0
    simp [h0]
  | case5 k cuts r stream b n hne ih =>
    have hl : (stream.take n).length = min n stream.length := List.length_take ..
    have hn : n ≤ r + 1 := Nat.min_le_right ..
    rw [write_of_le (by omega)] at ih ⊢
    obtain ⟨ho, hs, hle, hc, hcl⟩ := ih (by simp only [List.length_append]; omega)
    simp only [List.length_append] at hle hc
    refine ⟨ho, hs, by omega, fun he => ?_, fun he => ?_⟩
    · have h1 := hc he
      omega
    · have h1 := hcl he
      rw [List.length_drop] at h1
      omega

/-- A peer whose bytes are there at once. -/
def atOnce : Cuts := [some (2 ^ 64), some (2 ^ 64)]

theorem receiveRest_atOnce {n : ℕ} (stream : Bytes) (hn : n < 2 ^ 64) :
    (receiveRest atOnce n stream b).2 ≠ .failed ∧ (receiveRest atOnce n stream b).1.size = b.size ∧
      (receiveRest atOnce n stream b).1.bytes = b.bytes ++ stream.take n := by
  cases n with
  | zero => simp [receiveRest]
  | succ n =>
    have hm : min (2 ^ 64 + 1) (n + 1) = n + 1 := by omega
    rw [atOnce, receiveRest]
    simp only [hm, Nat.succ_ne_zero, List.take_eq_nil_iff, false_or]
    split
    · rename_i h0
      simp [h0]
    · by_cases hle : n + 1 ≤ stream.length
      · simp [List.length_take, hle, receiveRest, Buffer.write]
      · have h1 : n + 1 - (stream.take (n + 1)).length = n - stream.length + 1 := by
          rw [List.length_take]
          omega
        have h2 : stream.drop (n + 1) = [] := List.drop_eq_nil_of_le (by omega)
        rw [h1, h2, receiveRest]
        simp [Buffer.write]

end Loops

/-! ## 3. What the stream has to be -/

theorem strtoull_lt (s : CString) : strtoull 10 s < 2 ^ 64 := by
  unfold strtoull
  simp only [Nat.reduceEqDiff, if_false]
  split
  · omega
  · split
    · exact Nat.mod_lt _ (by norm_num)
    · omega

theorem numberAfter_lt {name : CString} {buf : Bytes} {n : ℕ} (h : numberAfter name buf = some n) :
    n < 2 ^ 64 := by
  obtain ⟨s, -, h⟩ := Option.bind_eq_some_iff.mp h
  rw [scanSize] at h
  split at h
  · simp at h
  · rw [← Option.some.inj h]
    exact strtoull_lt s

theorem chunkLength_lt {buf : Bytes} {n : ℕ} (h : chunkLength buf = some n) : n < 2 ^ 64 := by
  rw [chunkLength] at h
  split at h
  · exact numberAfter_lt h
  · exact numberAfter_lt h

section Readers

variable {alloc : ℕ → Bool} {stream : Bytes} {cuts : Cuts} {head : Buffer}

/-- What came with the headers of a chunk is no more than is announced. -/
def ChunkFits (alloc : ℕ → Bool) (head : Bytes) : Prop :=
  parseStatus (text head) = some 200 → ∀ n, chunkLength head = some n → n ≠ 0 → alloc n = true →
    (bodyInBuffer head).length ≤ n

theorem readChunkBody_sound (ho : head.outside = false) (h : ChunkFits alloc head.bytes) :
    (readChunkBody alloc head cuts stream).Sound := by
  unfold readChunkBody
  dsimp only
  split
  · rename_i hs
    obtain ⟨h200, hn⟩ := hs
    split
    · rename_i ha
      cases hc : chunkLength head.bytes with
      | none => simp [hc] at hn
      | some n =>
        rw [hc, Option.getD_some] at hn ha
        have hle := h h200 n hc hn ha
        have hlt := chunkLength_lt hc
        have hr : (n + 2 ^ 64 - (bodyInBuffer head.bytes).length) % 2 ^ 64 =
            n - (bodyInBuffer head.bytes).length := by omega
        simp only [Option.getD_some, hr]
        rw [write_of_le (by simpa using hle)]
        obtain ⟨h1, -, -, h2, -⟩ := receiveRest_spec cuts
          (n - (bodyInBuffer head.bytes).length) stream
          (b := ⟨n, [] ++ bodyInBuffer head.bytes, head.outside⟩) (by simp; omega)
        refine ⟨h1.trans ho, by simpa using hle, fun body hb => ?_⟩
        split at hb
        · rename_i hcomplete
          have h3 := h2 hcomplete
          simp only [ReadResult.ok.injEq, Option.some.injEq] at hb
          subst hb
          simp only [List.nil_append] at h3 ⊢
          rw [h3, Nat.add_sub_cancel' hle]
        · simp at hb
    · exact ⟨ho, rfl, by simp⟩
  · exact ⟨ho, rfl, by simp⟩

theorem readChunkBody_outside (h : ¬ ChunkFits alloc head.bytes) :
    (readChunkBody alloc head cuts stream).outside = true := by
  simp only [ChunkFits, Classical.not_imp, not_forall, not_le] at h
  obtain ⟨h200, n, hc, hn, ha, hlt⟩ := h
  simp only [readChunkBody, h200, hc, Option.getD_some, hn, ha, ne_eq, not_false_eq_true, and_self,
    if_true]
  refine receiveRest_outside _ ?_
  simp [Buffer.write, hlt]

/-- **The chunk reader**, in every fragmentation: it is sound if and only if no prefix of the stream
that the header buffer can take has the headers and more of the body than they announce. -/
theorem readChunk_sound_iff : (∀ cuts, (readChunk alloc cuts stream).Sound) ↔
    ∀ m < 4096, (bodyStart (stream.take m)).isSome = true → ChunkFits alloc (stream.take m) := by
  constructor
  · intro h m hm hs
    by_contra hf
    have h1 := (h (some (m - 1) :: [])).inside
    rw [readChunk, receiveHead_once (by norm_num) hm hs] at h1
    simp [@readChunkBody_outside alloc _ _ ⟨4096, stream.take m, false⟩ hf] at h1
  · intro h cuts
    rw [readChunk]
    split
    · rename_i head heq
      exact ⟨receiveHead_failed (by norm_num) heq, rfl, by simp⟩
    · rename_i head rest cuts' heq
      obtain ⟨ho, m, hm, hs, h1, -⟩ := receiveHead_found (by norm_num) heq
      exact readChunkBody_sound ho (h1 ▸ h m hm hs)

/-- The headers announce a length, there is no less of the body in the stream, what came with the
headers is no more, and one can be added to it. -/
def ConnFits (alloc : ℕ → Bool) (head rest : Bytes) : Prop :=
  if 0 < (connLength head).getD 0 then
    ∀ n, connLength head = some n → alloc ((n + 1) % 2 ^ 64) = true →
      n + 1 < 2 ^ 64 ∧ (bodyInBuffer head).length ≤ n ∧ n ≤ (bodyInBuffer head).length + rest.length
  else alloc ((bodyInBuffer head).length + 1) = true →
    connLength head = some 0 ∧ bodyInBuffer head = []

theorem connSendRequestBody_sound {wantsBody : Bool} (ho : head.outside = false)
    (h : ConnFits alloc head.bytes stream) :
    (connSendRequestBody alloc wantsBody head cuts stream).Sound := by
  unfold connSendRequestBody
  dsimp only
  cases wantsBody with
  | false => exact ⟨ho, rfl, by simp⟩
  | true =>
    rw [if_pos rfl]
    rw [ConnFits] at h
    split
    · rename_i hn
      rw [if_pos hn] at h
      cases hc : connLength head.bytes with
      | none => simp [hc] at hn
      | some n =>
        simp only [Option.getD_some]
        split
        · rename_i ha
          obtain ⟨h1, h2, h3⟩ := h n hc ha
          rw [Nat.mod_eq_of_lt h1, write_of_le (by simp; omega)]
          obtain ⟨i1, i2, i3, i4, i5⟩ := receiveRest_spec cuts
            (n - (bodyInBuffer head.bytes).length) stream
            (b := ⟨n + 1, [] ++ bodyInBuffer head.bytes, head.outside⟩) (by simp; omega)
          simp only [List.nil_append] at i1 i2 i3 i4 i5 ⊢
          split
          · exact ⟨i1.trans ho, rfl, by simp⟩
          · rename_i hne
            rw [terminate_of_lt (by rw [i2]; omega)]
            refine ⟨i1.trans ho, rfl, fun body hb => ?_⟩
            simp only [ReadResult.ok.injEq, Option.some.injEq] at hb
            have hcomplete : (receiveRest cuts (n - (bodyInBuffer head.bytes).length) stream
                ⟨n + 1, bodyInBuffer head.bytes, head.outside⟩).2 = .complete := by
              cases he : (receiveRest cuts (n - (bodyInBuffer head.bytes).length) stream
                  ⟨n + 1, bodyInBuffer head.bytes, head.outside⟩).2 with
              | complete => rfl
              | closed =>
                have h4 := i5 he
                omega
              | failed => exact absurd he hne
            rw [← hb, i4 hcomplete, Nat.add_sub_cancel' h2]
        · exact ⟨ho, rfl, by simp⟩
    · rename_i hn
      rw [if_neg hn] at h
      split
      · rename_i ha
        obtain ⟨h1, h2⟩ := h ha
        refine ⟨by simp [h2, Buffer.write, Buffer.terminate, ho], rfl, fun body hb => ?_⟩
        simp only [ReadResult.ok.injEq, Option.some.injEq] at hb
        simp [← hb, h1, h2, Buffer.write, Buffer.terminate]
      · exact ⟨ho, rfl, by simp⟩

/-- If the stream is not as it has to be, it goes wrong when all of it is there at once. -/
theorem connSendRequestBody_unsound (h : ¬ ConnFits alloc head.bytes stream) :
    ¬ (connSendRequestBody alloc true head atOnce stream).Sound := by
  intro hs
  obtain ⟨h1, -, h2⟩ := hs
  rw [ConnFits] at h
  split at h
  · rename_i hn
    simp only [not_forall] at h
    obtain ⟨n, hc, ha, h⟩ := h
    have hlt := numberAfter_lt hc
    simp only [connSendRequestBody, hc, Option.getD_some] at h1 h2 hn
    simp only [if_true, hn, ha] at h1 h2
    obtain ⟨i1, i2, i3⟩ := receiveRest_atOnce (n := n - (bodyInBuffer head.bytes).length)
      stream (b := (Buffer.mk ((n + 1) % 2 ^ 64) [] head.outside).write
        (bodyInBuffer head.bytes)) (by omega)
    rw [if_neg i1] at h1 h2
    have h3 := Option.some.inj (h2 _ rfl)
    simp only [Buffer.terminate, i2, Bool.or_eq_false_iff, decide_eq_false_iff_not, ← h3] at h1
    rw [i3] at h3
    simp only [Buffer.write, List.nil_append, List.length_append, List.length_take] at h1 h3
    omega
  · rename_i hn
    simp only [Classical.not_imp, not_and] at h
    obtain ⟨ha, h⟩ := h
    simp only [connSendRequestBody, if_true, hn, ha, if_false] at h2
    have h3 := h2 _ rfl
    simp only [Buffer.write, Buffer.terminate, List.nil_append] at h3
    rw [h3, Option.getD_some, Nat.pos_iff_ne_zero, not_not, List.length_eq_zero_iff] at hn
    exact h (by rw [h3, hn]; rfl) hn

/-- **The request sender**, in every fragmentation. -/
theorem connSendRequest_sound_iff :
    (∀ wantsBody cuts, (connSendRequest alloc wantsBody cuts stream).Sound) ↔
      ∀ m < 8192, (bodyStart (stream.take m)).isSome = true →
        ConnFits alloc (stream.take m) (stream.drop m) := by
  constructor
  · intro h m hm hs
    by_contra hf
    have h1 := h true (some (m - 1) :: atOnce)
    rw [connSendRequest, receiveHead_once (by norm_num) hm hs] at h1
    exact @connSendRequestBody_unsound alloc _ ⟨8192, stream.take m, false⟩ hf h1
  · intro h wantsBody cuts
    rw [connSendRequest]
    split
    · rename_i head heq
      exact ⟨receiveHead_failed (by norm_num) heq, rfl, by simp⟩
    · rename_i head rest cuts' heq
      obtain ⟨ho, m, hm, hs, h1, h2⟩ := receiveHead_found (by norm_num) heq
      exact connSendRequestBody_sound ho (h1 ▸ h2 ▸ h m hm hs)

end Readers

/-- **Both readers**, for a stream of a peer in every fragmentation. -/
theorem responseReaders_sound_iff (alloc : ℕ → Bool) (stream : Bytes) :
    ((∀ cuts, (readChunk alloc cuts stream).Sound) ↔
      ∀ m < 4096, (bodyStart (stream.take m)).isSome = true → ChunkFits alloc (stream.take m)) ∧
    ((∀ wantsBody cuts, (connSendRequest alloc wantsBody cuts stream).Sound) ↔
      ∀ m < 8192, (bodyStart (stream.take m)).isSome = true →
        ConnFits alloc (stream.take m) (stream.drop m)) :=
  ⟨readChunk_sound_iff, connSendRequest_sound_iff⟩

/-- A response with one byte more than it announces. -/
def oneTooMany : Bytes := cstr "HTTP/1.1 200 OK\r\nContent-Length: 1\r\n\r\nab"

/-- A response that ends before what it announces. -/
def threeTooFew : Bytes := cstr "HTTP/1.1 200 OK\r\nContent-Length: 5\r\n\r\nab"

/-- In one piece, the first is written past the end of both buffers and lets the counter wrap; the
second is returned as a success. -/
theorem responseReaders_unsound :
    ¬ (readChunk (fun _ => true) [some 99] oneTooMany).Sound ∧
      (readChunk (fun _ => true) [some 99] oneTooMany).wrapped = true ∧
      ¬ (connSendRequest (fun _ => true) true [some 99] oneTooMany).Sound ∧
      ¬ (connSendRequest (fun _ => true) true [some 99, some 0] threeTooFew).Sound := by
  refine ⟨fun h => ?_, by decide +kernel, fun h => ?_, fun h => ?_⟩
  · exact absurd h.inside (by decide +kernel)
  · exact absurd h.inside (by decide +kernel)
  · exact absurd (h.exact (cstr "ab") (by decide +kernel)) (by decide +kernel)

end ResponseReaders
end Buckets
