/-
# `storage/batch_transport.c`: a batch of chunks as bytes

`BatchedWrite` has the request of a batch as the chunks it carries.  Here are its BYTES: a record of
1800 bytes before the data of each chunk, sent by `writev` in as many pieces as the socket likes,
and taken apart again by the handler of the other node.

* `flatten_advance`, `Sending.sent`: after each piece the vector of buffers is the part that was not
  sent, so that a loop that ends has sent everything, each byte ONCE;
* `readRecord_cases`: the handler looks at a record only if the body has it, and at data only if the
  body has them.  Sums of offsets and sizes are `size_t`, so they could wrap; they do not, since a
  body is an object in memory and so shorter than `2^63`;
* `batchRecords_batchBody`: what the handler reads from the records of chunks is the chunks.
-/
import Buckets.Lib.CStr
import Buckets.BatchedWrite
import Buckets.Topology

namespace Buckets

open CStr Strtoull

/-! ## 1. The request -/

/-- `htonl`: the low 32 bits, high byte first. -/
def htonl (n : ℕ) : Bytes :=
  [UInt8.ofNat (n / 2 ^ 24), UInt8.ofNat (n / 2 ^ 16), UInt8.ofNat (n / 2 ^ 8), UInt8.ofNat n]

/-- `ntohl`. -/
def ntohl (bytes : Bytes) : ℕ := bytes.foldl (fun n b => n * 256 + b.toNat) 0

/-- A name in a field of the record: `strncpy` of `size - 1` bytes over zeros. -/
def nameField (size : ℕ) (name : CString) : Bytes :=
  charArray size name ++ List.replicate (size - (charArray size name).length) 0

/-- `BATCH_HEADER_SIZE`. -/
def batchHeaderSize : ℕ := 8 + 256 + 1024 + 512

/-- The header of a chunk. -/
def chunkHeader (chunk : BatchChunk) : Bytes :=
  htonl chunk.chunkIndex ++ (htonl chunk.chunkData.length ++ (nameField 256 chunk.bucket ++
    (nameField 1024 chunk.object ++ nameField 512 chunk.diskPath)))

/-- The body of the request. -/
def batchBody (chunks : List BatchChunk) : Bytes :=
  chunks.flatMap fun chunk => chunkHeader chunk ++ chunk.chunkData

/-- What `parse_endpoint` leaves in `host` and `port`. -/
structure BatchPeer where
  host : CString
  port : ℤ
  host_lt : host.length < 256
  port_int : IsInt port

/-- The HTTP headers. -/
def batchHeaders (peer : BatchPeer) (totalBodySize chunkCount : ℕ) : Bytes :=
  cstr "PUT /_internal/batch_chunks HTTP/1.1\r\nHost: " ++ peer.host ++ cstr ":" ++
    printInt peer.port ++
      cstr "\r\nContent-Type: application/x-buckets-batch\r\nContent-Length: " ++
    printDec totalBodySize ++ cstr "\r\nX-Batch-Count: " ++ printDec chunkCount ++
    cstr "\r\nConnection: keep-alive\r\n\r\n"

/-- The buffers of the request: the headers, and for each chunk its header and its data. -/
def batchIov (peer : BatchPeer) (chunks : List BatchChunk) : List Bytes :=
  batchHeaders peer (batchBody chunks).length chunks.length ::
    chunks.flatMap fun chunk => [chunkHeader chunk, chunk.chunkData]

theorem flatten_batchIov (peer : BatchPeer) (chunks : List BatchChunk) :
    (batchIov peer chunks).flatten =
      batchHeaders peer (batchBody chunks).length chunks.length ++ batchBody chunks := by
  rw [batchIov, List.flatten_cons]
  congr 1
  unfold batchBody
  generalize hall : chunks = all
  clear hall
  induction all with
  | nil => rfl
  | cons chunk rest ih =>
    rw [List.flatMap_cons, List.flatten_append, ih, List.flatMap_cons]
    simp

/-! ## 2. Sending it -/

/-- What `writev` returns: how many bytes the socket took, `EINTR`, or another error. -/
inductive WritevOutcome where
  | sent (n : ℕ)
  | interrupted
  | failed

/-- The rest of the buffers after `consumed` bytes. -/
def advance : List Bytes → ℕ → List Bytes
  | [], _ => []
  | entry :: iov, consumed =>
    if consumed = 0 then entry :: iov
    else if entry.length ≤ consumed then [] :: advance iov (consumed - entry.length)
    else entry.drop consumed :: iov

/-- The loop: its buffers, its count, and what the socket took. -/
structure SendState where
  iov : List Bytes
  totalSent : ℕ
  accepted : Bytes

namespace SendState

def start (iov : List Bytes) : SendState := ⟨iov, 0, []⟩

/-- The socket took `n` bytes. -/
def sent (total : ℕ) (s : SendState) (n : ℕ) : SendState where
  iov := if s.totalSent + n < total then advance s.iov n else s.iov
  totalSent := s.totalSent + n
  accepted := s.accepted ++ s.iov.flatten.take n

/-- One `writev`.  No more is taken than is offered; an error ends the function. -/
def step (total : ℕ) (s : SendState) : WritevOutcome → Option SendState
  | .sent n => if 0 < n ∧ n ≤ s.iov.flatten.length then some (s.sent total n) else none
  | .interrupted => some s
  | .failed => none

/-- The loop, with these outcomes. -/
def run (total : ℕ) : SendState → List WritevOutcome → Option SendState
  | s, [] => some s
  | s, outcome :: outcomes =>
    if s.totalSent < total then (s.step total outcome).bind fun s => run total s outcomes else none

end SendState

theorem flatten_advance (iov : List Bytes) (n : ℕ) :
    (advance iov n).flatten = iov.flatten.drop n := by
  induction iov generalizing n with
  | nil => simp [advance]
  | cons entry iov ih =>
    unfold advance
    split
    · rename_i hzero
      rw [hzero, List.drop_zero]
    · split
      · rename_i hle
        rw [List.flatten_cons, List.nil_append, ih, List.flatten_cons, List.drop_append,
          List.drop_of_length_le hle, List.nil_append]
      · rename_i hlt
        rw [List.flatten_cons, List.flatten_cons, List.drop_append,
          Nat.sub_eq_zero_of_le (by omega), List.drop_zero]

/-- What was sent is the beginning of the whole, and the buffers have the rest while the loop goes
on. -/
structure Sending (whole : Bytes) (s : SendState) : Prop where
  count : s.totalSent = s.accepted.length
  start : s.accepted <+: whole
  rest : s.totalSent < whole.length → s.accepted ++ s.iov.flatten = whole

/-- **Step.** -/
theorem Sending.sent {whole : Bytes} {s : SendState} {n : ℕ} (h : Sending whole s)
    (hgoes : s.totalSent < whole.length) (hn : n ≤ s.iov.flatten.length) :
    Sending whole (s.sent whole.length n) := by
  have hsplit : s.accepted ++ s.iov.flatten.take n ++ s.iov.flatten.drop n = whole := by
    rw [List.append_assoc, List.take_append_drop, h.rest hgoes]
  constructor
  · simp only [SendState.sent, List.length_append, List.length_take_of_le hn, h.count]
  · exact ⟨_, hsplit⟩
  · intro hless
    have hless : s.totalSent + n < whole.length := hless
    simp only [SendState.sent, if_pos hless, flatten_advance]
    exact hsplit

/-- **Run.** -/
theorem Sending.run {whole : Bytes} {s s' : SendState} {outcomes : List WritevOutcome}
    (h : Sending whole s) (hrun : s.run whole.length outcomes = some s') : Sending whole s' := by
  induction outcomes generalizing s with
  | nil =>
    obtain rfl := Option.some.inj hrun
    exact h
  | cons outcome outcomes ih =>
    rw [SendState.run] at hrun
    split at hrun
    · rename_i hgoes
      obtain ⟨next, hstep, hrest⟩ := Option.bind_eq_some_iff.mp hrun
      cases outcome with
      | sent n =>
        rw [SendState.step] at hstep
        split at hstep
        · rename_i hn
          obtain rfl := Option.some.inj hstep
          exact ih (h.sent hgoes hn.2) hrest
        · cases hstep
      | interrupted =>
        obtain rfl := Option.some.inj hstep
        exact ih h hrest
      | failed => cases hstep
    · cases hrun

theorem sending_start (iov : List Bytes) : Sending iov.flatten (.start iov) :=
  ⟨rfl, List.nil_prefix, fun _ => rfl⟩

/-- **A loop that ends has sent the request**, each byte once, whatever the pieces; and a piece
leaves less to send. -/
theorem batch_sent (peer : BatchPeer) (chunks : List BatchChunk) {outcomes : List WritevOutcome}
    {s : SendState}
    (hrun : (SendState.start (batchIov peer chunks)).run (batchIov peer chunks).flatten.length
      outcomes = some s) :
    ((batchIov peer chunks).flatten.length ≤ s.totalSent →
      s.accepted = batchHeaders peer (batchBody chunks).length chunks.length ++
        chunks.flatMap fun chunk => chunkHeader chunk ++ chunk.chunkData) ∧
    ∀ n s', s.totalSent < (batchIov peer chunks).flatten.length →
      s.step (batchIov peer chunks).flatten.length (.sent n) = some s' →
        (batchIov peer chunks).flatten.length - s'.totalSent <
            (batchIov peer chunks).flatten.length - s.totalSent ∧
          s'.accepted = s.accepted ++ s.iov.flatten.take n ∧
          s.accepted ++ s.iov.flatten = (batchIov peer chunks).flatten := by
  have hsending := (sending_start (batchIov peer chunks)).run hrun
  constructor
  · intro hdone
    rw [hsending.count] at hdone
    exact (hsending.start.eq_of_length_le hdone).trans (flatten_batchIov peer chunks)
  · intro n s' hgoes hstep
    rw [SendState.step] at hstep
    split at hstep
    · rename_i hn
      obtain rfl := Option.some.inj hstep
      refine ⟨?_, rfl, hsending.rest hgoes⟩
      simp only [SendState.sent]
      omega
    · cases hstep

/-- A request that is sent in two pieces, with an interruption. -/
theorem run_two_pieces {iov : List Bytes} {n : ℕ} (hpos : 0 < n) (hlt : n < iov.flatten.length) :
    ∃ s, (SendState.start iov).run iov.flatten.length
        [.sent n, .interrupted, .sent (iov.flatten.length - n)] = some s ∧
      iov.flatten.length ≤ s.totalSent := by
  have hfirst : (SendState.start iov).step iov.flatten.length (.sent n) =
      some ((SendState.start iov).sent iov.flatten.length n) := if_pos ⟨hpos, hlt.le⟩
  have hsent : ((SendState.start iov).sent iov.flatten.length n).totalSent = n := Nat.zero_add n
  have hiov : ((SendState.start iov).sent iov.flatten.length n).iov = advance iov n :=
    if_pos (by simpa [SendState.start] using hlt)
  generalize (SendState.start iov).sent iov.flatten.length n = s at hfirst hsent hiov
  have hsecond : s.step iov.flatten.length (.sent (iov.flatten.length - n)) =
      some (s.sent iov.flatten.length (iov.flatten.length - n)) := by
    refine if_pos ⟨by omega, ?_⟩
    rw [hiov, flatten_advance, List.length_drop]
  have hgoes : s.totalSent < iov.flatten.length := by rwa [hsent]
  refine ⟨s.sent iov.flatten.length (iov.flatten.length - n), ?_, ?_⟩
  · rw [SendState.run, if_pos (show (SendState.start iov).totalSent < _ from hpos.trans hlt),
      hfirst, Option.bind_some, SendState.run, if_pos hgoes, SendState.step, Option.bind_some,
      SendState.run, if_pos hgoes, hsecond, Option.bind_some, SendState.run]
  · simp only [SendState.sent, hsent]
    omega

def onePeer : BatchPeer := ⟨cstr "b", 9000, by decide, by decide⟩

def oneChunk : BatchChunk := ⟨1, [7], cstr "photos", cstr "1", cstr "/d"⟩

theorem batch_sent_one_chunk : ∃ s : SendState,
    (SendState.start (batchIov onePeer [oneChunk])).run
      (batchIov onePeer [oneChunk]).flatten.length
      [.sent 1, .interrupted, .sent ((batchIov onePeer [oneChunk]).flatten.length - 1)] = some s ∧
    s.accepted = batchHeaders onePeer (batchBody [oneChunk]).length 1 ++
      [oneChunk].flatMap fun chunk => chunkHeader chunk ++ chunk.chunkData := by
  have hlength : 1 < (batchIov onePeer [oneChunk]).flatten.length := by
    simp [batchIov, batchHeaders, cstr]
  obtain ⟨s, hrun, hdone⟩ := run_two_pieces Nat.one_pos hlength
  exact ⟨s, hrun, (batch_sent onePeer [oneChunk] hrun).1 hdone⟩

/-! ## 3. The handler -/

/-- A request body.  It is one object in memory. -/
structure RequestBody where
  bytes : Bytes
  length_lt : bytes.length < 2 ^ 63

/-- The call of `buckets_write_chunk` for a record: where the data are, and what the record
names. -/
structure BatchWrite where
  bucket : CString
  object : CString
  diskPath : CString
  chunkIndex : ℕ
  offset : ℕ
  size : ℕ

/-- The chunk of a call. -/
def BatchWrite.chunk (body : Bytes) (w : BatchWrite) : BatchChunk :=
  ⟨w.chunkIndex, (body.drop w.offset).take w.size, w.bucket, w.object, w.diskPath⟩

/-- Bytes of the body; `none` is a read at or beyond its end. -/
def readAt (body : Bytes) (offset n : ℕ) : Option Bytes :=
  if offset + n ≤ body.length then some ((body.drop offset).take n) else none

/-- The record at an offset, or the answer that ends the request.  Of a name field `strncpy` reads
`size - 1` bytes, or fewer. -/
def readRecord (body : Bytes) (offset : ℕ) : Option (Except CString BatchWrite) :=
  if body.length < (offset + batchHeaderSize) % 2 ^ 64 then
    some (.error (cstr "Truncated chunk header\n"))
  else
    (readAt body offset 4).bind fun index =>
    (readAt body (offset + 4) 4).bind fun size =>
    (readAt body (offset + 8) 255).bind fun bucket =>
    (readAt body (offset + 264) 1023).bind fun object =>
    (readAt body (offset + 1288) 511).bind fun diskPath =>
      let start := (offset + batchHeaderSize) % 2 ^ 64
      if body.length < (start + ntohl size) % 2 ^ 64 then
        some (.error (cstr "Truncated chunk data\n"))
      else some (.ok ⟨text bucket, text object, text diskPath, ntohl index, start, ntohl size⟩)

/-- The calls for the records from an offset on, and the answer if one is cut off. -/
def batchRecords (body : Bytes) : ℕ → ℕ → Option (List BatchWrite × Option CString)
  | 0, _ => some ([], none)
  | count + 1, offset =>
    (readRecord body offset).bind fun record =>
      match record with
      | .error answer => some ([], some answer)
      | .ok w =>
        (batchRecords body count ((w.offset + w.size) % 2 ^ 64)).map fun rest =>
          (w :: rest.1, rest.2)

/-- The answer and the chunk writes of a request. -/
structure BatchAnswer where
  status : ℕ
  text : CString
  writes : List BatchWrite

/-- `buckets_handle_batch_chunk_write`: the count is the text of `X-Batch-Count`, and `written` says
which writes return 0.  (No two writes of a request have the same offset.) -/
def handleBatchRequest (written : BatchWrite → Bool) (countHeader : Option CString) (body : Bytes) :
    Option BatchAnswer :=
  match countHeader with
  | none => some ⟨400, cstr "Missing X-Batch-Count header\n", []⟩
  | some header =>
    let chunkCount := (atoi header % 2 ^ 64).toNat
    if chunkCount = 0 ∨ 32 < chunkCount then some ⟨400, cstr "Invalid chunk count\n", []⟩
    else
      (batchRecords body chunkCount 0).map fun out =>
        match out.2 with
        | some answer => ⟨400, answer, out.1⟩
        | none =>
          if out.1.countP written ≥ chunkCount / 2 + 1 then ⟨200, cstr "OK\n", out.1⟩
          else ⟨500, cstr "Insufficient chunks written\n", out.1⟩

/-! ### No byte beyond the body -/

theorem ntohl_lt (b : Bytes) (hb : b.length ≤ 4) : ntohl b < 2 ^ 32 := by
  have hfold : ∀ (b : Bytes) (n : ℕ),
      b.foldl (fun n b => n * 256 + b.toNat) n < (n + 1) * 256 ^ b.length := by
    intro b
    induction b with
    | nil => intro n; simp
    | cons c b ih =>
      intro n
      have hc := c.toNat_lt
      have hstep : n * 256 + c.toNat + 1 ≤ (n + 1) * 256 := by omega
      refine (ih _).trans_le ?_
      rw [List.length_cons, pow_succ', ← Nat.mul_assoc]
      exact Nat.mul_le_mul_right _ hstep
  have hpow : 256 ^ b.length ≤ 256 ^ 4 := Nat.pow_le_pow_right (by omega) hb
  have hlt := hfold b 0
  rw [Nat.zero_add, Nat.one_mul] at hlt
  exact hlt.trans_le (hpow.trans (by decide))

theorem readAt_of_le {body : Bytes} {offset n : ℕ} (h : offset + n ≤ body.length) :
    readAt body offset n = some ((body.drop offset).take n) := if_pos h

/-- **A record is read only if the body has it**, and its data too. -/
theorem readRecord_cases (body : RequestBody) {offset : ℕ} (hoffset : offset ≤ body.bytes.length) :
    ∃ record, readRecord body.bytes offset = some record ∧
      ∀ w, record = .ok w → w.offset + w.size ≤ body.bytes.length := by
  have hlt := body.length_lt
  have hheader : (offset + batchHeaderSize) % 2 ^ 64 = offset + 1800 :=
    Nat.mod_eq_of_lt (by unfold batchHeaderSize; omega)
  unfold readRecord
  rw [hheader]
  split
  · refine ⟨_, rfl, ?_⟩
    intro w hw
    cases hw
  · rw [readAt_of_le (by omega), readAt_of_le (by omega), readAt_of_le (by omega),
      readAt_of_le (by omega), readAt_of_le (by omega)]
    simp only [Option.bind_some]
    have hsize := ntohl_lt ((body.bytes.drop (offset + 4)).take 4) (List.length_take_le _ _)
    generalize ntohl ((body.bytes.drop (offset + 4)).take 4) = size at hsize ⊢
    have hdata : (offset + 1800 + size) % 2 ^ 64 = offset + 1800 + size :=
      Nat.mod_eq_of_lt (by omega)
    rw [hdata]
    split
    · refine ⟨_, rfl, ?_⟩
      intro w hw
      cases hw
    · refine ⟨_, rfl, ?_⟩
      intro w hw
      obtain rfl := Except.ok.inj hw
      show offset + 1800 + size ≤ body.bytes.length
      omega

theorem batchRecords_within (body : RequestBody) (count : ℕ) {offset : ℕ}
    (hoffset : offset ≤ body.bytes.length) :
    ∃ out, batchRecords body.bytes count offset = some out ∧
      ∀ w ∈ out.1, w.offset + w.size ≤ body.bytes.length := by
  induction count generalizing offset with
  | zero => exact ⟨_, rfl, by simp⟩
  | succ count ih =>
    obtain ⟨record, hrecord, hwithin⟩ := readRecord_cases body hoffset
    rw [batchRecords, hrecord, Option.bind_some]
    cases record with
    | error answer => exact ⟨_, rfl, by simp⟩
    | ok w =>
      have hw := hwithin w rfl
      have hlt := body.length_lt
      have hnext : (w.offset + w.size) % 2 ^ 64 = w.offset + w.size := Nat.mod_eq_of_lt (by omega)
      obtain ⟨rest, hrest, hall⟩ := ih hw
      refine ⟨(w :: rest.1, rest.2), ?_, ?_⟩
      · dsimp only
        rw [hnext, hrest, Option.map_some]
      · intro w' hw'
        obtain rfl | hmem := List.mem_cons.mp hw'
        · exact hw
        · exact hall w' hmem

/-- **The handler stays in the body**, for every body and every announced count: it reads no byte at
or beyond its end, and passes on no range that leaves it. -/
theorem handleBatchRequest_within (written : BatchWrite → Bool) (countHeader : Option CString)
    (body : RequestBody) :
    ∃ answer, handleBatchRequest written countHeader body.bytes = some answer ∧
      ∀ w ∈ answer.writes, w.offset + w.size ≤ body.bytes.length := by
  cases countHeader with
  | none => exact ⟨_, rfl, by simp⟩
  | some header =>
    unfold handleBatchRequest
    dsimp only
    split
    · exact ⟨_, rfl, by simp⟩
    · obtain ⟨out, hout, hwithin⟩ :=
        batchRecords_within body (atoi header % 2 ^ 64).toNat (Nat.zero_le _)
      rw [hout, Option.map_some]
      refine ⟨_, rfl, ?_⟩
      split
      · exact hwithin
      · split
        · exact hwithin
        · exact hwithin

/-! ## 4. What is sent is what is written -/

theorem ntohl_htonl {n : ℕ} (h : n < 2 ^ 32) : ntohl (htonl n) = n := by
  simp only [ntohl, htonl, List.foldl_cons, List.foldl_nil, UInt8.toNat_ofNat']
  omega

theorem length_nameField {size : ℕ} (hsize : 0 < size) (name : CString) :
    (nameField size name).length = size := by
  have hle : (charArray size name).length ≤ size - 1 := List.length_take_le _ _
  simp only [nameField, List.length_append, List.length_replicate]
  omega

theorem length_chunkHeader (chunk : BatchChunk) : (chunkHeader chunk).length = batchHeaderSize := by
  simp [chunkHeader, htonl, length_nameField, batchHeaderSize]

/-- A name that fits is read back. -/
theorem text_nameField {size : ℕ} {name : CString} (hfits : name.length < size)
    (hzero : ∀ c ∈ name, c ≠ 0) : text ((nameField size name).take (size - 1)) = name := by
  have hpad : (nameField size name).take (size - 1) =
      name ++ List.replicate (size - 1 - name.length) 0 := by
    rw [nameField, charArray_of_lt hfits, List.take_append, List.take_of_length_le (by omega),
      List.take_replicate, Nat.min_eq_left (by omega)]
  have htext : ∀ n, text (List.replicate n 0) = [] := by
    intro n
    cases n with
    | zero => rfl
    | succ n => simp [text, List.replicate_succ]
  rw [hpad, text_append hzero, htext, List.append_nil]

theorem readAt_append_right {a x : Bytes} {m k n : ℕ} (ha : a.length = m) :
    readAt (a ++ x) (m + k) n = readAt x k n := by
  subst ha
  simp only [readAt, List.length_append, List.drop_append,
    List.drop_of_length_le (Nat.le_add_right _ _),
    List.nil_append, Nat.add_sub_cancel_left, Nat.add_assoc, Nat.add_le_add_iff_left]

theorem readAt_append_left {a : Bytes} {n : ℕ} (hn : n ≤ a.length) (x : Bytes) :
    readAt (a ++ x) 0 n = some (a.take n) := by
  rw [readAt_of_le (by rw [List.length_append]; omega), List.drop_zero,
    List.take_append_of_le_length hn]

/-- The chunk's names fit their fields, and its size and index their 32 bits. -/
structure BatchChunk.Fits (chunk : BatchChunk) : Prop where
  size : chunk.chunkData.length < 2 ^ 32
  index : chunk.chunkIndex < 2 ^ 32
  bucket : chunk.bucket.length < 256 ∧ ∀ c ∈ chunk.bucket, c ≠ 0
  object : chunk.object.length < 1024 ∧ ∀ c ∈ chunk.object, c ≠ 0
  diskPath : chunk.diskPath.length < 512 ∧ ∀ c ∈ chunk.diskPath, c ≠ 0

/-- The call for the chunk whose record is at an offset. -/
def BatchChunk.write (chunk : BatchChunk) (offset : ℕ) : BatchWrite :=
  ⟨chunk.bucket, chunk.object, chunk.diskPath, chunk.chunkIndex, offset + batchHeaderSize,
    chunk.chunkData.length⟩

/-- **The record of a chunk** is read as the chunk. -/
theorem readRecord_chunk {chunk : BatchChunk} (h : chunk.Fits) {before rest : Bytes}
    (hlt : (before ++ (chunkHeader chunk ++ (chunk.chunkData ++ rest))).length < 2 ^ 63) :
    readRecord (before ++ (chunkHeader chunk ++ (chunk.chunkData ++ rest))) before.length =
      some (.ok (chunk.write before.length)) := by
  have hall : (before ++ (chunkHeader chunk ++ (chunk.chunkData ++ rest))).length =
      before.length + (1800 + (chunk.chunkData.length + rest.length)) := by
    simp [length_chunkHeader, batchHeaderSize]
  have hskip : ∀ k n, readAt (before ++ (chunkHeader chunk ++ (chunk.chunkData ++ rest)))
      (before.length + k) n = readAt (chunkHeader chunk ++ (chunk.chunkData ++ rest)) k n :=
    fun k n => readAt_append_right rfl
  -- the five fields, one behind the other
  generalize hdata : chunk.chunkData ++ rest = data at *
  have hindex : (htonl chunk.chunkIndex).length = 4 := rfl
  have hsize : (htonl chunk.chunkData.length).length = 4 := rfl
  have hbucket := length_nameField (show 0 < 256 by decide) chunk.bucket
  have hobject := length_nameField (show 0 < 1024 by decide) chunk.object
  have hpath := length_nameField (show 0 < 512 by decide) chunk.diskPath
  have h1 : readAt (chunkHeader chunk ++ data) 0 4 = some (htonl chunk.chunkIndex) := by
    rw [chunkHeader, List.append_assoc]
    exact readAt_append_left hindex.ge _
  have h2 : readAt (chunkHeader chunk ++ data) 4 4 = some (htonl chunk.chunkData.length) := by
    simp only [chunkHeader, List.append_assoc]
    exact (readAt_append_right (k := 0) hindex).trans (readAt_append_left hsize.ge _)
  have h3 : readAt (chunkHeader chunk ++ data) 8 255 =
      some ((nameField 256 chunk.bucket).take 255) := by
    simp only [chunkHeader, List.append_assoc]
    exact (readAt_append_right (k := 4) hindex).trans ((readAt_append_right (k := 0) hsize).trans
      (readAt_append_left (by omega) _))
  have h4 : readAt (chunkHeader chunk ++ data) 264 1023 =
      some ((nameField 1024 chunk.object).take 1023) := by
    simp only [chunkHeader, List.append_assoc]
    exact (readAt_append_right (k := 260) hindex).trans
      ((readAt_append_right (k := 256) hsize).trans
      ((readAt_append_right (k := 0) hbucket).trans (readAt_append_left (by omega) _)))
  have h5 : readAt (chunkHeader chunk ++ data) 1288 511 =
      some ((nameField 512 chunk.diskPath).take 511) := by
    simp only [chunkHeader, List.append_assoc]
    exact (readAt_append_right (k := 1284) hindex).trans
      ((readAt_append_right (k := 1280) hsize).trans
      ((readAt_append_right (k := 1024) hbucket).trans ((readAt_append_right (k := 0) hobject).trans
        (readAt_append_left (by omega) _))))
  have hstart : (before.length + batchHeaderSize) % 2 ^ 64 = before.length + batchHeaderSize :=
    Nat.mod_eq_of_lt (by unfold batchHeaderSize; omega)
  have hend : (before.length + batchHeaderSize + chunk.chunkData.length) % 2 ^ 64 =
      before.length + batchHeaderSize + chunk.chunkData.length :=
    Nat.mod_eq_of_lt (by unfold batchHeaderSize; omega)
  have hzero : readAt (before ++ (chunkHeader chunk ++ data)) before.length 4 = _ :=
    (hskip 0 4).trans h1
  unfold readRecord
  rw [if_neg (by rw [hstart, hall, batchHeaderSize]; omega), hzero, hskip 4 4, h2, hskip 8 255, h3,
    hskip 264 1023, h4, hskip 1288 511, h5]
  simp only [Option.bind_some]
  rw [ntohl_htonl h.size, ntohl_htonl h.index, hstart, hend,
    if_neg (by rw [hall, batchHeaderSize]; omega), text_nameField h.bucket.1 h.bucket.2,
    text_nameField h.object.1 h.object.2, text_nameField h.diskPath.1 h.diskPath.2]
  rfl

/-- **Run.**  The calls for the records of chunks are for the chunks, in their order. -/
theorem batchRecords_batchBody {chunks : List BatchChunk} (h : ∀ chunk ∈ chunks, chunk.Fits)
    {before : Bytes} (hlt : (before ++ batchBody chunks).length < 2 ^ 63) :
    ∃ writes, batchRecords (before ++ batchBody chunks) chunks.length before.length =
        some (writes, none) ∧
      writes.map (BatchWrite.chunk (before ++ batchBody chunks)) = chunks := by
  induction chunks generalizing before with
  | nil => exact ⟨[], rfl, rfl⟩
  | cons chunk chunks ih =>
    have hbody : before ++ batchBody (chunk :: chunks) =
        before ++ (chunkHeader chunk ++ (chunk.chunkData ++ batchBody chunks)) := by
      simp [batchBody]
    have hnext : before ++ batchBody (chunk :: chunks) =
        (before ++ (chunkHeader chunk ++ chunk.chunkData)) ++ batchBody chunks := by
      rw [hbody]
      simp
    have hlength : (before ++ (chunkHeader chunk ++ chunk.chunkData)).length =
        before.length + batchHeaderSize + chunk.chunkData.length := by
      simp [length_chunkHeader, Nat.add_assoc]
    have hle : (before ++ (chunkHeader chunk ++ chunk.chunkData)).length < 2 ^ 63 := by
      rw [hnext, List.length_append] at hlt
      omega
    have hread := readRecord_chunk (h chunk List.mem_cons_self) (hbody ▸ hlt)
    obtain ⟨writes, hwrites, hchunks⟩ :=
      ih (fun c hc => h c (List.mem_cons_of_mem _ hc)) (hnext ▸ hlt)
    refine ⟨chunk.write before.length :: writes, ?_, ?_⟩
    · rw [List.length_cons, batchRecords, hbody, hread, Option.bind_some, ← hbody]
      dsimp only [BatchChunk.write]
      rw [Nat.mod_eq_of_lt (by omega), ← hlength, hnext, hwrites]
      rfl
    · rw [List.map_cons, hnext, hchunks, ← hnext, hbody]
      have hdata : ((before ++ (chunkHeader chunk ++ (chunk.chunkData ++ batchBody chunks))).drop
          (before.length + batchHeaderSize)).take chunk.chunkData.length = chunk.chunkData := by
        rw [← length_chunkHeader chunk, ← List.length_append, ← List.append_assoc,
          List.drop_left, List.take_left]
      simp only [BatchWrite.chunk, BatchChunk.write, hdata]

/-- **What is sent is what is written**: of a batch of 1 to 32 chunks the handler makes one write
for each chunk, in order, with its names, its index and its bytes, and answers as the handler of the
chunks does. -/
theorem handleBatchRequest_batchBody (io : BatchIo) {chunks : List BatchChunk}
    (hcount : 1 ≤ chunks.length ∧ chunks.length ≤ 32) (h : ∀ chunk ∈ chunks, chunk.Fits) :
    ∃ answer, handleBatchRequest (fun w => io.written w.chunkIndex) (some (printDec chunks.length))
        (batchBody chunks) = some answer ∧
      answer.writes.map (BatchWrite.chunk (batchBody chunks)) = chunks ∧
      answer.status = (handleBatchChunkWrite io chunks).1 := by
  have hsum : ∀ l : List BatchChunk, (∀ chunk ∈ l, chunk.Fits) →
      (batchBody l).length ≤ l.length * (1800 + 2 ^ 32) := by
    intro l
    induction l with
    | nil => intro _; simp [batchBody]
    | cons chunk l ih =>
      intro hfits
      have hrest := ih fun c hc => hfits c (List.mem_cons_of_mem _ hc)
      have hsize := (hfits chunk List.mem_cons_self).size
      simp only [batchBody, List.flatMap_cons, List.length_append, length_chunkHeader,
        batchHeaderSize, List.length_cons] at hrest ⊢
      omega
  have hlt : ([] ++ batchBody chunks).length < 2 ^ 63 := by
    have hle := hsum chunks h
    rw [List.nil_append]
    omega
  obtain ⟨writes, hwrites, hchunks⟩ := batchRecords_batchBody h hlt
  rw [List.nil_append] at hwrites hchunks
  have hatoi : (atoi (printDec chunks.length) % 2 ^ 64).toNat = chunks.length := by
    rw [atoi_printDec (by omega)]
    omega
  have hok : writes.countP (fun w => io.written w.chunkIndex) = (io.stored chunks).length := by
    rw [BatchIo.stored, ← List.countP_eq_length_filter, ← hchunks, List.countP_map]
    rfl
  have hlength : writes.length = chunks.length := by
    rw [← hchunks, List.length_map]
  unfold handleBatchRequest
  dsimp only
  rw [hatoi, if_neg (by omega)]
  change ∃ answer, Option.map _ (batchRecords (batchBody chunks) chunks.length 0) = some answer ∧ _
  rw [show batchRecords (batchBody chunks) chunks.length 0 = some (writes, none) from hwrites,
    Option.map_some]
  refine ⟨_, rfl, ?_, ?_⟩
  · dsimp only
    split
    · exact hchunks
    · exact hchunks
  · have habs : handleBatchChunkWrite io chunks =
        (if (io.stored chunks).length ≥ chunks.length / 2 + 1 then 200 else 500,
          io.stored chunks) :=
      if_neg (by omega)
    dsimp only
    rw [hok, habs]
    dsimp only
    split
    · rfl
    · rfl

/-- Two chunks; the second is not written. -/
theorem handleBatchRequest_two_chunks : ∃ answer,
    handleBatchRequest (fun w => (BatchIo.losing [2]).written w.chunkIndex) (some (printDec 2))
        (batchBody [oneChunk, { oneChunk with chunkIndex := 2, chunkData := [8, 9] }]) =
          some answer ∧
      answer.writes.map (BatchWrite.chunk
        (batchBody [oneChunk, { oneChunk with chunkIndex := 2, chunkData := [8, 9] }])) =
          [oneChunk, { oneChunk with chunkIndex := 2, chunkData := [8, 9] }] ∧
      answer.status = 500 := by
  have hnonzero : ∀ s ∈ [oneChunk.bucket, oneChunk.object, oneChunk.diskPath], 0 ∉ s := by decide
  have hne : ∀ s ∈ [oneChunk.bucket, oneChunk.object, oneChunk.diskPath], ∀ c ∈ s, c ≠ 0 :=
    fun s hs c hc heq => hnonzero s hs (heq ▸ hc)
  refine @handleBatchRequest_batchBody (.losing [2]) [oneChunk, _] (by decide) ?_
  simp only [List.forall_mem_cons]
  refine ⟨⟨by decide, by decide, ?_, ?_, ?_⟩, ⟨by decide, by decide, ?_, ?_, ?_⟩, by simp⟩
  all_goals exact ⟨by decide, hne _ (by simp)⟩

end Buckets
