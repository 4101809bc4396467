/-
# Streaming uploads: `s3_streaming.c`

The body of a PUT arrives in reads cut anywhere.  A plain body is copied as it comes; an
`aws-chunked` body is decoded by three states -- a chunk's header line, its data, the CRLF after
the data -- with the header line collected across reads.  What comes out goes through a buffer of
256 KiB, whose flushed chunks are put together at the end and handed to the storage layer.

The decoder has three habits that a cut can bring out:

* after a CR that ends a read, the LF of the next one is taken for the start of a header line
  (`strtoull` skips it as a blank, and the line buffer has one byte to spare);
* a chunk of size 0 ends the read it stands in, whatever follows it there;
* what comes after it in later reads is read as header lines again.

`Waits` says what the decoder can be in the middle of, for a well-formed body; `Uploading.read`
says that a read, wherever it ends, leads from one such situation to another.
-/
import Buckets.Json
import Buckets.Lib.CStr
import Buckets.Lib.ChunkBuffer
import Buckets.Lib.Strtoull

namespace Buckets

open Strtoull

/-! ## 1. The upload -/

/-- `S3_STREAM_CHUNK_SIZE`. -/
def streamChunkSize : ℕ := 256 * 1024

/-- `sizeof(upload->aws_chunk_header)`. -/
def chunkHeaderSize : ℕ := 128

/-- `aws_chunk_state`: 0, 1 and 2. -/
inductive ChunkState where
  | header
  | data
  | trailer
  deriving DecidableEq, Repr

/-- How far a state is from taking a byte. -/
def ChunkState.rank : ChunkState → ℕ
  | .header => 0
  | .trailer => 1
  | .data => 2

/-- `s3_stream_upload_t`, without the fields that only the request and the response use. -/
structure Upload where
  awsChunked : Bool
  chunkState : ChunkState
  /-- `aws_chunk_header`, as far as `aws_chunk_header_len`. -/
  chunkHeader : Bytes
  chunkRemaining : ℕ
  /-- `chunk_buffer` and `data_chunks`. -/
  sink : ChunkBuffer.State UInt8
  bytesReceived : ℕ
  /-- What the hash context has been given. -/
  hashed : Bytes
  aborted : Bool

/-- `s3_stream_upload_create`, with the flag `s3_stream_on_request_start` sets after it. -/
def uploadCreate (awsChunked : Bool) : Upload where
  awsChunked := awsChunked
  chunkState := .header
  chunkHeader := []
  chunkRemaining := 0
  sink := ⟨[], []⟩
  bytesReceived := 0
  hashed := []
  aborted := false

namespace Upload

/-- `process_raw_data`. -/
def processRawData (u : Upload) (src : Bytes) : Upload :=
  { u with
    hashed := u.hashed ++ src
    bytesReceived := u.bytesReceived + src.length
    sink := ChunkBuffer.fill streamChunkSize (by decide) u.sink src }

/-! ### Header lines -/

/-- The two bytes that end a line. -/
def crlf : Bytes := [13, 10]

/-- The text the size is parsed from: the line up to its first `;`, or else without its last two
bytes. -/
def sizeText (line : Bytes) : CString :=
  if 59 ∈ CStr.text line then CStr.before (CStr.text line) 59
  else CStr.text (line.take (line.length - 2))

/-- How reading a header line ends. -/
inductive HeaderRead where
  /-- The line does not fit. -/
  | overflow
  /-- A chunk of size 0: the rest of the read is not looked at. -/
  | final (u : Upload)
  | more (u : Upload) (src : Bytes)

/-- The end of a header line. -/
def endHeader (u : Upload) (line src : Bytes) : HeaderRead :=
  let remaining := strtoull 16 (sizeText line)
  if remaining = 0 then .final { u with chunkHeader := [], chunkRemaining := 0 }
  else .more { u with chunkHeader := [], chunkRemaining := remaining, chunkState := .data } src

/-- The inner loop of state 0. -/
def readHeader (u : Upload) : Bytes → HeaderRead
  | [] => .more u []
  | c :: src =>
    if chunkHeaderSize - 1 ≤ u.chunkHeader.length then .overflow
    else if crlf.isSuffixOf (u.chunkHeader ++ [c]) then u.endHeader (u.chunkHeader ++ [c]) src
    else readHeader { u with chunkHeader := u.chunkHeader ++ [c] } src

theorem endHeader_eq_more {u u' : Upload} {line src rest : Bytes}
    (h : u.endHeader line src = .more u' rest) : rest = src := by
  simp only [endHeader] at h
  split at h
  · cases h
  · injection h with _ hsrc
    exact hsrc.symm

theorem length_of_readHeader {u u' : Upload} {c : UInt8} {src rest : Bytes}
    (h : u.readHeader (c :: src) = .more u' rest) : rest.length ≤ src.length := by
  induction src generalizing u c with
  | nil =>
    rw [readHeader] at h
    split_ifs at h with hfull hend
    · rw [endHeader_eq_more h]
    · rw [readHeader] at h
      injection h with _ hsrc
      rw [← hsrc]
  | cons c' src ih =>
    rw [readHeader] at h
    split_ifs at h with hfull hend
    · rw [endHeader_eq_more h]
    · exact (ih h).trans (Nat.le_succ _)

/-! ### The decoder -/

/-- Skips one byte `b` if it is next. -/
def skipByte (b : UInt8) : Bytes → Bytes
  | [] => []
  | c :: src => if c = b then src else c :: src

theorem length_skipByte_le (b : UInt8) (src : Bytes) : (skipByte b src).length ≤ src.length := by
  cases src with
  | nil => rfl
  | cons c src =>
    rw [skipByte]
    split <;> simp

/-- State 1, up to what is left of the read. -/
def takeData (u : Upload) (src : Bytes) : Upload :=
  let toRead := min src.length u.chunkRemaining
  let u' := if 0 < toRead then
    { u.processRawData (src.take toRead) with chunkRemaining := u.chunkRemaining - toRead }
    else u
  if u'.chunkRemaining = 0 then { u' with chunkState := .trailer } else u'

theorem takeData_eq (u : Upload) (src : Bytes) (hpos : 0 < src.length)
    (hremaining : 0 < u.chunkRemaining) :
    u.takeData src = { u.processRawData (src.take u.chunkRemaining) with
      chunkRemaining := u.chunkRemaining - min src.length u.chunkRemaining
      chunkState := if u.chunkRemaining ≤ src.length then .trailer else u.chunkState } := by
  have hmin : 0 < min src.length u.chunkRemaining := lt_min hpos hremaining
  have htake : src.take (min src.length u.chunkRemaining) = src.take u.chunkRemaining := by
    rw [Nat.min_comm, ← List.take_eq_take_min]
  rw [takeData]
  simp only [if_pos hmin, htake]
  by_cases hle : u.chunkRemaining ≤ src.length
  · rw [if_pos (by omega), if_pos hle]
  · rw [if_neg (by omega), if_neg hle]
    rfl

theorem rank_takeData {u : Upload} (hstate : u.chunkState = .data) {src : Bytes} (hne : src ≠ []) :
    3 * (src.drop (min src.length u.chunkRemaining)).length + (u.takeData src).chunkState.rank <
      3 * src.length + u.chunkState.rank := by
  have hpos : 0 < src.length := List.length_pos_iff.mpr hne
  rw [List.length_drop, hstate]
  rcases Nat.eq_zero_or_pos u.chunkRemaining with hzero | hremaining
  · simp [takeData, hzero, ChunkState.rank]
  · have hrank : (u.takeData src).chunkState.rank ≤ 2 := by
      cases (u.takeData src).chunkState <;> decide
    have hmin : 0 < min src.length u.chunkRemaining := lt_min hpos hremaining
    simp only [ChunkState.rank] at hrank ⊢
    omega

/-- `process_aws_chunked`: `none` is -1. -/
def processAwsChunked (u : Upload) (src : Bytes) : Option Upload :=
  if _ : src = [] then some u
  else
    match _ : u.chunkState with
    | .header =>
      match _ : u.readHeader src with
      | .overflow => none
      | .final u' => some u'
      | .more u' src' => processAwsChunked u' src'
    | .data => processAwsChunked (u.takeData src) (src.drop (min src.length u.chunkRemaining))
    | .trailer => processAwsChunked { u with chunkState := .header } (skipByte 10 (skipByte 13 src))
termination_by 3 * src.length + u.chunkState.rank
decreasing_by
  · rename_i hsrc hstate hread
    obtain ⟨c, src, rfl⟩ := List.exists_cons_of_ne_nil hsrc
    have hle := length_of_readHeader hread
    rw [hstate, List.length_cons]
    cases u'.chunkState <;> simp only [ChunkState.rank] <;> omega
  · rename_i hsrc hstate
    exact rank_takeData hstate hsrc
  · rename_i hsrc hstate
    have h10 := length_skipByte_le 10 (skipByte 13 src)
    have h13 := length_skipByte_le 13 src
    simp only [hstate, ChunkState.rank]
    omega

/-- `s3_stream_upload_process`. -/
def process (u : Upload) (data : Bytes) : Option Upload :=
  if u.aborted then none
  else if u.awsChunked then u.processAwsChunked data
  else some (u.processRawData data)

/-- The reads of a body, one after the other. -/
def processAll (u : Upload) : List Bytes → Option Upload
  | [] => some u
  | read :: reads => (u.process read).bind fun u' => u'.processAll reads

/-- What `s3_stream_upload_complete` hands to the storage layer, and the ETag. -/
structure Completed where
  objectData : Bytes
  etag : CString

/-- The ETag: an MD5 sum in quotes. -/
def formatEtag (hash : Vector UInt8 16) : CString := 34 :: (hash.toList.flatMap hexByte ++ [34])

/-- `s3_stream_upload_complete`, up to the call of the storage layer. -/
def complete (md5 : Bytes → Vector UInt8 16) (u : Upload) : Option Completed :=
  if u.aborted then none
  else
    (ChunkBuffer.reassemble streamChunkSize u.bytesReceived 0 u.sink.flush.chunks).map fun data =>
      ⟨data, formatEtag (md5 u.hashed)⟩

/-! ## 2. What an upload has taken in -/

/-- The upload has taken in `payload`. -/
structure Holds (u : Upload) (payload : Bytes) : Prop where
  sink : ChunkBuffer.Inv streamChunkSize u.sink
  content : u.sink.content = payload
  bytesReceived : u.bytesReceived = payload.length
  hashed : u.hashed = payload

theorem Holds.processRawData {u : Upload} {payload : Bytes} (h : u.Holds payload) (src : Bytes) :
    (u.processRawData src).Holds (payload ++ src) := by
  obtain ⟨hinv, hcontent⟩ := ChunkBuffer.fill_spec (by decide) h.sink src
  refine ⟨hinv, ?_, ?_, ?_⟩
  · exact hcontent.trans (by rw [h.content])
  · rw [List.length_append, ← h.bytesReceived]
    rfl
  · rw [← h.hashed]
    rfl

theorem holds_uploadCreate (awsChunked : Bool) : (uploadCreate awsChunked).Holds [] :=
  ⟨⟨show 0 < streamChunkSize by decide, by simp [uploadCreate]⟩, rfl, rfl, rfl⟩

/-- **What was taken in is handed to the storage layer.** -/
theorem Holds.complete {u : Upload} {payload : Bytes} (h : u.Holds payload)
    (haborted : u.aborted = false) (md5 : Bytes → Vector UInt8 16) :
    u.complete md5 = some ⟨payload, formatEtag (md5 payload)⟩ := by
  have hdata : ChunkBuffer.reassemble streamChunkSize u.bytesReceived 0 u.sink.flush.chunks =
      some payload := by
    have := ChunkBuffer.reassemble_flush h.sink
    rwa [h.content, ← h.bytesReceived] at this
  rw [Upload.complete, if_neg (by simp [haborted]), hdata, h.hashed]
  rfl

theorem processAll_plain {u : Upload} (hplain : u.awsChunked = false) (haborted : u.aborted = false)
    {payload : Bytes} (h : u.Holds payload) (reads : List Bytes) :
    ∃ u', u.processAll reads = some u' ∧ u'.Holds (payload ++ reads.flatten) ∧
      u'.aborted = false := by
  induction reads generalizing u payload with
  | nil => exact ⟨u, rfl, by simpa using h, haborted⟩
  | cons read reads ih =>
    obtain ⟨u', hall, hu', haborted'⟩ := ih (u := u.processRawData read) hplain haborted
      (h.processRawData read)
    refine ⟨u', ?_, by simpa using hu', haborted'⟩
    rw [processAll, process, if_neg (by simp [haborted]), if_neg (by simp [hplain]),
      Option.bind_some, hall]

/-! ## 3. Well-formed bodies -/

/-- The header line of a chunk: a size in hexadecimal digits, an extension, and CRLF. -/
structure ChunkHeader where
  size : Bytes
  ext : Bytes
  size_ne_nil : size ≠ []
  size_hex : ∀ c ∈ size, (digit 16 c).isSome
  /-- An extension starts with `;`. -/
  ext_start : ∀ c ∈ ext.head?, c = 59
  ext_line : ¬crlf <:+: ext
  length_le : size.length + ext.length + 2 ≤ 126

/-- The size the line announces. -/
def ChunkHeader.value (h : ChunkHeader) : ℕ := Strtoull.value 16 (digits 16 h.size)

def ChunkHeader.bytes (h : ChunkHeader) : Bytes := h.size ++ (h.ext ++ crlf)

/-- A chunk of data; its length is a `size_t`. -/
structure Chunk where
  header : ChunkHeader
  data : Bytes
  data_ne_nil : data ≠ []
  length_lt : data.length < 2 ^ 64
  value_eq : header.value = data.length

def Chunk.bytes (c : Chunk) : Bytes := c.header.bytes ++ (c.data ++ crlf)

/-- The line that ends a body. -/
structure LastChunk where
  header : ChunkHeader
  value_eq : header.value = 0

/-- A body: its chunks, a chunk of size 0, and CRLF. -/
def chunkedBody (chunks : List Chunk) (last : LastChunk) : Bytes :=
  chunks.flatMap Chunk.bytes ++ (last.header.bytes ++ crlf)

/-- Its payload. -/
def payload (chunks : List Chunk) : Bytes := chunks.flatMap Chunk.data

/-! ## 4. Header lines are read across cuts -/

/-- A line the decoder can hold and that ends at its first CRLF. -/
structure Line (line : Bytes) : Prop where
  length_lt : line.length < chunkHeaderSize
  ends : crlf <:+ line
  first : ∀ {q s : Bytes}, line = q ++ s → crlf <:+ q → s = []

theorem Line.readHeader_part {line : Bytes} (hline : Line line) {u : Upload} {src a : Bytes}
    (h : u.chunkHeader ++ (src ++ a) = line) (ha : a ≠ []) :
    u.readHeader src = .more { u with chunkHeader := u.chunkHeader ++ src } [] := by
  induction src generalizing u with
  | nil => rw [readHeader, List.append_nil]
  | cons c src ih =>
    have hcut : line = (u.chunkHeader ++ [c]) ++ (src ++ a) := by rw [← h]; simp
    have hlen := hline.length_lt
    rw [hcut, List.length_append, List.length_append, List.length_singleton] at hlen
    have hnot : ¬crlf.isSuffixOf (u.chunkHeader ++ [c]) = true := by
      rw [List.isSuffixOf_iff_suffix]
      exact fun hends => ha (List.append_eq_nil_iff.mp (hline.first hcut hends)).2
    rw [readHeader, if_neg (by omega), if_neg hnot]
    rw [ih (u := { u with chunkHeader := u.chunkHeader ++ [c] }) hcut.symm]
    simp

theorem Line.readHeader_whole {line : Bytes} (hline : Line line) {u : Upload} {a : Bytes}
    (h : u.chunkHeader ++ a = line) (ha : a ≠ []) (src : Bytes) :
    u.readHeader (a ++ src) = u.endHeader line src := by
  induction a generalizing u with
  | nil => exact absurd rfl ha
  | cons c a ih =>
    have hcut : line = (u.chunkHeader ++ [c]) ++ a := by rw [← h]; simp
    have hlen := hline.length_lt
    rw [hcut, List.length_append, List.length_append, List.length_singleton] at hlen
    rw [List.cons_append, readHeader, if_neg (by omega)]
    by_cases hends : crlf <:+ u.chunkHeader ++ [c]
    · obtain rfl := hline.first hcut hends
      rw [if_pos (List.isSuffixOf_iff_suffix.mpr hends), hcut, List.append_nil, List.nil_append]
    · rw [if_neg (mt List.isSuffixOf_iff_suffix.mp hends)]
      refine ih (u := { u with chunkHeader := u.chunkHeader ++ [c] }) hcut.symm ?_
      rintro rfl
      rw [List.append_nil] at hcut
      exact hends (hcut ▸ hline.ends)

/-- CRLF occurs in no other place than at the end. -/
theorem eq_nil_of_append_crlf {text q s : Bytes} (htext : ¬crlf <:+: text)
    (h : text ++ crlf = q ++ s) (hq : crlf <:+ q) : s = [] := by
  obtain ⟨q, rfl⟩ := hq
  rcases List.eq_nil_or_concat s with hs | ⟨s, x, rfl⟩
  · exact hs
  exfalso
  -- the last byte but one is a CR, so it is not the LF of the other CRLF
  have h1 : text ++ [13] = q ++ crlf ++ s := by
    have : (text ++ [13]) ++ [10] = (q ++ crlf ++ s) ++ [x] := by simpa [crlf] using h
    exact (List.append_inj' this rfl).1
  rcases List.eq_nil_or_concat s with rfl | ⟨s, y, rfl⟩
  · have : text ++ [13] = (q ++ [13]) ++ [10] := by simpa [crlf] using h1
    exact absurd (List.append_inj' this rfl).2 (by decide)
  · have : text ++ [13] = (q ++ crlf ++ s) ++ [y] := by simpa using h1
    exact htext ⟨q, s, (List.append_inj' this rfl).1.symm⟩

theorem not_crlf_infix_append {a text : Bytes} (ha : ∀ c ∈ a, c ≠ 13) (htext : ¬crlf <:+: text) :
    ¬crlf <:+: a ++ text := by
  induction a with
  | nil => exact htext
  | cons c a ih =>
    rw [List.cons_append, List.infix_cons_iff, not_or]
    refine ⟨fun hpre => ?_, ih fun c' hc' => ha c' (List.mem_cons_of_mem c hc')⟩
    exact ha c List.mem_cons_self (List.cons_prefix_cons.mp hpre).1.symm

/-- A blank that a cut between CR and LF can leave at the start of a line. -/
def Stray (stray : Bytes) : Prop := stray = [] ∨ stray = [10]

theorem Stray.length_le {stray : Bytes} (h : Stray stray) : stray.length ≤ 1 := by
  rcases h with rfl | rfl <;> decide

theorem Stray.mem {stray : Bytes} (h : Stray stray) {c : UInt8} (hc : c ∈ stray) : c = 10 := by
  rcases h with rfl | rfl
  · cases hc
  · exact List.mem_singleton.mp hc

theorem ChunkHeader.ne_of_mem_size (h : ChunkHeader) {c x : UInt8} (hc : c ∈ h.size)
    (hx : digit 16 x = none) : c ≠ x := by
  obtain ⟨d, hd⟩ := Option.isSome_iff_exists.mp (h.size_hex c hc)
  exact ne_of_digit hd hx

theorem ChunkHeader.ne_of_mem (h : ChunkHeader) {stray : Bytes} (hstray : Stray stray) {c x : UInt8}
    (hc : c ∈ stray ++ h.size) (hx : digit 16 x = none) (h10 : x ≠ 10) : c ≠ x := by
  rcases List.mem_append.mp hc with hc | hc
  · rw [hstray.mem hc]
    exact h10.symm
  · exact h.ne_of_mem_size hc hx

theorem ChunkHeader.line (h : ChunkHeader) {stray : Bytes} (hstray : Stray stray) :
    Line (stray ++ h.bytes) := by
  have htext : ¬crlf <:+: (stray ++ h.size) ++ h.ext :=
    not_crlf_infix_append (fun c hc => h.ne_of_mem hstray hc (by decide) (by decide)) h.ext_line
  refine ⟨?_, ⟨stray ++ h.size ++ h.ext, by simp [bytes]⟩, fun {q s} hcut hends => ?_⟩
  · have := h.length_le
    have := hstray.length_le
    simp only [bytes, crlf, List.length_append, List.length_cons, List.length_nil, chunkHeaderSize]
    omega
  · exact eq_nil_of_append_crlf htext (by simpa [bytes] using hcut) hends

theorem ChunkHeader.sizeText_line (h : ChunkHeader) {stray : Bytes} (hstray : Stray stray) :
    sizeText (stray ++ h.bytes) = stray ++ h.size := by
  have hzero : ∀ c ∈ stray ++ h.size, c ≠ 0 := fun c hc =>
    h.ne_of_mem hstray hc (by decide) (by decide)
  have hsemi : ∀ c ∈ stray ++ h.size, c ≠ 59 := fun c hc =>
    h.ne_of_mem hstray hc (by decide) (by decide)
  rw [show stray ++ h.bytes = (stray ++ h.size) ++ (h.ext ++ crlf) by simp [bytes]]
  generalize stray ++ h.size = text at hzero hsemi ⊢
  cases hext : h.ext with
  | nil =>
    have hnot : 59 ∉ text ++ crlf := fun hmem => by
      rcases List.mem_append.mp hmem with hmem | hmem
      · exact hsemi 59 hmem rfl
      · exact absurd hmem (by decide)
    have hall : CStr.text (text ++ crlf) = text ++ crlf := CStr.text_append hzero crlf
    have hcut : (text ++ crlf).take ((text ++ crlf).length - 2) = text := by simp [crlf]
    rw [sizeText, List.nil_append, hall, if_neg hnot, hcut]
    simpa [CStr.text] using CStr.text_append hzero []
  | cons c ext =>
    obtain rfl : c = 59 := h.ext_start c (by rw [hext]; rfl)
    have hall : CStr.text (text ++ (59 :: ext ++ crlf)) = text ++ 59 :: CStr.text (ext ++ crlf) :=
      CStr.text_append hzero _
    rw [sizeText, hall, if_pos (by simp), CStr.before,
      List.takeWhile_append_of_pos (by simpa using hsemi), List.takeWhile_cons_of_neg (by simp),
      List.append_nil]

/-- **The size is read**, with or without the stray LF. -/
theorem ChunkHeader.strtoull_line (h : ChunkHeader) {stray : Bytes} (hstray : Stray stray)
    (hlt : h.value < 2 ^ 64) : strtoull 16 (sizeText (stray ++ h.bytes)) = h.value := by
  have hblank : ∀ c ∈ stray, isSpace c = true := fun c hc => by
    rw [hstray.mem hc]
    decide
  have := strtoull_of_digits hblank (spells_digits h.size_hex) h.size_ne_nil
    (show Stops [] by simp [Stops]) hlt
  rwa [List.append_nil, ← h.sizeText_line hstray] at this

/-! ## 5. What the decoder can be in the middle of -/

/-- What stands after a header line of size `n`, and the payload in it. -/
inductive Announces : ℕ → Bytes → Bytes → Prop
  | chunk {d : Bytes} (hd : d ≠ []) (chunks : List Chunk) (last : LastChunk) :
    Announces d.length (d ++ (crlf ++ chunkedBody chunks last)) (d ++ payload chunks)
  | last {after : Bytes} (hafter : after = crlf ∨ after = []) : Announces 0 after []

/-- The decoder waits for `rest`, with `left` of the payload in it. -/
inductive Waits (u : Upload) : Bytes → Bytes → Prop
  | header {line a after left : Bytes} (hstate : u.chunkState = .header) (hline : Line line)
    (hcut : u.chunkHeader ++ a = line) (ha : a ≠ [])
    (hann : Announces (strtoull 16 (sizeText line)) after left) : Waits u (a ++ after) left
  | data {d : Bytes} (hstate : u.chunkState = .data) (hheader : u.chunkHeader = []) (hd : d ≠ [])
    (hremaining : u.chunkRemaining = d.length) (chunks : List Chunk) (last : LastChunk) :
    Waits u (d ++ (crlf ++ chunkedBody chunks last)) (d ++ payload chunks)
  | trailer (hstate : u.chunkState = .trailer) (hheader : u.chunkHeader = []) (chunks : List Chunk)
    (last : LastChunk) : Waits u (crlf ++ chunkedBody chunks last) (payload chunks)
  /-- The zero-size chunk was read; of the last CRLF at most the LF is still to come. -/
  | done {rest : Bytes} (hstate : u.chunkState = .header)
    (hrest : u.chunkHeader ++ rest = [] ∨ u.chunkHeader ++ rest = [10]) : Waits u rest []

theorem Waits.left_eq_nil {u : Upload} {rest left : Bytes} (h : Waits u rest left)
    (hrest : rest = []) : left = [] := by
  cases h with
  | header _ _ _ ha _ => exact absurd (List.append_eq_nil_iff.mp hrest).1 ha
  | data _ _ hd _ _ _ => exact absurd (List.append_eq_nil_iff.mp hrest).1 hd
  | trailer _ _ _ _ => cases hrest
  | done _ _ => rfl

/-- At the start of a chunk, maybe after a stray LF. -/
theorem waits_body {u : Upload} (hstate : u.chunkState = .header) (hheader : u.chunkHeader = [])
    {stray : Bytes} (hstray : Stray stray) (chunks : List Chunk) (last : LastChunk) :
    Waits u (stray ++ chunkedBody chunks last) (payload chunks) := by
  have key : ∀ (h : ChunkHeader) (after left : Bytes), h.value < 2 ^ 64 →
      Announces h.value after left → Waits u (stray ++ (h.bytes ++ after)) left := by
    intro h after left hlt hann
    rw [← List.append_assoc]
    refine .header hstate (h.line hstray) (by rw [hheader, List.nil_append]) ?_ ?_
    · simp [ChunkHeader.bytes, crlf]
    · rwa [h.strtoull_line hstray hlt]
  cases chunks with
  | nil =>
    refine key last.header crlf [] ?_ ?_
    · rw [last.value_eq]
      decide
    · rw [last.value_eq]
      exact .last (Or.inl rfl)
  | cons c chunks =>
    have hbody : chunkedBody (c :: chunks) last =
        c.header.bytes ++ (c.data ++ (crlf ++ chunkedBody chunks last)) := by
      simp [chunkedBody, Chunk.bytes]
    rw [hbody]
    refine key c.header _ _ ?_ ?_
    · rw [c.value_eq]
      exact c.length_lt
    · rw [c.value_eq]
      exact .chunk c.data_ne_nil chunks last

/-- **The invariant of an upload**: what was taken in and what is still to come are the payload. -/
structure Uploading (whole : Bytes) (u : Upload) (rest : Bytes) : Prop where
  chunked : u.awsChunked = true
  running : u.aborted = false
  waits : ∃ got left, u.Holds got ∧ Waits u rest left ∧ got ++ left = whole

/-- After the zero-size chunk: what the read leaves of the last CRLF. -/
theorem waits_of_last {u : Upload} (hstate : u.chunkState = .header) (hheader : u.chunkHeader = [])
    {src rest : Bytes} (h : src ++ rest = crlf ∨ src ++ rest = []) : Waits u rest [] := by
  have hdone : rest = [] ∨ rest = [10] → Waits u rest [] := fun hrest =>
    .done hstate (by simpa [hheader] using hrest)
  rcases h with h | h
  · rcases src with - | ⟨c, - | ⟨c', src⟩⟩
    · -- the read ended with the zero-size chunk: CRLF is the next line
      obtain rfl : rest = crlf := h
      have hline : Line crlf := ⟨by decide, List.suffix_rfl, fun {q s} hcut hends =>
        eq_nil_of_append_crlf (show ¬crlf <:+: ([] : Bytes) by decide) hcut hends⟩
      have hzero : strtoull 16 (sizeText crlf) = 0 := by decide
      have := Waits.header hstate hline (a := crlf) (by rw [hheader]; rfl) (by decide)
        (hzero ▸ Announces.last (Or.inr rfl))
      rwa [List.append_nil] at this
    · exact hdone (Or.inr (List.cons.inj h).2)
    · have : src ++ rest = [] := (List.cons.inj (List.cons.inj h).2).2
      exact hdone (Or.inl (List.append_eq_nil_iff.mp this).2)
  · exact hdone (Or.inl (List.append_eq_nil_iff.mp h).2)

/-! ## 6. One read -/

/-- A read in the middle of a header line. -/
def HeaderRead.Keeps (whole rest : Bytes) : HeaderRead → Prop
  | .overflow => False
  | .final u => Uploading whole u rest
  | .more u src => Uploading whole u (src ++ rest)

theorem keeps_endHeader {u : Upload} {whole got left after line src rest : Bytes}
    (hchunked : u.awsChunked = true) (hrunning : u.aborted = false)
    (hstate : u.chunkState = .header) (hgot : u.Holds got) (hwhole : got ++ left = whole)
    (hann : Announces (strtoull 16 (sizeText line)) after left) (hafter : src ++ rest = after) :
    (u.endHeader line src).Keeps whole rest := by
  rw [endHeader]
  generalize strtoull 16 (sizeText line) = n at hann ⊢
  cases hann with
  | chunk hd chunks last =>
    rw [if_neg (fun h => hd (List.length_eq_zero_iff.mp h))]
    refine ⟨hchunked, hrunning, got, _, ⟨hgot.sink, hgot.content, hgot.bytesReceived, hgot.hashed⟩,
      ?_, hwhole⟩
    rw [hafter]
    exact .data rfl rfl hd rfl chunks last
  | last hlast =>
    rw [if_pos rfl]
    refine ⟨hchunked, hrunning, got, [], ⟨hgot.sink, hgot.content, hgot.bytesReceived,
      hgot.hashed⟩, ?_, hwhole⟩
    rw [← hafter] at hlast
    exact waits_of_last (by exact hstate) rfl hlast

theorem Uploading.readHeader {whole : Bytes} {u : Upload} {src rest : Bytes}
    (h : Uploading whole u (src ++ rest)) (hstate : u.chunkState = .header) (hne : src ≠ []) :
    (u.readHeader src).Keeps whole rest := by
  obtain ⟨hchunked, hrunning, got, left, hgot, hwaits, hwhole⟩ := h
  generalize hwire : src ++ rest = wire at hwaits
  cases hwaits with
  | data hdata => cases hstate.symm.trans hdata
  | trailer htrailer => cases hstate.symm.trans htrailer
  | @header line a after _ _ hline hcut ha hann =>
    have hend : ∀ src', src = a ++ src' → src' ++ rest = after →
        (u.readHeader src).Keeps whole rest := by
      rintro src' rfl hafter
      rw [hline.readHeader_whole hcut ha src']
      exact keeps_endHeader hchunked hrunning hstate hgot hwhole hann hafter
    rcases List.append_eq_append_iff.mp hwire with ⟨a', hsrc, hrest⟩ | ⟨src', hsrc, hafter⟩
    · by_cases ha' : a' = []
      · subst ha'
        exact hend [] (by rw [hsrc, List.append_nil, List.append_nil]) hrest
      · -- the line goes on in the next read
        rw [hsrc] at hcut
        rw [hline.readHeader_part hcut ha']
        refine ⟨hchunked, hrunning, got, left, ⟨hgot.sink, hgot.content, hgot.bytesReceived,
          hgot.hashed⟩, ?_, hwhole⟩
        rw [List.nil_append, hrest]
        exact .header hstate hline (by rw [← hcut, List.append_assoc]) ha' hann
    · exact hend src' hsrc hafter.symm
  | done _ hdone =>
    rw [← hwire] at hdone
    obtain ⟨c, src, rfl⟩ := List.exists_cons_of_ne_nil hne
    have hlf : u.chunkHeader = [] ∧ c = 10 ∧ src = [] ∧ rest = [] := by
      rcases hdone with hdone | hdone
      · simp at hdone
      · cases hheader : u.chunkHeader with
        | nil => simpa [hheader] using hdone
        | cons x t => simp [hheader] at hdone
    obtain ⟨hheader, rfl, rfl, rfl⟩ := hlf
    have hread : u.readHeader [10] = .more { u with chunkHeader := [10] } [] := by
      rw [Upload.readHeader, hheader, if_neg (by decide), if_neg (by decide), Upload.readHeader]
      rfl
    rw [hread]
    exact ⟨hchunked, hrunning, got, [], ⟨hgot.sink, hgot.content, hgot.bytesReceived,
      hgot.hashed⟩, .done hstate (Or.inr rfl), hwhole⟩

theorem Uploading.takeData {whole : Bytes} {u : Upload} {src rest : Bytes}
    (h : Uploading whole u (src ++ rest)) (hstate : u.chunkState = .data) (hne : src ≠ []) :
    Uploading whole (u.takeData src) (src.drop (min src.length u.chunkRemaining) ++ rest) := by
  obtain ⟨hchunked, hrunning, got, left, hgot, hwaits, hwhole⟩ := h
  have hpos : 0 < src.length := List.length_pos_iff.mpr hne
  generalize hwire : src ++ rest = wire at hwaits
  cases hwaits with
  | header hheader => cases hstate.symm.trans hheader
  | trailer htrailer => cases hstate.symm.trans htrailer
  | done hdone => cases hstate.symm.trans hdone
  | @data d _ hheader hd hremaining chunks last =>
    have hdpos : 0 < d.length := List.length_pos_iff.mpr hd
    rw [takeData_eq u src hpos (hremaining ▸ hdpos), hremaining]
    rcases List.append_eq_append_iff.mp hwire with ⟨d', hd', hrest⟩ | ⟨src', hsrc, hafter⟩
    · -- the read ends inside the data, or with it
      have htake : src.take d.length = src := List.take_of_length_le (by rw [hd']; simp)
      have hdrop : src.drop (min src.length d.length) = [] :=
        List.drop_of_length_le (by rw [hd']; simp)
      have hgot' := hgot.processRawData src
      rw [htake, hdrop, List.nil_append]
      refine ⟨hchunked, hrunning, got ++ src, d' ++ payload chunks, ⟨hgot'.sink, hgot'.content,
        hgot'.bytesReceived, hgot'.hashed⟩, ?_, by rw [← hwhole, hd']; simp⟩
      rw [hrest]
      by_cases hnil : d' = []
      · subst hnil
        have hle : d.length ≤ src.length := by rw [hd']; simp
        exact .trailer (by exact if_pos hle) (by exact hheader) chunks last
      · have hlen : 0 < d'.length := List.length_pos_iff.mpr hnil
        have hnle : ¬d.length ≤ src.length := by rw [hd', List.length_append]; omega
        refine .data (by exact (if_neg hnle).trans hstate) (by exact hheader) hnil ?_ chunks last
        rw [hd']
        simp
    · have htake : src.take d.length = d := by rw [hsrc, List.take_left]
      have hmin : min src.length d.length = d.length := min_eq_right (by rw [hsrc]; simp)
      have hgot' := hgot.processRawData d
      rw [htake, hmin, hsrc, List.drop_left]
      refine ⟨hchunked, hrunning, got ++ d, payload chunks, ⟨hgot'.sink, hgot'.content,
        hgot'.bytesReceived, hgot'.hashed⟩, ?_, by rw [← hwhole, List.append_assoc]⟩
      rw [← hafter]
      have hle : d.length ≤ (d ++ src').length := by simp
      exact .trailer (by exact if_pos hle) (by exact hheader) chunks last

theorem Uploading.skipTrailer {whole : Bytes} {u : Upload} {src rest : Bytes}
    (h : Uploading whole u (src ++ rest)) (hstate : u.chunkState = .trailer) (hne : src ≠ []) :
    Uploading whole { u with chunkState := .header }
      (skipByte 10 (skipByte 13 src) ++ rest) := by
  obtain ⟨hchunked, hrunning, got, left, hgot, hwaits, hwhole⟩ := h
  generalize hwire : src ++ rest = wire at hwaits
  cases hwaits with
  | header hheader => cases hstate.symm.trans hheader
  | data hdata => cases hstate.symm.trans hdata
  | done hdone => cases hstate.symm.trans hdone
  | trailer _ hheader chunks last =>
    refine ⟨hchunked, hrunning, got, _, ⟨hgot.sink, hgot.content, hgot.bytesReceived,
      hgot.hashed⟩, ?_, hwhole⟩
    have hbody : ∀ {stray : Bytes}, Stray stray →
        Waits { u with chunkState := .header } (stray ++ chunkedBody chunks last)
          (payload chunks) := fun hstray =>
      waits_body rfl (by exact hheader) hstray chunks last
    rcases src with - | ⟨c, - | ⟨c', src⟩⟩
    · exact absurd rfl hne
    · -- the LF is left for the next read
      obtain ⟨rfl, hrest⟩ := List.cons.inj hwire
      rw [show skipByte 10 (skipByte 13 [13]) ++ rest = [10] ++ chunkedBody chunks last from hrest]
      exact hbody (Or.inr rfl)
    · obtain ⟨rfl, hwire'⟩ := List.cons.inj hwire
      obtain ⟨rfl, hrest⟩ := List.cons.inj hwire'
      rw [show skipByte 10 (skipByte 13 (13 :: 10 :: src)) ++ rest = [] ++ chunkedBody chunks last
        from hrest]
      exact hbody (Or.inl rfl)

/-- **A read keeps the invariant**, wherever it ends. -/
theorem Uploading.read {whole : Bytes} {u : Upload} {src rest : Bytes}
    (h : Uploading whole u (src ++ rest)) :
    ∃ u', u.processAwsChunked src = some u' ∧ Uploading whole u' rest := by
  fun_induction processAwsChunked u src with
  | case1 u => exact ⟨u, rfl, h⟩
  | case2 u src hne hstate hread =>
    have := h.readHeader hstate hne
    rw [hread] at this
    exact this.elim
  | case3 u src hne hstate u' hread =>
    have := h.readHeader hstate hne
    rw [hread] at this
    exact ⟨u', rfl, this⟩
  | case4 u src hne hstate u' src' hread ih =>
    have := h.readHeader hstate hne
    rw [hread] at this
    exact ih this
  | case5 u src hne hstate ih => exact ih (h.takeData hstate hne)
  | case6 u src hne hstate ih => exact ih (h.skipTrailer hstate hne)

theorem Uploading.processAll {whole : Bytes} {u : Upload} {reads : List Bytes} {rest : Bytes}
    (h : Uploading whole u (reads.flatten ++ rest)) :
    ∃ u', u.processAll reads = some u' ∧ Uploading whole u' rest := by
  induction reads generalizing u with
  | nil => exact ⟨u, rfl, h⟩
  | cons read reads ih =>
    rw [List.flatten_cons, List.append_assoc] at h
    obtain ⟨u₁, hread, hu₁⟩ := h.read
    obtain ⟨u₂, hreads, hu₂⟩ := ih hu₁
    refine ⟨u₂, ?_, hu₂⟩
    rw [Upload.processAll, process, if_neg (by simp [h.running]), if_pos h.chunked, hread,
      Option.bind_some, hreads]

theorem uploading_create (chunks : List Chunk) (last : LastChunk) :
    Uploading (payload chunks) (uploadCreate true) (chunkedBody chunks last) :=
  ⟨rfl, rfl, [], payload chunks, holds_uploadCreate true,
    waits_body rfl rfl (Or.inl rfl) chunks last, rfl⟩

/-- **The payload reaches the storage layer, however the body is cut.**  A plain body: the reads,
one after the other.  An `aws-chunked` body: the data of its chunks. -/
theorem complete_processAll (md5 : Bytes → Vector UInt8 16) :
    (∀ reads : List Bytes, ∃ u, (uploadCreate false).processAll reads = some u ∧
      u.complete md5 = some ⟨reads.flatten, formatEtag (md5 reads.flatten)⟩) ∧
    ∀ (chunks : List Chunk) (last : LastChunk) (reads : List Bytes),
      reads.flatten = chunkedBody chunks last → ∃ u, (uploadCreate true).processAll reads = some u ∧
        u.complete md5 = some ⟨payload chunks, formatEtag (md5 (payload chunks))⟩ := by
  refine ⟨fun reads => ?_, fun chunks last reads hcut => ?_⟩
  · obtain ⟨u, hall, hholds, hrunning⟩ := processAll_plain rfl rfl (holds_uploadCreate false) reads
    exact ⟨u, hall, hholds.complete hrunning md5⟩
  · have hstart := uploading_create chunks last
    rw [← hcut, ← List.append_nil reads.flatten] at hstart
    obtain ⟨u, hall, hu⟩ := hstart.processAll
    obtain ⟨got, left, hgot, hwaits, hwhole⟩ := hu.waits
    obtain rfl := hwaits.left_eq_nil rfl
    rw [List.append_nil] at hwhole
    exact ⟨u, hall, hwhole ▸ hgot.complete hu.running md5⟩

/-- `3;x` and three bytes. -/
def threeByteChunk : Chunk where
  header := ⟨[51], [59, 120], by decide, List.forall_mem_singleton.mpr (by decide), by simp,
    by decide, by decide⟩
  data := [97, 98, 99]
  data_ne_nil := by decide
  length_lt := by decide
  value_eq := by decide

/-- `0`, without an extension. -/
def zeroChunk : LastChunk where
  header := ⟨[48], [], by decide, List.forall_mem_singleton.mpr (by decide), by simp, by decide,
    by decide⟩
  value_eq := by decide

/-- A body cut after the CR of every line and inside the data. -/
theorem complete_processAll_cut_lines :
    List.flatten [[51, 59, 120, 13], [10, 97], [98, 99, 13], [10, 48, 13], [10, 13], [10]] =
      chunkedBody [threeByteChunk] zeroChunk ∧
    ∃ u, (uploadCreate true).processAll
        [[51, 59, 120, 13], [10, 97], [98, 99, 13], [10, 48, 13], [10, 13], [10]] = some u ∧
      (u.complete fun _ => Vector.replicate 16 0).map Completed.objectData =
        some [97, 98, 99] := by
  have hcut : List.flatten [[51, 59, 120, 13], [10, 97], [98, 99, 13], [10, 48, 13],
      [10, 13], [10]] = chunkedBody [threeByteChunk] zeroChunk := by decide
  obtain ⟨u, hall, hcomplete⟩ := (complete_processAll fun _ => Vector.replicate 16 0).2 _ _ _ hcut
  exact ⟨hcut, u, hall, by rw [hcomplete]; rfl⟩

end Upload

end Buckets
