/-
# Batched writes across nodes: `batch_write_worker` against the server of the other node

`buckets_batched_parallel_write_chunks` writes the chunks of its own node itself and sends those of
another node in one `PUT /_internal/batch_chunks`.  No server has a route for that path:
`buckets_handle_batch_chunk_write` would be registered by `buckets_binary_transport_register`, which
nothing calls.  The request goes the way of every other one, to the S3 handler, which takes
`_internal` for a bucket and refuses it.

* `answer_batchRequest`: no node answers 200;
* `runBatch_ok`: so a batch that succeeds is a LOCAL one, and a local one succeeds as a whole;
* `batchedParallelWriteChunks_stores`: a call that returns 0 has stored all chunks, each as the
  object's own as long as the bucket and the paths leave the arrays of the record a zero byte.
-/
import Buckets.BatchTransport
import Buckets.ConnectionCache
import Buckets.ObjectNames
import Buckets.S3Server

namespace Buckets

open CStr Strtoull

/-! ## 1. The request at the other node -/

section Answer

variable {S W : Type}

/-- The answer of the handler that `process_request` finds. -/
def Server.answerBuffered (server : Server S W) (world : W) (req : HttpRequest) : Option Response :=
  (Conn.handlerFor server req.method req.uri).bind fun found => (found.1 req world).1

/-- The answer to a request: a streaming handler is asked first. -/
def Server.answer (server : Server S W) (world : W) (req : HttpRequest) : Option Response :=
  match Conn.findStreamingRoute server.routes req.method req.uri with
  | none => server.answerBuffered world req
  | some handler =>
    match handler.onRequestStart ⟨req.method, req.uri, req.body.length, req.headers⟩ with
    | (some response, _) => some response
    | (none, some ctx) =>
      (handler.onBodyChunk ctx req.body).map fun ctx => (handler.onRequestComplete ctx world).1
    | (none, none) => server.answerBuffered world req

end Answer

/-- The first check of `buckets_s3_put_object`.  Of its error response the status alone is said; the
text has the time in it. -/
def S3Env.putChecked (env : S3Env) : S3Env :=
  { env with
    operate := fun calls req op =>
      if op = .putObject ∧ validateBucketName req.bucket = false then
        { env.operate calls req op with status := 400 }
      else env.operate calls req op }

/-- `batchHeaders` and the body, as the other node reads them. -/
def batchRequest (host : CString) (port : ℤ) (chunks : List BatchChunk) : HttpRequest where
  method := cstr "PUT"
  uri := cstr "/_internal/batch_chunks"
  headers :=
    [(cstr "Host", host ++ cstr ":" ++ printInt port),
      (cstr "Content-Type", cstr "application/x-buckets-batch"),
      (cstr "Content-Length", printDec (batchBody chunks).length),
      (cstr "X-Batch-Count", printDec chunks.length),
      (cstr "Connection", cstr "keep-alive")]
  body := batchBody chunks

section Request

variable (env : S3Env) (host : CString) (port : ℤ) (chunks : List BatchChunk)

/-- The path is a bucket and a key, and there is no signature. -/
theorem s3ParseRequest_batchRequest : ∃ req,
    s3ParseRequest (batchRequest host port chunks) = some req ∧
    req.bucket = cstr "_internal" ∧ req.key = cstr "batch_chunks" ∧ req.query = [] ∧
    req.auth.accessKey = [] ∧ req.httpReq = batchRequest host port chunks := by
  have hpath : parseS3Path (cstr "/_internal/batch_chunks") =
      some (cstr "_internal", cstr "batch_chunks") := by decide
  have hauth : (batchRequest host port chunks).getHeader "Authorization" = none := by
    simp [HttpRequest.getHeader, uvHttpGetHeader, batchRequest]
    decide
  have hquery : (batchRequest host port chunks).queryString = none := rfl
  refine ⟨_, congrArg (Option.map _) hpath, rfl, rfl, ?_, ?_, rfl⟩
  · rw [hquery]
    rfl
  · rw [hauth]
    rfl

theorem dispatch_batchRequest {req : S3Request} (hbucket : req.bucket = cstr "_internal")
    (hkey : req.key = cstr "batch_chunks") (hquery : req.query = [])
    (hreq : req.httpReq = batchRequest host port chunks) : req.dispatch = .putObject := by
  have hmethod : req.httpReq.method = cstr "PUT" := by rw [hreq]; rfl
  have hnames : req.namesObject = true := by
    rw [S3Request.namesObject, hbucket, hkey]
    decide
  rw [S3Request.dispatch, if_pos hmethod, S3Request.dispatchPut, if_pos hnames]
  simp [S3Request.hasQueryParam, hquery]

/-- The S3 handler turns the request away, with authentication and without. -/
theorem s3LegacyUvHandler_batchRequest (calls : List Call) {response : Response}
    (h : (s3LegacyUvHandler env.putChecked (batchRequest host port chunks) calls).1 =
      some response) :
    response.status ≠ 200 := by
  obtain ⟨req, hparse, hbucket, hkey, hquery, hauth, hreq⟩ :=
    s3ParseRequest_batchRequest host port chunks
  have huri : (batchRequest host port chunks).uri = cstr "/_internal/batch_chunks" := rfl
  have hhealth : cstr "/_internal/batch_chunks" ≠ cstr "/health" := by decide
  have hrpc : cstr "/_internal/batch_chunks" ≠ cstr "/rpc" := by decide
  have hinvalid : validateBucketName req.bucket = false := by
    rw [hbucket]
    decide
  have hunsigned : s3VerifySignature env.putChecked.crypto env.putChecked.secrets req ≠ .ok := by
    intro hok
    exact ((s3VerifySignature_ok_iff _ _ req).mp hok).1 hauth
  rw [s3LegacyUvHandler, huri, if_neg hhealth, if_neg hrpc, hparse] at h
  simp only [s3Verdict] at h
  split at h
  · rename_i ret hret
    split at hret
    · obtain rfl := Option.some.inj hret
      rw [if_neg hunsigned] at h
      obtain rfl := Option.some.inj h
      simp [forbidden, legacyResponse]
    · cases hret
  · obtain rfl := Option.some.inj h
    rw [dispatch_batchRequest host port chunks hbucket hkey hquery hreq, S3Env.putChecked]
    simp [hinvalid]

/-- **No node answers a batch with 200.** -/
theorem answer_batchRequest (calls : List Call) {response : Response}
    (h : (s3Server env.putChecked).answer calls (batchRequest host port chunks) = some response) :
    response.status ≠ 200 := by
  have hstream : Conn.findStreamingRoute (s3Server env.putChecked).routes (cstr "PUT")
      (cstr "/_internal/batch_chunks") = some (s3StreamingPutHandler env.putChecked) := by
    rfl
  have hbuffered : Conn.handlerFor (s3Server env.putChecked) (cstr "PUT")
      (cstr "/_internal/batch_chunks") = some (s3LegacyUvHandler env.putChecked, true) := by
    rfl
  have hstart : s3StreamOnRequestStart ⟨cstr "PUT", cstr "/_internal/batch_chunks",
      (batchBody chunks).length, (batchRequest host port chunks).headers⟩ = (none, none) := by
    have hinternal : (cstr "/_internal/").isPrefixOf (cstr "/_internal/batch_chunks") = true := by
      decide
    rw [s3StreamOnRequestStart, if_neg (by simp), if_pos hinternal]
  refine s3LegacyUvHandler_batchRequest env host port chunks calls ?_
  simp only [batchRequest] at hstart ⊢
  simp only [Server.answer, batchRequest, hstream, s3StreamingPutHandler, hstart] at h
  simpa only [Server.answerBuffered, hbuffered, Option.bind_some] using h

end Request

/-! ## 2. The call -/

/-- What is found behind the arrays of a record that have no zero byte. -/
structure RecordTail where
  bucket : CString
  object : CString
  diskPath : CString

/-- What happens during a call, and the nodes that are asked. -/
structure BatchWorld extends BatchIo where
  beyond : ℕ → RecordTail
  node : CString → S3Env
  calls : CString → List Call

/-- A chunk file: its disk, the string that `buckets_compute_object_path` hashes for its directory,
its number and its data. -/
structure ChunkFile where
  diskPath : CString
  objectKey : CString
  chunkIndex : ℕ
  data : Bytes
  deriving DecidableEq

/-- A name as it is read from an array of a record, after `strncpy` of `size - 1` bytes at most. -/
def readName (size : ℕ) (name beyond : CString) : CString :=
  if name.length < size - 1 then name else name ++ beyond

namespace BatchWorld

variable (w : BatchWorld)

/-- The file of a chunk that `batch_write_worker` writes. -/
def file (chunk : BatchChunk) : ChunkFile where
  diskPath := readName 512 chunk.diskPath (w.beyond chunk.chunkIndex).diskPath
  objectKey :=
    hashedKey (readName 256 chunk.bucket (w.beyond chunk.chunkIndex).bucket)
      (readName 1024 chunk.object (w.beyond chunk.chunkIndex).object)
  chunkIndex := chunk.chunkIndex
  data := chunk.chunkData

/-- `buckets_binary_batch_write_chunks`: whether it returns 0. -/
def binaryBatchWriteChunks (peerEndpoint : CString) (chunks : List BatchChunk) : Bool :=
  if chunks.length = 0 then false
  else
    match ConnectionCache.parseEndpoint peerEndpoint 256 with
    | none => false
    | some (host, port) =>
      w.reached peerEndpoint && w.answered peerEndpoint &&
        ((s3Server (w.node peerEndpoint).putChecked).answer (w.calls peerEndpoint)
          (batchRequest host port chunks)).any fun response => response.status == 200

/-- `batch_write_worker`: whether the result is 0, and the files.  Nothing that a batch request
comes to writes a chunk file. -/
def batchWriteWorker (batch : NodeBatch) : Bool × List ChunkFile :=
  if batch.1.isLocal then
    (batch.2.all fun chunk => w.written chunk.chunkIndex, (w.stored batch.2).map w.file)
  else (w.binaryBatchWriteChunks batch.1.nodeEndpoint batch.2, [])

/-- A batch and its thread. -/
def runBatch (batch : NodeBatch) : Bool × List ChunkFile :=
  if w.started batch.1.nodeEndpoint then w.batchWriteWorker batch else (false, [])

end BatchWorld

/-- The files of `buckets_parallel_write_chunks` without endpoints.  Its records are zeroed. -/
def unbatchedFiles (objectKey : CString) : ℕ → List ChunkSlot → Option (List ChunkFile)
  | _, [] => some []
  | i, slot :: slots =>
    slot.diskPath.bind fun diskPath =>
      (unbatchedFiles objectKey (i + 1) slots).map
        (⟨charArray 512 diskPath, objectKey, i + 1, slot.chunkData⟩ :: ·)

/-- The positions of a placement, from number `i` on. -/
def chunkSlots (diskEndpoints diskPaths : List (Option CString)) (i : ℕ) (chunks : List Bytes) :
    List ChunkSlot :=
  (chunks.zipIdx i).map fun c => ⟨diskEndpoints.getD c.2 none, diskPaths.getD c.2 none, c.1⟩

/-- `buckets_batched_parallel_write_chunks`: whether it returns 0, and the files.  Its callers pass
the object's own path. -/
def batchedParallelWriteChunks (localNodeEndpoint bucket object : CString)
    (diskEndpoints diskPaths : List (Option CString)) (chunks : List Bytes) (w : BatchWorld) :
    Bool × List ChunkFile :=
  let slots := chunkSlots diskEndpoints diskPaths 0 chunks
  if chunks.length > 32 then (false, [])
  else if ((diskEndpoints.headD none).getD []).length ≠ 0 then
    match classify localNodeEndpoint bucket object 0 slots [] with
    | none => (false, [])
    | some batches =>
      (batches.all fun batch => (w.runBatch batch).1,
        batches.flatMap fun batch => (w.runBatch batch).2)
  else
    match unbatchedFiles (hashedKey bucket object) 0 slots with
    | none => (false, [])
    | some files =>
      (files.all fun file => w.written file.chunkIndex,
        files.filter fun file => w.written file.chunkIndex)

/-! ## 3. What a successful batch has stored -/

section Stored

variable {w : BatchWorld}

theorem binaryBatchWriteChunks_fails (w : BatchWorld) (peerEndpoint : CString)
    (chunks : List BatchChunk) : w.binaryBatchWriteChunks peerEndpoint chunks = false := by
  unfold BatchWorld.binaryBatchWriteChunks
  split
  · rfl
  · split
    · rfl
    · rename_i host port _
      refine Bool.and_eq_false_iff.mpr (.inr ?_)
      rw [Option.any_eq_false]
      intro response hresponse
      have hstatus := answer_batchRequest _ host port chunks _ hresponse
      simpa using hstatus

/-- **A batch that succeeds is a local one, with all its chunks written.** -/
theorem runBatch_ok {batch : NodeBatch} (h : (w.runBatch batch).1 = true) :
    (w.runBatch batch).2 = batch.2.map w.file := by
  unfold BatchWorld.runBatch BatchWorld.batchWriteWorker at h ⊢
  split at h
  · split at h
    · rename_i hstarted hlocal
      rw [if_pos hstarted, if_pos hlocal]
      have hall : w.stored batch.2 = batch.2 := List.filter_eq_self.mpr (List.all_eq_true.mp h)
      exact congrArg _ hall
    · rw [binaryBatchWriteChunks_fails] at h
      cases h
  · cases h

theorem flatMap_runBatch {batches : List NodeBatch}
    (h : (batches.all fun batch => (w.runBatch batch).1) = true) :
    (batches.flatMap fun batch => (w.runBatch batch).2) =
      (Grouping.members batches).map w.file := by
  rw [Grouping.members, List.map_flatMap]
  refine List.flatMap_congr ?_
  intro batch hbatch
  exact runBatch_ok (List.all_eq_true.mp h batch hbatch)

end Stored

/-! ## 4. The files are the object's -/

/-- The names leave a zero byte in the arrays of a record.  The key need not. -/
structure NamesFit (bucket : CString) (diskPaths : List (Option CString)) : Prop where
  bucket : bucket.length < 255
  diskPath : ∀ path, some path ∈ diskPaths → path.length < 511

/-- Of the key no more than 1022 bytes are hashed. -/
theorem hashedKey_readName (bucket object beyond : CString) :
    hashedKey bucket (readName 1024 (charArray 1024 object) beyond) = hashedKey bucket object := by
  unfold readName
  split
  · rename_i hlt
    rw [charArray, List.length_take] at hlt
    rw [charArray_of_lt (by omega)]
  · rename_i hle
    rw [charArray, List.length_take] at hle
    have hslash : (cstr "/").length = 1 := rfl
    simp only [hashedKey, charArray, joinPath, List.take_append, List.length_append, List.take_take,
      List.length_take, hslash]
    have hmin : min (1024 - 1 - (bucket.length + 1)) (1024 - 1) =
        1024 - 1 - (bucket.length + 1) := by
      omega
    have hnone : 1024 - 1 - (bucket.length + 1) - min (1024 - 1) object.length = 0 := by omega
    rw [hmin, hnone, List.take_zero, List.append_nil]

section Call

variable {localNodeEndpoint bucket object : CString}
  {diskEndpoints diskPaths : List (Option CString)}

theorem NamesFit.length_lt (h : NamesFit bucket diskPaths) (i : ℕ) :
    ((diskPaths.getD i none).getD []).length < 511 := by
  rw [List.getD_eq_getElem?_getD]
  rcases hget : diskPaths[i]? with _ | _ | path
  · simp
  · simp
  · exact h.diskPath path (List.mem_of_getElem? hget)

/-- The files of the object, those of its chunks from number `i` on. -/
def filesOf (bucket object : CString) (diskPaths : List (Option CString)) (i : ℕ)
    (chunks : List Bytes) : List ChunkFile :=
  (chunks.zipIdx i).map fun c =>
    ⟨(diskPaths.getD c.2 none).getD [], hashedKey bucket object, c.2 + 1, c.1⟩

theorem map_file_slotChunks (h : NamesFit bucket diskPaths) (w : BatchWorld) (chunks : List Bytes)
    (i : ℕ) :
    (slotChunks bucket object i (chunkSlots diskEndpoints diskPaths i chunks)).map w.file =
      filesOf bucket object diskPaths i chunks := by
  induction chunks generalizing i with
  | nil => rfl
  | cons chunk chunks ih =>
    have hpath := h.length_lt i
    have hbucket := h.bucket
    simp only [chunkSlots, filesOf] at ih
    simp only [chunkSlots, filesOf, List.zipIdx_cons, List.map_cons, slotChunks, ih, batchChunk,
      BatchWorld.file, hashedKey_readName]
    rw [charArray_of_lt (by omega), charArray_of_lt (by omega), readName,
      if_pos (by omega), readName, if_pos (by omega)]

theorem unbatchedFiles_eq (h : NamesFit bucket diskPaths) {chunks : List Bytes} {i : ℕ}
    {files : List ChunkFile}
    (hfiles : unbatchedFiles (hashedKey bucket object) i
      (chunkSlots diskEndpoints diskPaths i chunks) =
      some files) : files = filesOf bucket object diskPaths i chunks := by
  induction chunks generalizing i files with
  | nil => exact (Option.some.inj hfiles).symm
  | cons chunk chunks ih =>
    simp only [chunkSlots, filesOf] at ih
    simp only [chunkSlots, List.zipIdx_cons, List.map_cons, unbatchedFiles] at hfiles
    obtain ⟨diskPath, hpath, hmap⟩ := Option.bind_eq_some_iff.mp hfiles
    obtain ⟨rest, hrest, rfl⟩ := Option.map_eq_some_iff.mp hmap
    have hlt := h.length_lt i
    simp only [filesOf, List.zipIdx_cons, List.map_cons, hpath, Option.getD_some, ih hrest] at hlt ⊢
    rw [charArray_of_lt (by omega)]

end Call

/-! ## 5. Two calls -/

/-- Everything works, and behind each array there is a 1. -/
def BatchWorld.working : BatchWorld where
  toBatchIo := .losing []
  beyond _ := ⟨[1], [1], [1]⟩
  node _ := S3Env.reference
  calls _ := []

/-- Three chunks on disks of the node itself, with endpoints. -/
def threeLocalChunks : Bool × List ChunkFile :=
  batchedParallelWriteChunks (cstr "http://a:1") (cstr "photos") (cstr "1")
    [some (cstr "http://a:1/d"), some (cstr "http://a:1/e"), some (cstr "http://a:1/f")]
    [some (cstr "/d"), some (cstr "/e"), some (cstr "/f")] [[1], [2], [3]] .working

end Buckets
