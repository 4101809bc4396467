/-
# `net/uv_server.c`: TLS connections

A connection of a server with TLS has an OpenSSL session between two memory BIOs.  `on_read` hands
its bytes to `process_tls_data`, which completes the handshake, decrypts, and runs llhttp over what
was decrypted.  Two things are then left undone that the plain branch of `on_read` does, or that
the write path needs:

* `process_request` is called by the PLAIN branch only.  A request that was decrypted sets
  `message_complete`, and nobody looks at it.  Streaming handlers alone are called, from the
  callbacks of the parser.
* `uv_http_response_write` is the ONE function that goes through `SSL_write`.  The header of every
  response, the `100 Continue`, the answer to a timeout and a buffered response go to `uv_write` or
  `uv_try_write` as they are.

So a TLS connection keeps what it promises as long as it serves NOTHING (`tls_run_iff`): no request
is completed, none expects `100-continue`, no handler answers early, no timeout is answered.

OpenSSL and llhttp are outside the model.  A read comes with what `SSL_do_handshake` and the
`SSL_read`s make of its bytes, a decrypted block with the callbacks llhttp makes for it, and
`ssl n data` is what `SSL_write` number `n` makes of `data`.
-/
import Buckets.Server

namespace Buckets

namespace TlsConn

open CStr Conn

/-! ## 1. The connection -/

/-- What `uv_write` or `uv_try_write` is given. -/
inductive Handed where
  /-- Bytes that were read from the write BIO. -/
  | record (bytes : Bytes)
  /-- Anything else. -/
  | clear (w : Written)
  deriving DecidableEq, Repr

/-- The request that is being decrypted, by the callbacks of the parser alone. -/
structure Heard where
  request : StreamRequest
  name : CString
  value : CString
  deriving DecidableEq, Repr

namespace Heard

def start : Heard where
  request := { method := initialMethod, url := [], contentLength := 0, headers := [] }
  name := []
  value := []

def callback (h : Heard) : Callback → Heard
  | .messageBegin => start
  | .methodComplete method => { h with request := { h.request with method := method } }
  | .url data => { h with request := { h.request with url := h.request.url ++ data } }
  | .headerField data => { h with name := h.name ++ data }
  | .headerValue data => { h with value := h.value ++ data }
  | .headerValueComplete =>
    { request := { h.request with headers := h.request.headers ++ [(h.name, h.value)] }
      name := []
      value := [] }
  | .headersComplete contentLength _ =>
    { h with request := { h.request with contentLength := contentLength } }
  | .body _ => h
  | .messageComplete => h

end Heard

/-- `SSL_do_handshake`: 1, an error that asks for more, or another error. -/
inductive Handshake where
  | done
  | wants
  | failed
  deriving DecidableEq, Repr

/-- An `SSL_read` that returned data. -/
structure Block where
  callbacks : List Callback
  parsed : Bool
  /-- What it left in the write BIO. -/
  reply : Bytes

/-- What OpenSSL makes of the bytes of one read. -/
structure TlsRead where
  handshake : Handshake
  /-- What the handshake leaves in the write BIO. -/
  flight : Bytes
  blocks : List Block
  /-- What the last `SSL_read`, without data, leaves in the write BIO. -/
  reply : Bytes
  /-- Whether its error is one that `process_tls_data` accepts. -/
  sslOk : Bool

inductive TlsEvent where
  | read (r : TlsRead)
  | eof
  | timeout
  | work
  | afterWork
  | written (ok : Bool)

/-- `SSL_write`: whether `uv_http_response_write` goes on to flush, and what is left in the write
BIO. -/
abbrev SslWrite := ℕ → Bytes → Bool × Bytes

end TlsConn

/-- `uv_http_conn_t` with `conn->ssl` set, and the history the property is about. -/
structure TlsConn (S W : Type) where
  conn : Conn S W
  handshakeComplete : Bool
  writeBio : Bytes
  /-- The calls of `SSL_write` so far. -/
  sslWrites : ℕ
  /-- Everything the stream was given, the oldest first. -/
  handed : List TlsConn.Handed
  heard : TlsConn.Heard
  /-- The requests that were decrypted to their end. -/
  completed : List StreamRequest
  /-- The requests that a handler was called for. -/
  dispatched : List StreamRequest

namespace TlsConn

open CStr Conn

variable {S W : Type}

def create (world : W) : TlsConn S W where
  conn := .create world
  handshakeComplete := false
  writeBio := []
  sslWrites := 0
  handed := []
  heard := .start
  completed := []
  dispatched := []

/-- A function of the source that does not look at `conn->ssl` and adds to the writes: what it adds
is given to the stream as it is. -/
def inClear (f : Conn S W → Conn S W) (c : TlsConn S W) : TlsConn S W :=
  { c with
    conn := f c.conn
    handed := c.handed ++ ((f c.conn).wire.drop c.conn.wire.length ++
      (f c.conn).queue.drop c.conn.queue.length).map .clear }

/-! ### Responses -/

/-- The buffer of `tls_flush_write_bio`. -/
def flushSize : ℕ := 16384

/-- `BIO_read` and `uv_write`. -/
def handRecord (c : TlsConn S W) : TlsConn S W :=
  let record := c.writeBio.take flushSize
  { c with
    writeBio := c.writeBio.drop flushSize
    conn := { c.conn with queue := c.conn.queue ++ [.data record] }
    handed := c.handed ++ [.record record] }

/-- The loop of `tls_flush_write_bio`.  A stream that cannot be written loses what was read. -/
def flushLoop : ℕ → TlsConn S W → TlsConn S W
  | 0, c => c
  | fuel + 1, c =>
    if c.writeBio.length = 0 then c
    else if c.conn.validForWrite = false then { c with writeBio := c.writeBio.drop flushSize }
    else flushLoop fuel c.handRecord

/-- `tls_flush_write_bio`.  Every round takes at least one byte. -/
def tlsFlushWriteBio (c : TlsConn S W) : TlsConn S W := flushLoop c.writeBio.length c

/-- `uv_http_response_write`. -/
def responseWrite (ssl : SslWrite) (c : TlsConn S W) (data : Bytes) :
    TlsConn S W :=
  if data.length = 0 then c
  else if c.conn.asyncWork.isSome || !c.handshakeComplete then
    c.inClear fun conn => conn.responseWrite data
  else if c.conn.validForWrite = false then c
  else
    let out := ssl c.sslWrites data
    let c := { c with sslWrites := c.sslWrites + 1, writeBio := c.writeBio ++ out.2 }
    if out.1 then c.tlsFlushWriteBio else c

/-- The calls a handler makes to send a response. -/
def respond (ssl : SslWrite) (c : TlsConn S W) (r : Response) : TlsConn S W :=
  let c := r.writes.foldl (responseWrite ssl) (c.inClear fun conn => conn.responseStart r)
  if r.ended then { c with conn := c.conn.responseEnd } else c

def respondIfAny (ssl : SslWrite) (c : TlsConn S W) :
    Option Response → TlsConn S W
  | none => c
  | some r => c.respond ssl r

/-! ### Callbacks of the parser -/

/-- What becomes of `on_request_start`. -/
def takeStart (ssl : SslWrite) (c : TlsConn S W) (handler : StreamHandler S W)
    (out : Option Response × Option S) : TlsConn S W :=
  let c := c.respondIfAny ssl out.1
  match out.2 with
  | none => { c with conn := { c.conn with streamingRoute := none } }
  | some ctx =>
    { c with conn := { c.conn with streamingRoute := some handler, streamCtx := some ctx } }

/-- The part of `on_headers_complete` that looks for a streaming handler. -/
def startStream (server : Server S W) (ssl : SslWrite) (c : TlsConn S W) :
    TlsConn S W :=
  match findStreamingRoute server.routes c.conn.method c.conn.url with
  | none => c
  | some handler => c.takeStart ssl handler (handler.onRequestStart c.conn.streamRequest)

/-- `on_headers_complete`. -/
def onHeadersComplete (server : Server S W) (ssl : SslWrite) (c : TlsConn S W)
    (contentLength : ℕ) (http11 : Bool) : TlsConn S W :=
  startStream server ssl (c.inClear fun conn => conn.headersRead contentLength http11)

/-- `on_request_complete`, and what follows it. -/
def finishStream (ssl : SslWrite) (c : TlsConn S W)
    (handler : StreamHandler S W) : TlsConn S W :=
  let c := { c with dispatched := c.dispatched ++ [c.conn.streamRequest] }
  match c.conn.streamCtx with
  | none => { c with conn := { c.conn with streamingRoute := none } }
  | some ctx =>
    let out := handler.onRequestComplete ctx c.conn.world
    let c := { c with conn := { c.conn with world := out.2 } }.respond ssl out.1
    { c with conn := { c.conn with streamCtx := none, streamingRoute := none } }

def finishMessage (ssl : SslWrite) (c : TlsConn S W) : TlsConn S W :=
  match c.conn.streamingRoute with
  | some handler => c.finishStream ssl handler
  | none => c

/-- `on_message_complete`. -/
def onMessageComplete (ssl : SslWrite) (c : TlsConn S W) : TlsConn S W :=
  let c := { c with
    conn := { c.conn with timer := false, state := .processing }
    completed := c.completed ++ [c.heard.request] }
  let c := c.finishMessage ssl
  { c with conn := { c.conn with messageComplete := true } }

/-- One callback, and whether it returned 0. -/
def callback (server : Server S W) (ssl : SslWrite) (c : TlsConn S W) :
    Callback → TlsConn S W × Bool
  | .headersComplete contentLength http11 =>
    (onHeadersComplete server ssl c contentLength http11, true)
  | .messageComplete => (c.onMessageComplete ssl, true)
  | cb =>
    -- none of the others writes
    let out := Conn.callback server c.conn cb
    ({ c with conn := out.1 }, out.2)

/-- `llhttp_execute`. -/
def callbacks (server : Server S W) (ssl : SslWrite) (c : TlsConn S W) :
    List Callback → TlsConn S W × Bool
  | [] => (c, true)
  | cb :: cbs =>
    let out := callback server ssl { c with heard := c.heard.callback cb } cb
    if out.2 then callbacks server ssl out.1 cbs else out

/-! ### Reading -/

/-- The loop of `process_tls_data`. -/
def decrypt (server : Server S W) (ssl : SslWrite) (c : TlsConn S W) :
    List Block → TlsConn S W × Bool
  | [] => (c, true)
  | b :: blocks =>
    let out := callbacks server ssl { c with writeBio := c.writeBio ++ b.reply } b.callbacks
    if out.2 && b.parsed then decrypt server ssl out.1 blocks else (out.1, false)

/-- `process_tls_data` after the handshake. -/
def processDecrypted (server : Server S W) (ssl : SslWrite) (c : TlsConn S W)
    (r : TlsRead) : TlsConn S W × Bool :=
  let out := decrypt server ssl c r.blocks
  if out.2 then ({ out.1 with writeBio := out.1.writeBio ++ r.reply }, r.sslOk) else out

/-- `tls_do_handshake`.  When the handshake is over, what it left in the write BIO stays there. -/
def tlsDoHandshake (c : TlsConn S W) (r : TlsRead) : TlsConn S W :=
  let c := { c with writeBio := c.writeBio ++ r.flight }
  match r.handshake with
  | .done => { c with handshakeComplete := true }
  | .wants => c.tlsFlushWriteBio
  | .failed => c

/-- `process_tls_data`. -/
def processTlsData (server : Server S W) (ssl : SslWrite) (c : TlsConn S W)
    (r : TlsRead) : TlsConn S W × Bool :=
  if c.handshakeComplete then processDecrypted server ssl c r
  else
    match r.handshake with
    | .done => processDecrypted server ssl (c.tlsDoHandshake r) r
    | .wants => (c.tlsDoHandshake r, true)
    | .failed => (c.tlsDoHandshake r, false)

/-- `on_read`, with a positive number of bytes.  There is no `process_request` here. -/
def onRead (server : Server S W) (ssl : SslWrite) (c : TlsConn S W)
    (r : TlsRead) : TlsConn S W :=
  let out := processTlsData server ssl { c with conn := c.conn.wake } r
  if out.2 then out.1 else { out.1 with conn := out.1.conn.close }

/-- One event.  A handler in the thread pool buffers its response; the callback after it has no
body to write but that of the buffered response. -/
def step (server : Server S W) (ssl : SslWrite) (c : TlsConn S W) :
    TlsEvent → TlsConn S W
  | .read r => if c.conn.handlesClosing then c else onRead server ssl c r
  | .eof => if c.conn.handlesClosing then c else { c with conn := c.conn.close }
  | .timeout => if c.conn.timer then c.inClear Conn.onTimeout else c
  | .work => { c with conn := c.conn.runWork }
  | .afterWork => c.inClear Conn.afterWork
  | .written ok => { c with conn := c.conn.onWriteComplete ok }

def run (server : Server S W) (ssl : SslWrite) (c : TlsConn S W)
    (events : List TlsEvent) : TlsConn S W :=
  events.foldl (step server ssl) c

/-! ### The property and its condition -/

/-- **What TLS promises.**  The stream was given records only, and the requests a handler was
called for are the requests that were decrypted, each of them once. -/
def Protected (c : TlsConn S W) : Prop :=
  (∀ h ∈ c.handed, ∃ bytes, h = .record bytes) ∧ c.dispatched = c.completed

/-- A callback that makes the server neither write nor owe an answer: no request ends, none expects
`100-continue`, and no streaming handler answers when it is called first. -/
def CalmCallback (server : Server S W) (c : Conn S W) : Callback → Prop
  | .headersComplete contentLength http11 =>
    expectsContinue c.headers = false ∧
      ∀ handler, findStreamingRoute server.routes c.method c.url = some handler →
        (handler.onRequestStart (c.headersRead contentLength http11).streamRequest).1 = none
  | .messageComplete => False
  | _ => True

/-- The callbacks llhttp makes for a block are calm, each in the state it finds. -/
def CalmCallbacks (server : Server S W) (ssl : SslWrite) :
    TlsConn S W → List Callback → Prop
  | _, [] => True
  | c, cb :: cbs =>
    CalmCallback server c.conn cb ∧
      let out := callback server ssl { c with heard := c.heard.callback cb } cb
      (out.2 = true → CalmCallbacks server ssl out.1 cbs)

def CalmBlocks (server : Server S W) (ssl : SslWrite) :
    TlsConn S W → List Block → Prop
  | _, [] => True
  | c, b :: blocks =>
    let c := { c with writeBio := c.writeBio ++ b.reply }
    CalmCallbacks server ssl c b.callbacks ∧
      let out := callbacks server ssl c b.callbacks
      (out.2 && b.parsed → CalmBlocks server ssl out.1 blocks)

/-- An event after which nothing was served.  A timeout is not answered while a record is waiting
to be written. -/
def Calm (server : Server S W) (ssl : SslWrite) (c : TlsConn S W) :
    TlsEvent → Prop
  | .read r =>
    c.conn.handlesClosing = false →
      let c := { c with conn := c.conn.wake }
      if c.handshakeComplete then CalmBlocks server ssl c r.blocks
      else r.handshake = .done → CalmBlocks server ssl (c.tlsDoHandshake r) r.blocks
  | .timeout => c.conn.timer = true → c.conn.handlesClosing = true ∨ c.conn.queue ≠ []
  | _ => True

def CalmRun (server : Server S W) (ssl : SslWrite) :
    TlsConn S W → List TlsEvent → Prop
  | _, [] => True
  | c, e :: events => Calm server ssl c e ∧ CalmRun server ssl (step server ssl c e) events

/-! ## 2. Histories grow

Once something was given to the stream in the clear, or a request was passed over, nothing that
follows makes up for it. -/

variable {server : Server S W} {ssl : SslWrite} {c c' c'' : TlsConn S W}

/-- The stream was given more, and no more requests were dispatched than were completed. -/
structure Grows (c c' : TlsConn S W) : Prop where
  handed : ∀ h ∈ c.handed, h ∈ c'.handed
  count : c.completed.length + c'.dispatched.length ≤ c'.completed.length + c.dispatched.length

theorem Grows.of_eq (hh : c'.handed = c.handed) (hc : c'.completed = c.completed)
    (hd : c'.dispatched = c.dispatched) : Grows c c' :=
  ⟨fun _ h => hh ▸ h, by rw [hc, hd]⟩

theorem Grows.trans (h : Grows c c') (h' : Grows c' c'') : Grows c c'' := by
  refine ⟨fun x hx => h'.handed x (h.handed x hx), ?_⟩
  have h₁ := h.count
  have h₂ := h'.count
  omega

theorem grows_conn (c : TlsConn S W) (conn : Conn S W) : Grows c { c with conn := conn } :=
  .of_eq rfl rfl rfl

theorem grows_heard (c : TlsConn S W) (heard : Heard) : Grows c { c with heard := heard } :=
  .of_eq rfl rfl rfl

theorem grows_writeBio (c : TlsConn S W) (bio : Bytes) : Grows c { c with writeBio := bio } :=
  .of_eq rfl rfl rfl

theorem grows_inClear (f : Conn S W → Conn S W) (c : TlsConn S W) : Grows c (c.inClear f) :=
  ⟨fun _ h => List.mem_append_left _ h, Nat.le_refl _⟩

theorem grows_flushLoop : ∀ (fuel : ℕ) (c : TlsConn S W), Grows c (flushLoop fuel c)
  | 0, _ => .of_eq rfl rfl rfl
  | fuel + 1, c => by
    rw [flushLoop]
    split
    · exact .of_eq rfl rfl rfl
    · split
      · exact .of_eq rfl rfl rfl
      · have hone : Grows c c.handRecord :=
          ⟨fun _ h => List.mem_append_left _ h, Nat.le_refl _⟩
        exact hone.trans (grows_flushLoop fuel _)

theorem grows_responseWrite (c : TlsConn S W) (data : Bytes) :
    Grows c (c.responseWrite ssl data) := by
  unfold responseWrite
  split
  · exact .of_eq rfl rfl rfl
  · split
    · exact grows_inClear _ c
    · split
      · exact .of_eq rfl rfl rfl
      · have hsealed : Grows c { c with
            sslWrites := c.sslWrites + 1
            writeBio := c.writeBio ++ (ssl c.sslWrites data).2 } := .of_eq rfl rfl rfl
        dsimp only
        split
        · exact hsealed.trans (grows_flushLoop _ _)
        · exact hsealed

theorem grows_writes (writes : List Bytes) (c : TlsConn S W) :
    Grows c (writes.foldl (responseWrite ssl) c) := by
  induction writes generalizing c with
  | nil => exact .of_eq rfl rfl rfl
  | cons data writes ih => exact (grows_responseWrite c data).trans (ih _)

/-- After the header, the rest of a response. -/
theorem grows_respond_start (c : TlsConn S W) (r : Response) :
    Grows (c.inClear fun conn => conn.responseStart r) (c.respond ssl r) := by
  unfold respond
  dsimp only
  split
  · exact (grows_writes r.writes _).trans (grows_conn _ _)
  · exact grows_writes r.writes _

theorem grows_respond (c : TlsConn S W) (r : Response) : Grows c (c.respond ssl r) :=
  (grows_inClear _ c).trans (grows_respond_start c r)

theorem grows_respondIfAny (c : TlsConn S W) : ∀ r : Option Response, Grows c (c.respondIfAny ssl r)
  | none => .of_eq rfl rfl rfl
  | some r => grows_respond c r

theorem grows_takeStart_respond (c : TlsConn S W) (handler : StreamHandler S W)
    (out : Option Response × Option S) :
    Grows (c.respondIfAny ssl out.1) (c.takeStart ssl handler out) := by
  unfold takeStart
  dsimp only
  split
  · exact grows_conn _ _
  · exact grows_conn _ _

theorem grows_startStream (c : TlsConn S W) : Grows c (startStream server ssl c) := by
  unfold startStream
  split
  · exact .of_eq rfl rfl rfl
  · exact (grows_respondIfAny c _).trans (grows_takeStart_respond c _ _)

/-- A streaming handler that is called makes up for the request that was completed. -/
theorem count_finishStream (c : TlsConn S W) (handler : StreamHandler S W) :
    (∀ h ∈ c.handed, h ∈ (c.finishStream ssl handler).handed) ∧
      c.completed.length + (c.finishStream ssl handler).dispatched.length ≤
        (c.finishStream ssl handler).completed.length + c.dispatched.length + 1 := by
  unfold finishStream
  dsimp only
  split
  · exact ⟨fun _ h => h, by simp; omega⟩
  · rename_i ctx _
    have h := @grows_respond _ _ ssl
      { c with
        dispatched := c.dispatched ++ [c.conn.streamRequest]
        conn := { c.conn with world := (handler.onRequestComplete ctx c.conn.world).2 } }
      (handler.onRequestComplete ctx c.conn.world).1
    have hcount := h.count
    refine ⟨h.handed, ?_⟩
    simp only [List.length_append, List.length_singleton] at hcount ⊢
    omega

theorem grows_onMessageComplete (c : TlsConn S W) : Grows c (c.onMessageComplete ssl) := by
  unfold onMessageComplete finishMessage
  dsimp only
  split
  · rename_i handler _
    obtain ⟨hh, hc⟩ := @count_finishStream _ _ ssl { c with
      conn := { c.conn with timer := false, state := .processing }
      completed := c.completed ++ [c.heard.request] } handler
    refine ⟨hh, ?_⟩
    simp only [List.length_append, List.length_singleton] at hc ⊢
    omega
  · exact ⟨fun _ h => h, by simp⟩

theorem grows_callback (c : TlsConn S W) (cb : Callback) :
    Grows c (callback server ssl c cb).1 := by
  cases cb with
  | headersComplete contentLength http11 => exact (grows_inClear _ c).trans (grows_startStream _)
  | messageComplete => exact grows_onMessageComplete c
  | _ => exact grows_conn c _

theorem grows_callbacks (cbs : List Callback) (c : TlsConn S W) :
    Grows c (callbacks server ssl c cbs).1 := by
  induction cbs generalizing c with
  | nil => exact .of_eq rfl rfl rfl
  | cons cb cbs ih =>
    have hone : Grows c (callback server ssl { c with heard := c.heard.callback cb } cb).1 :=
      (grows_heard c _).trans (grows_callback _ cb)
    unfold callbacks
    dsimp only
    split
    · exact hone.trans (ih _)
    · exact hone

theorem grows_decrypt (blocks : List Block) (c : TlsConn S W) :
    Grows c (decrypt server ssl c blocks).1 := by
  induction blocks generalizing c with
  | nil => exact .of_eq rfl rfl rfl
  | cons b blocks ih =>
    have hone : Grows c
        (callbacks server ssl { c with writeBio := c.writeBio ++ b.reply } b.callbacks).1 :=
      (grows_writeBio c _).trans (grows_callbacks _ _)
    unfold decrypt
    dsimp only
    split
    · exact hone.trans (ih _)
    · exact hone

theorem grows_processDecrypted_blocks (c : TlsConn S W) (r : TlsRead) :
    Grows (decrypt server ssl c r.blocks).1 (processDecrypted server ssl c r).1 := by
  unfold processDecrypted
  dsimp only
  split
  · exact .of_eq rfl rfl rfl
  · exact .of_eq rfl rfl rfl

theorem grows_tlsDoHandshake (c : TlsConn S W) (r : TlsRead) : Grows c (c.tlsDoHandshake r) := by
  have hflight := grows_writeBio c (c.writeBio ++ r.flight)
  unfold tlsDoHandshake
  dsimp only
  split
  · exact .of_eq rfl rfl rfl
  · exact hflight.trans (grows_flushLoop _ _)
  · exact hflight

theorem grows_processTlsData (c : TlsConn S W) (r : TlsRead) :
    Grows c (processTlsData server ssl c r).1 := by
  have hdecrypted : ∀ d : TlsConn S W, Grows d (processDecrypted server ssl d r).1 :=
    fun d => (grows_decrypt r.blocks d).trans (grows_processDecrypted_blocks d r)
  unfold processTlsData
  split
  · exact hdecrypted c
  · split
    · exact (grows_tlsDoHandshake c r).trans (hdecrypted _)
    · exact grows_tlsDoHandshake c r
    · exact grows_tlsDoHandshake c r

theorem grows_onRead_data (c : TlsConn S W) (r : TlsRead) :
    Grows (processTlsData server ssl { c with conn := c.conn.wake } r).1
      (onRead server ssl c r) := by
  unfold onRead
  dsimp only
  split
  · exact .of_eq rfl rfl rfl
  · exact grows_conn _ _

theorem grows_step (c : TlsConn S W) (e : TlsEvent) : Grows c (step server ssl c e) := by
  cases e with
  | read r =>
    rw [step]
    split
    · exact .of_eq rfl rfl rfl
    · exact ((grows_conn c _).trans (grows_processTlsData _ r)).trans (grows_onRead_data c r)
  | eof =>
    rw [step]
    split
    · exact .of_eq rfl rfl rfl
    · exact grows_conn c _
  | timeout =>
    rw [step]
    split
    · exact grows_inClear _ c
    · exact .of_eq rfl rfl rfl
  | work => exact grows_conn c _
  | afterWork => exact grows_inClear _ c
  | written ok => exact grows_conn c _

theorem grows_run (events : List TlsEvent) (c : TlsConn S W) :
    Grows c (run server ssl c events) := by
  induction events generalizing c with
  | nil => exact .of_eq rfl rfl rfl
  | cons e events ih => exact (grows_step c e).trans (ih _)

/-! ## 3. Connections that have served nothing, and connections that are spoilt -/

/-- No answer was begun, no request is processed, and closing is closing at once. -/
structure Unanswered (c : Conn S W) : Prop where
  notStarted : c.responseStarted = false
  noAsync : c.asyncWork = none
  notFinal : c.pendingFinalWrite = false
  reading : c.state ≠ .processing
  noWrites : c.pendingWrites = 0
  closing : c.state = .closing → c.handlesClosing = true
  context : c.streamingRoute.isSome → c.streamCtx.isSome

structure Quiet (c : TlsConn S W) : Prop where
  unanswered : Unanswered c.conn
  records : ∀ h ∈ c.handed, ∃ bytes, h = .record bytes
  completed : c.completed = []
  dispatched : c.dispatched = []

/-- Something was written in the clear, or a request was passed over. -/
def Spoilt (c : TlsConn S W) : Prop :=
  (∃ w, .clear w ∈ c.handed) ∨ c.dispatched.length < c.completed.length

theorem Spoilt.grows (h : Spoilt c) (hg : Grows c c') : Spoilt c' := by
  obtain ⟨w, hw⟩ | hlt := h
  · exact .inl ⟨w, hg.handed _ hw⟩
  · have hcount := hg.count
    exact .inr (by omega)

theorem Quiet.isProtected (h : Quiet c) : c.Protected :=
  ⟨h.records, h.dispatched.trans h.completed.symm⟩

theorem Spoilt.not_protected (h : Spoilt c) : ¬ c.Protected := by
  rintro ⟨hrecords, hsame⟩
  obtain ⟨w, hw⟩ | hlt := h
  · obtain ⟨bytes, hb⟩ := hrecords _ hw
    cases hb
  · exact absurd (congrArg List.length hsame) (Nat.ne_of_lt hlt)

/-- Where a condition was met nothing was served; where it was not, the connection is spoilt. -/
def Verdict (calm : Prop) (c : TlsConn S W) : Prop := calm ∧ Quiet c ∨ ¬ calm ∧ Spoilt c

theorem Quiet.conn (h : Quiet c) {conn : Conn S W} (hu : Unanswered conn) :
    Quiet { c with conn := conn } :=
  ⟨hu, h.records, h.completed, h.dispatched⟩

/-- A function that adds nothing to the writes. -/
theorem Quiet.inClear (h : Quiet c) {f : Conn S W → Conn S W} (hu : Unanswered (f c.conn))
    (hw : (f c.conn).wire = c.conn.wire) (hq : (f c.conn).queue = c.conn.queue) :
    Quiet (c.inClear f) := by
  refine ⟨hu, ?_, h.completed, h.dispatched⟩
  intro x hx
  simp only [TlsConn.inClear, hw, hq, List.drop_length, List.append_nil, List.map_nil] at hx
  exact h.records x hx

/-- A function that adds to the writes. -/
theorem spoilt_inClear {f : Conn S W → Conn S W} (w : Written)
    (h : (f c.conn).wire = c.conn.wire ++ [w] ∨ (f c.conn).queue = c.conn.queue ++ [w]) :
    Spoilt (c.inClear f) := by
  refine .inl ⟨w, List.mem_append_right _ (List.mem_map_of_mem ?_)⟩
  obtain hw | hq := h
  · exact List.mem_append_left _ (by simp [hw])
  · exact List.mem_append_right _ (by simp [hq])

theorem Unanswered.valid {c : Conn S W} (h : Unanswered c) (hopen : c.handlesClosing = false) :
    c.validForWrite = true := by
  have hstate : c.state ≠ .closing := fun hs => by
    have hclosed := h.closing hs
    rw [hopen] at hclosed
    cases hclosed
  simp [validForWrite, hstate, hopen]

/-- The header of a response is written in the clear. -/
theorem spoilt_respond (hs : c.conn.responseStarted = false) (ha : c.conn.asyncWork = none)
    (hv : c.conn.validForWrite = true) (r : Response) : Spoilt (c.respond ssl r) := by
  have hstart : Spoilt (c.inClear fun conn => conn.responseStart r) := by
    refine spoilt_inClear (.head r.status r.headers r.contentLength c.conn.keepAlive) (.inr ?_)
    simp [responseStart, hs, ha, hv]
  exact hstart.grows (grows_respond_start c r)

/-! ## 4. Callbacks -/

theorem state_head (server : Server S W) {cb : Callback} (hcb : cb.isHead = true) (c : Conn S W) :
    (Conn.callback server c cb).1.state = c.state ∨
      (Conn.callback server c cb).1.state = .readingHeaders := by
  cases cb with
  | messageBegin => exact .inr rfl
  | headerField data =>
    simp only [Conn.callback, onHeaderField]
    split <;> exact .inl rfl
  | headerValue data =>
    simp only [Conn.callback, onHeaderValue]
    split <;> exact .inl rfl
  | headersComplete contentLength http11 => cases hcb
  | body data => cases hcb
  | messageComplete => cases hcb
  | _ => exact .inl rfl

theorem Unanswered.setState {c : Conn S W} (h : Unanswered c) {state : ConnState}
    (hs : state = c.state ∨ state = .readingHeaders ∨ state = .readingBody) :
    Unanswered { c with state := state } := by
  refine ⟨h.notStarted, h.noAsync, h.notFinal, ?_, h.noWrites, ?_, h.context⟩
  · rcases hs with rfl | rfl | rfl
    · exact h.reading
    · exact fun h0 => by cases h0
    · exact fun h0 => by cases h0
  · rcases hs with rfl | rfl | rfl
    · exact h.closing
    · exact fun h0 => by cases h0
    · exact fun h0 => by cases h0

theorem Unanswered.head {c : Conn S W} (h : Unanswered c) {cb : Callback} (hcb : cb.isHead = true) :
    Unanswered (Conn.callback server c cb).1 ∧
      (Conn.callback server c cb).1.handlesClosing = c.handlesClosing := by
  have hstate := h.setState ((state_head server hcb c).imp_right .inl)
  rw [collectsOnly_callback server hcb c]
  exact ⟨⟨hstate.notStarted, hstate.noAsync, hstate.notFinal, hstate.reading, hstate.noWrites,
    hstate.closing, hstate.context⟩, rfl⟩

theorem Unanswered.body {c : Conn S W} (h : Unanswered c) (data : Bytes) :
    Unanswered (c.onBody data).1 ∧ (c.onBody data).1.handlesClosing = c.handlesClosing := by
  unfold onBody
  split
  · split
    · exact ⟨⟨h.notStarted, h.noAsync, h.notFinal, h.reading, h.noWrites, h.closing,
        fun _ => rfl⟩, rfl⟩
    · exact ⟨⟨h.notStarted, h.noAsync, h.notFinal, h.reading, h.noWrites, h.closing,
        fun h0 => by cases h0⟩, rfl⟩
  · exact ⟨⟨h.notStarted, h.noAsync, h.notFinal, h.reading, h.noWrites, h.closing, h.context⟩,
      rfl⟩

theorem Unanswered.headersRead {c : Conn S W} (h : Unanswered c) (contentLength : ℕ)
    (http11 : Bool) : Unanswered (c.headersRead contentLength http11) := by
  have hstate := h.setState (.inr (.inr rfl) : ConnState.readingBody = c.state ∨ _)
  exact ⟨hstate.notStarted, hstate.noAsync, hstate.notFinal, hstate.reading, hstate.noWrites,
    hstate.closing, hstate.context⟩

/-- A streaming handler that does not answer at once. -/
theorem Quiet.takeStart (h : Quiet c) (handler : StreamHandler S W)
    {out : Option Response × Option S} (hout : out.1 = none) :
    Quiet (c.takeStart ssl handler out) ∧
      (c.takeStart ssl handler out).conn.handlesClosing = c.conn.handlesClosing := by
  have hu := h.unanswered
  unfold TlsConn.takeStart
  rw [hout]
  dsimp only [respondIfAny]
  split
  · exact ⟨h.conn ⟨hu.notStarted, hu.noAsync, hu.notFinal, hu.reading, hu.noWrites, hu.closing,
      fun h0 => by cases h0⟩, rfl⟩
  · exact ⟨h.conn ⟨hu.notStarted, hu.noAsync, hu.notFinal, hu.reading, hu.noWrites, hu.closing,
      fun _ => rfl⟩, rfl⟩

theorem verdict_headersComplete (h : Quiet c) (hopen : c.conn.handlesClosing = false)
    (contentLength : ℕ) (http11 : Bool) :
    Verdict (CalmCallback server c.conn (.headersComplete contentLength http11))
        (onHeadersComplete server ssl c contentLength http11) ∧
      (CalmCallback server c.conn (.headersComplete contentLength http11) →
        (onHeadersComplete server ssl c contentLength http11).conn.handlesClosing = false) := by
  set d := c.inClear fun conn => conn.headersRead contentLength http11 with hd
  have hread : Unanswered d.conn := h.unanswered.headersRead contentLength http11
  have hmethod : d.conn.method = c.conn.method ∧ d.conn.url = c.conn.url ∧
    d.conn.handlesClosing = false ∧ d.conn.streamRequest =
      (c.conn.headersRead contentLength http11).streamRequest := ⟨rfl, rfl, hopen, rfl⟩
  obtain ⟨hm, hurl, hdopen, hreq⟩ := hmethod
  have hstart : onHeadersComplete server ssl c contentLength http11 =
      startStream server ssl d := rfl
  rw [hstart]
  by_cases hexpects : expectsContinue c.conn.headers = true
  · -- the interim answer is written in the clear
    have hspoilt : Spoilt d := by
      refine spoilt_inClear (.plain (cstr "HTTP/1.1 100 Continue\r\n\r\n")) (.inr ?_)
      simp [Conn.headersRead, interim, hexpects]
    have hnot : ¬ CalmCallback server c.conn (.headersComplete contentLength http11) := by
      rintro ⟨h0, -⟩
      rw [hexpects] at h0
      cases h0
    exact ⟨.inr ⟨hnot, hspoilt.grows (grows_startStream d)⟩, fun h0 => absurd h0 hnot⟩
  · have hno : expectsContinue c.conn.headers = false := by simpa using hexpects
    have hquiet : Quiet d := by
      refine h.inClear hread rfl ?_
      simp [Conn.headersRead, interim, hno]
    unfold startStream
    rw [hm, hurl]
    cases hfind : findStreamingRoute server.routes c.conn.method c.conn.url with
    | none =>
      refine ⟨.inl ⟨⟨hno, fun handler h0 => ?_⟩, hquiet⟩, fun _ => hdopen⟩
      rw [hfind] at h0
      cases h0
    | some handler =>
      dsimp only
      rw [hreq]
      cases hout : (handler.onRequestStart
          (c.conn.headersRead contentLength http11).streamRequest).1 with
      | none =>
        obtain ⟨hq, hh⟩ := @Quiet.takeStart _ _ ssl _ hquiet handler _ hout
        refine ⟨.inl ⟨⟨hno, fun handler' h0 => ?_⟩, hq⟩, fun _ => hh.trans hdopen⟩
        rw [hfind] at h0
        cases h0
        exact hout
      | some r =>
        -- the handler's answer begins with a header in the clear
        have hnot : ¬ CalmCallback server c.conn (.headersComplete contentLength http11) := by
          rintro ⟨-, h0⟩
          have hnone := h0 handler hfind
          rw [hout] at hnone
          cases hnone
        have hspoilt := @spoilt_respond _ _ ssl d hread.notStarted hread.noAsync
          (hread.valid hdopen) r
        refine ⟨.inr ⟨hnot, Spoilt.grows ?_ (grows_takeStart_respond d handler _)⟩,
          fun h0 => absurd h0 hnot⟩
        rw [hout]
        exact hspoilt

theorem spoilt_finishStream {handler : StreamHandler S W} {ctx : S}
    (hctx : c.conn.streamCtx = some ctx) (hs : c.conn.responseStarted = false)
    (ha : c.conn.asyncWork = none) (hv : c.conn.validForWrite = true) :
    Spoilt (c.finishStream ssl handler) := by
  have hspoilt := @spoilt_respond _ _ ssl { c with
    dispatched := c.dispatched ++ [c.conn.streamRequest]
    conn := { c.conn with world := (handler.onRequestComplete ctx c.conn.world).2 } } hs ha hv
    (handler.onRequestComplete ctx c.conn.world).1
  unfold finishStream
  dsimp only
  split
  · rename_i hnone
    rw [hctx] at hnone
    cases hnone
  · rename_i ctx' hctx'
    obtain rfl : ctx = ctx' := Option.some.inj (hctx.symm.trans hctx')
    exact hspoilt.grows (grows_conn _ _)

/-- **A complete request.**  A streaming handler's answer is written in the clear; any other
request is passed over. -/
theorem spoilt_onMessageComplete (h : Quiet c) (hopen : c.conn.handlesClosing = false) :
    Spoilt (c.onMessageComplete ssl) := by
  have hu := h.unanswered
  unfold onMessageComplete finishMessage
  dsimp only
  split
  · rename_i handler hroute
    obtain ⟨ctx, hctx⟩ := Option.isSome_iff_exists.mp (hu.context (by rw [hroute]; rfl))
    have hfinish : Spoilt (finishStream ssl { c with
        conn := { c.conn with timer := false, state := .processing }
        completed := c.completed ++ [c.heard.request] } handler) :=
      spoilt_finishStream hctx hu.notStarted hu.noAsync (by simp [validForWrite, hopen])
    exact hfinish.grows (grows_conn _ _)
  · exact .inr (by simp [h.completed, h.dispatched])

theorem verdict_callback (h : Quiet c) (hopen : c.conn.handlesClosing = false) (cb : Callback) :
    Verdict (CalmCallback server c.conn cb) (callback server ssl c cb).1 ∧
      (CalmCallback server c.conn cb →
        (callback server ssl c cb).1.conn.handlesClosing = false) := by
  obtain hhead | ⟨contentLength, http11, rfl⟩ | ⟨data, rfl⟩ | rfl := cb.isHead_or
  · obtain ⟨hu, hh⟩ := @Unanswered.head _ _ server _ h.unanswered _ hhead
    have hcalm : CalmCallback server c.conn cb := by
      cases cb with
      | headersComplete contentLength http11 => cases hhead
      | messageComplete => cases hhead
      | _ => trivial
    have hcb : (callback server ssl c cb).1 =
        { c with conn := (Conn.callback server c.conn cb).1 } := by
      cases cb with
      | headersComplete contentLength http11 => cases hhead
      | messageComplete => cases hhead
      | _ => rfl
    rw [hcb]
    exact ⟨.inl ⟨hcalm, h.conn hu⟩, fun _ => hh.trans hopen⟩
  · exact verdict_headersComplete h hopen contentLength http11
  · obtain ⟨hu, hh⟩ := h.unanswered.body data
    exact ⟨.inl ⟨trivial, h.conn hu⟩, fun _ => hh.trans hopen⟩
  · exact ⟨.inr ⟨id, spoilt_onMessageComplete h hopen⟩, False.elim⟩

theorem Quiet.heard (h : Quiet c) (heard : Heard) : Quiet { c with heard := heard } :=
  ⟨h.unanswered, h.records, h.completed, h.dispatched⟩

theorem Quiet.setBio (h : Quiet c) (bio : Bytes) : Quiet { c with writeBio := bio } :=
  ⟨h.unanswered, h.records, h.completed, h.dispatched⟩

/-- Induction on the callbacks: the first that is not calm spoils the connection, and the rest
cannot help it. -/
theorem verdict_callbacks (cbs : List Callback) (h : Quiet c)
    (hopen : c.conn.handlesClosing = false) :
    Verdict (CalmCallbacks server ssl c cbs) (callbacks server ssl c cbs).1 ∧
      (CalmCallbacks server ssl c cbs →
        (callbacks server ssl c cbs).1.conn.handlesClosing = false) := by
  induction cbs generalizing c with
  | nil => exact ⟨.inl ⟨trivial, h⟩, fun _ => hopen⟩
  | cons cb cbs ih =>
    obtain ⟨hone, hstill⟩ := @verdict_callback _ _ server ssl
      { c with heard := c.heard.callback cb } (h.heard _) hopen cb
    unfold callbacks CalmCallbacks
    dsimp only
    obtain ⟨hcalm, hquiet⟩ | ⟨hnot, hspoilt⟩ := hone
    · split
      · rename_i hgo
        obtain ⟨hrest, hopen'⟩ := ih hquiet (hstill hcalm)
        refine ⟨?_, fun h0 => hopen' (h0.2 hgo)⟩
        exact hrest.imp (fun h0 => ⟨⟨hcalm, fun _ => h0.1⟩, h0.2⟩)
          (fun h0 => ⟨fun h1 => h0.1 (h1.2 hgo), h0.2⟩)
      · rename_i hgo
        exact ⟨.inl ⟨⟨hcalm, fun h0 => absurd h0 hgo⟩, hquiet⟩, fun _ => hstill hcalm⟩
    · refine ⟨.inr ⟨fun h0 => hnot h0.1, ?_⟩, fun h0 => absurd h0.1 hnot⟩
      split
      · exact hspoilt.grows (grows_callbacks cbs _)
      · exact hspoilt

theorem verdict_decrypt (blocks : List Block) (h : Quiet c)
    (hopen : c.conn.handlesClosing = false) :
    Verdict (CalmBlocks server ssl c blocks) (decrypt server ssl c blocks).1 := by
  induction blocks generalizing c with
  | nil => exact .inl ⟨trivial, h⟩
  | cons b blocks ih =>
    obtain ⟨hone, hstill⟩ := @verdict_callbacks _ _ server ssl
      { c with writeBio := c.writeBio ++ b.reply } b.callbacks (h.setBio _) hopen
    unfold decrypt CalmBlocks
    dsimp only
    obtain ⟨hcalm, hquiet⟩ | ⟨hnot, hspoilt⟩ := hone
    · split
      · rename_i hgo
        exact (ih hquiet (hstill hcalm)).imp (fun h0 => ⟨⟨hcalm, fun _ => h0.1⟩, h0.2⟩)
          (fun h0 => ⟨fun h1 => h0.1 (h1.2 hgo), h0.2⟩)
      · rename_i hgo
        exact .inl ⟨⟨hcalm, fun h0 => absurd h0 hgo⟩, hquiet⟩
    · refine .inr ⟨fun h0 => hnot h0.1, ?_⟩
      split
      · exact hspoilt.grows (grows_decrypt blocks _)
      · exact hspoilt

/-! ## 5. Events and runs -/

/-- What was taken from the write BIO is a record. -/
theorem Quiet.flushLoop : ∀ (fuel : ℕ) {c : TlsConn S W}, Quiet c → Quiet (flushLoop fuel c)
  | 0, _, h => h
  | fuel + 1, c, h => by
    rw [TlsConn.flushLoop]
    split
    · exact h
    · split
      · exact h.setBio _
      · apply Quiet.flushLoop fuel
        have hu := h.unanswered
        refine ⟨⟨hu.notStarted, hu.noAsync, hu.notFinal, hu.reading, hu.noWrites, hu.closing,
          hu.context⟩, ?_, h.completed, h.dispatched⟩
        intro x hx
        obtain hx | hx := List.mem_append.mp hx
        · exact h.records x hx
        · exact ⟨_, List.mem_singleton.mp hx⟩

theorem Quiet.tlsDoHandshake (h : Quiet c) (r : TlsRead) : Quiet (c.tlsDoHandshake r) := by
  have hflight := h.setBio (c.writeBio ++ r.flight)
  unfold TlsConn.tlsDoHandshake
  dsimp only
  split
  · exact ⟨hflight.unanswered, hflight.records, hflight.completed, hflight.dispatched⟩
  · exact hflight.flushLoop _
  · exact hflight

theorem verdict_processDecrypted (r : TlsRead) (h : Quiet c)
    (hopen : c.conn.handlesClosing = false) :
    Verdict (CalmBlocks server ssl c r.blocks) (processDecrypted server ssl c r).1 := by
  refine (verdict_decrypt r.blocks h hopen).imp (fun h0 => ⟨h0.1, ?_⟩)
    (fun h0 => ⟨h0.1, h0.2.grows (grows_processDecrypted_blocks c r)⟩)
  unfold processDecrypted
  dsimp only
  split
  · exact h0.2.setBio _
  · exact h0.2

theorem Unanswered.wake {c : Conn S W} (h : Unanswered c) : Unanswered c.wake := by
  unfold Conn.wake
  split
  · exact ⟨h.notStarted, h.noAsync, h.notFinal, h.reading, h.noWrites, h.closing, h.context⟩
  · exact ⟨h.notStarted, h.noAsync, h.notFinal, h.reading, h.noWrites, h.closing, h.context⟩
  · have hstate := h.setState (.inr (.inl rfl) : ConnState.readingHeaders = c.state ∨ _)
    exact ⟨hstate.notStarted, hstate.noAsync, hstate.notFinal, hstate.reading, hstate.noWrites,
      hstate.closing, hstate.context⟩
  · exact h
  · exact h

theorem Unanswered.close {c : Conn S W} (h : Unanswered c) : Unanswered c.close := by
  unfold Conn.close
  split
  · exact h
  · rw [if_neg (by rw [h.noWrites]; exact Nat.lt_irrefl 0)]
    exact ⟨h.notStarted, h.noAsync, h.notFinal, ConnState.noConfusion, h.noWrites, fun _ => rfl,
      h.context⟩

theorem Unanswered.onWriteComplete {c : Conn S W} (h : Unanswered c) (ok : Bool) :
    Unanswered (c.onWriteComplete ok) := by
  unfold Conn.onWriteComplete
  cases c.queue with
  | nil => exact h
  | cons w queue =>
    have hended : ∀ ok', Unanswered (c.endWrite w queue ok') := fun ok' =>
      ⟨h.notStarted, h.noAsync, h.notFinal, h.reading, by simp [endWrite, h.noWrites], h.closing,
        h.context⟩
    dsimp only
    split
    · split
      · exact (hended true).close
      · unfold finalWrite
        rw [if_neg (by rw [(hended true).notFinal]; simp)]
        exact hended true
    · exact (hended false).close

theorem verdict_processTlsData (h : Quiet c) (hopen : c.conn.handlesClosing = false) (r : TlsRead) :
    Verdict (if c.handshakeComplete then CalmBlocks server ssl c r.blocks
        else r.handshake = .done → CalmBlocks server ssl (c.tlsDoHandshake r) r.blocks)
      (processTlsData server ssl c r).1 := by
  unfold processTlsData
  split
  · exact verdict_processDecrypted r h hopen
  · have hshake := h.tlsDoHandshake r
    cases hres : r.handshake with
    | done =>
      have hsame : (c.tlsDoHandshake r).conn = c.conn := by simp [TlsConn.tlsDoHandshake, hres]
      refine (verdict_processDecrypted r hshake (by rw [hsame]; exact hopen)).imp
        (fun h0 => ⟨fun _ => h0.1, h0.2⟩) (fun h0 => ⟨fun h1 => h0.1 (h1 rfl), h0.2⟩)
    | wants => exact .inl ⟨Handshake.noConfusion, hshake⟩
    | failed => exact .inl ⟨Handshake.noConfusion, hshake⟩

theorem verdict_read (h : Quiet c) (r : TlsRead) :
    Verdict (Calm server ssl c (.read r)) (step server ssl c (.read r)) := by
  rw [step]
  cases hclosed : c.conn.handlesClosing with
  | true =>
    refine .inl ⟨fun h0 => ?_, h⟩
    rw [hclosed] at h0
    cases h0
  | false =>
    have hwopen : c.conn.wake.handlesClosing = false := by
      unfold Conn.wake
      split <;> exact hclosed
    have hdata := @verdict_processTlsData _ _ server ssl { c with conn := c.conn.wake }
      (h.conn h.unanswered.wake) hwopen r
    refine hdata.imp (fun h0 => ⟨fun _ => h0.1, ?_⟩)
      (fun h0 => ⟨fun h1 => h0.1 (h1 hclosed), h0.2.grows (grows_onRead_data c r)⟩)
    rw [if_neg (by simp)]
    unfold onRead
    dsimp only
    split
    · exact h0.2
    · exact h0.2.conn h0.2.unanswered.close

/-- A timeout that finds the stream idle is answered in the clear. -/
theorem verdict_timeout (h : Quiet c) :
    Verdict (Calm server ssl c .timeout) (step server ssl c .timeout) := by
  have hu := h.unanswered
  rw [step]
  cases htimer : c.conn.timer with
  | false =>
    refine .inl ⟨fun h0 => ?_, h⟩
    rw [htimer] at h0
    cases h0
  | true =>
    rw [if_pos rfl]
    have hstopped : Unanswered { c.conn with timer := false } :=
      ⟨hu.notStarted, hu.noAsync, hu.notFinal, hu.reading, hu.noWrites, hu.closing, hu.context⟩
    have hgo : c.conn.onTimeout =
        (if c.conn.responseStarted = false ∧ c.conn.state ≠ ConnState.closing then
          { c.conn with timer := false }.tryWrite requestTimeout
          else { c.conn with timer := false }).close := by
      unfold Conn.onTimeout
      rw [if_neg (by simp [hu.reading, hu.noAsync])]
    have hclose : ∀ d : Conn S W, d.close.wire = d.wire ∧ d.close.queue = d.queue := by
      intro d
      unfold Conn.close
      split
      · exact ⟨rfl, rfl⟩
      · split <;> exact ⟨rfl, rfl⟩
    by_cases hbusy : c.conn.handlesClosing = true ∨ c.conn.queue ≠ []
    · have htry : { c.conn with timer := false }.tryWrite requestTimeout =
          { c.conn with timer := false } := by
        unfold tryWrite
        rw [if_neg]
        rcases hbusy with hb | hb
        · simp [hb]
        · simp [hb]
      have hsame : c.conn.onTimeout = ({ c.conn with timer := false } : Conn S W).close := by
        rw [hgo, htry, ite_self]
      refine .inl ⟨fun _ => hbusy, h.inClear ?_ ?_ ?_⟩
      · rw [hsame]
        exact hstopped.close
      · rw [hsame, (hclose _).1]
      · rw [hsame, (hclose _).2]
    · have hidle : c.conn.handlesClosing = false ∧ c.conn.queue = [] := by simpa using hbusy
      have hstate : c.conn.state ≠ .closing := fun hs => hbusy (.inl (hu.closing hs))
      refine .inr ⟨fun h0 => hbusy (h0 htimer), spoilt_inClear (.plain requestTimeout) (.inl ?_)⟩
      rw [hgo, if_pos ⟨hu.notStarted, hstate⟩, (hclose _).1]
      simp [tryWrite, hidle]

theorem verdict_step (h : Quiet c) (e : TlsEvent) :
    Verdict (Calm server ssl c e) (step server ssl c e) := by
  cases e with
  | read r => exact verdict_read h r
  | eof =>
    refine .inl ⟨trivial, ?_⟩
    rw [step]
    split
    · exact h
    · exact h.conn h.unanswered.close
  | timeout => exact verdict_timeout h
  | work =>
    refine .inl ⟨trivial, h.conn ?_⟩
    unfold runWork
    rw [h.unanswered.noAsync]
    exact h.unanswered
  | afterWork =>
    have hsame : c.conn.afterWork = c.conn := by
      unfold Conn.afterWork
      rw [h.unanswered.noAsync]
    refine .inl ⟨trivial, h.inClear ?_ ?_ ?_⟩
    · rw [hsame]
      exact h.unanswered
    · rw [hsame]
    · rw [hsame]
  | written ok => exact .inl ⟨trivial, h.conn (h.unanswered.onWriteComplete ok)⟩

theorem verdict_run (events : List TlsEvent) (h : Quiet c) :
    Verdict (CalmRun server ssl c events) (run server ssl c events) := by
  induction events generalizing c with
  | nil => exact .inl ⟨trivial, h⟩
  | cons e events ih =>
    obtain ⟨hcalm, hquiet⟩ | ⟨hnot, hspoilt⟩ := @verdict_step _ _ server ssl c h e
    · exact (ih hquiet).imp (fun h0 => ⟨⟨hcalm, h0.1⟩, h0.2⟩)
        (fun h0 => ⟨fun h1 => h0.1 h1.2, h0.2⟩)
    · exact .inr ⟨fun h0 => hnot h0.1, hspoilt.grows (grows_run events _)⟩

theorem quiet_create (world : W) : Quiet (create world : TlsConn S W) where
  unanswered :=
    ⟨rfl, rfl, rfl, ConnState.noConfusion, rfl, ConnState.noConfusion, Bool.noConfusion⟩
  records _ h := by cases h
  completed := rfl
  dispatched := rfl

/-- **TLS is kept exactly while nothing is served.**  In every run of a connection with TLS, with
any server, any OpenSSL and any client: the stream was given records only and every request that was
decrypted was dispatched once, if and only if every step of the run is calm. -/
theorem tls_run_iff (server : Server S W) (ssl : SslWrite) (world : W) (events : List TlsEvent) :
    (run server ssl (create world) events).Protected ↔
      CalmRun server ssl (create world) events := by
  obtain ⟨hcalm, hquiet⟩ | ⟨hnot, hspoilt⟩ :=
    @verdict_run _ _ server ssl _ events (quiet_create world)
  · exact ⟨fun _ => hcalm, fun _ => hquiet.isProtected⟩
  · exact ⟨fun h => absurd h hspoilt.not_protected, fun h => absurd h hnot⟩

/-! A server with a streaming route for `PUT`, as the S3 server has one, and a default handler. -/

def site : Server Unit Unit where
  routes :=
    [{ method := some (cstr "PUT")
       pathPrefix := cstr "/"
       handler := .streaming
         { onRequestStart := fun _ => (none, some ())
           onBodyChunk := fun _ _ => some ()
           onRequestComplete := fun _ w => (.bare 200 true, w) } }]
  defaultHandler := some fun _ w => (some (.bare 200 true), w)
  defaultHandlerIsAsync := false

/-- The client's first flight, and the server's. -/
def hello : TlsEvent :=
  .read { handshake := .wants, flight := [22], blocks := [], reply := [], sslOk := true }

/-- The end of the handshake, and a request for `/`. -/
def finished (method : String) : TlsEvent :=
  .read
    { handshake := .done
      flight := []
      blocks :=
        [{ callbacks :=
            [.messageBegin, .methodComplete (cstr method), .url (cstr "/"), .headersComplete 0 true,
              .messageComplete]
           parsed := true
           reply := [] }]
      reply := []
      sslOk := true }

/-- **Two requests that TLS does not serve.**  A `GET` is decrypted to its end and no handler is
called.  A `PUT` reaches its streaming handler, and the header of the answer follows the handshake
in the clear. -/
theorem tls_run_get_put :
    let ssl : SslWrite := fun _ data => (true, 23 :: data)
    let get := run site ssl (create ()) [hello, finished "GET"]
    let put := run site ssl (create ()) [hello, finished "PUT"]
    (get.completed = [⟨cstr "GET", cstr "/", 0, []⟩] ∧ get.dispatched = [] ∧ ¬ get.Protected) ∧
      put.handed = [.record [22], .clear (.head 200 [] 0 true)] ∧ ¬ put.Protected := by
  refine ⟨⟨rfl, rfl, fun h => ?_⟩, rfl, fun h => ?_⟩
  · exact absurd (congrArg List.length h.2) (by decide)
  · obtain ⟨bytes, hb⟩ := h.1 _ (List.mem_cons_of_mem _ (List.mem_cons_self ..))
    cases hb

end TlsConn

end Buckets
