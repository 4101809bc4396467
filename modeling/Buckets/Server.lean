/-
# The HTTP server: `uv_server.c`

One connection of the server, as the event loop drives it.  A read hands bytes to llhttp, whose
callbacks collect the URL, the headers and the body in the connection; when `llhttp_execute` has
returned, `process_request` looks ONCE whether a message was completed and, if so, answers it.  An
answer is sent at once (streaming and synchronous handlers) or buffered by a handler that runs in
the thread pool and sent by the after-work callback.  The completion of a write, not of a request,
resets the connection for the next request.

The parser is outside the model: a read is the list of callbacks llhttp makes for its bytes.  What
the handlers do to the rest of the program is a WORLD of any type, which they alone change; it is
carried along with the connection.
-/
import Buckets.S3Request

namespace Buckets

open CStr

/-! ## 1. Handlers, routes and servers -/

/-- What a handler sends: one `uv_http_response_start`, some `uv_http_response_write`s, and
whether it calls `uv_http_response_end`. -/
structure Response where
  status : ℕ
  headers : List (CString × CString)
  contentLength : ℕ
  writes : List Bytes
  ended : Bool
  deriving DecidableEq, Repr

/-- `uv_http_response_start(conn, status, NULL, 0, 0)` and nothing else. -/
def Response.bare (status : ℕ) (ended : Bool) : Response where
  status := status
  headers := []
  contentLength := 0
  writes := []
  ended := ended

/-- `uv_http_handler_t`: what it sends, if anything, and what it does to the world. -/
abbrev Handler (W : Type) := HttpRequest → W → Option Response × W

/-- `uv_stream_request_t`, as `build_stream_request` fills it when the headers are complete. -/
structure StreamRequest where
  method : CString
  url : CString
  contentLength : ℕ
  headers : List (CString × CString)
  deriving DecidableEq, Repr

/-- `uv_stream_handler_t`.  `S` is what the handler keeps in `conn->stream_ctx`. -/
structure StreamHandler (S W : Type) where
  /-- The response sent on the spot, if any, and the new context unless the request is refused. -/
  onRequestStart : StreamRequest → Option Response × Option S
  onBodyChunk : S → Bytes → Option S
  onRequestComplete : S → W → Response × W

/-- The handler of a route: `is_streaming` and `is_async`. -/
inductive RouteHandler (S W : Type) where
  | streaming (handler : StreamHandler S W)
  | sync (handler : Handler W)
  | async (handler : Handler W)

/-- `uv_route_t`. -/
structure Route (S W : Type) where
  method : Option CString
  pathPrefix : CString
  handler : RouteHandler S W

/-- `uv_http_server_t`, as far as requests are concerned.  The routes stand in the order of the
list, the one added last first. -/
structure Server (S W : Type) where
  routes : List (Route S W)
  defaultHandler : Option (Handler W)
  defaultHandlerIsAsync : Bool

/-- The test both route searches make: the method in any case of letters, and the start of the
path. -/
def Route.matches {S W : Type} (route : Route S W) (method url : CString) : Bool :=
  (match route.method with
    | none => true
    | some m => eqNoCase m method) &&
  (decide (route.pathPrefix.length ≤ (before url 63).length) && route.pathPrefix.isPrefixOf url)

/-! ## 2. Connections -/

/-- `conn_state_t`. -/
inductive ConnState where
  | readingHeaders
  | readingBody
  | processing
  | keepaliveWait
  | closing
  deriving DecidableEq, Repr

/-- `uv_async_work_t`. -/
structure AsyncWork (W : Type) where
  handler : Handler W
  /-- Whether the thread pool has run it. -/
  ran : Bool
  statusCode : ℕ
  contentLength : ℕ
  headers : List (CString × CString)
  body : Bytes
  responseStarted : Bool
  responseReady : Bool

/-- The work item as it is queued. -/
def AsyncWork.queued {W : Type} (handler : Handler W) : AsyncWork W where
  handler := handler
  ran := false
  statusCode := 0
  contentLength := 0
  headers := []
  body := []
  responseStarted := false
  responseReady := false

/-- What is handed to `uv_write`. -/
inductive Written where
  /-- A text the server holds ready. -/
  | plain (text : CString)
  /-- The header of a response. -/
  | head (status : ℕ) (headers : List (CString × CString)) (contentLength : ℕ) (keepAlive : Bool)
  /-- A piece of the body of a response. -/
  | data (bytes : Bytes)
  /-- Header and body of a buffered response. -/
  | whole (status : ℕ) (headers : List (CString × CString)) (contentLength : ℕ) (keepAlive : Bool)
      (body : Bytes)
  deriving DecidableEq, Repr

/-- `uv_http_conn_t`, the parser's view of the current message, and the world. -/
structure Conn (S W : Type) where
  state : ConnState
  keepAlive : Bool
  /-- `llhttp_get_method`. -/
  method : CString
  url : CString
  headers : List (CString × CString)
  totalHeadersSize : ℕ
  currentHeaderName : CString
  currentHeaderValue : CString
  body : Bytes
  contentLength : ℕ
  responseStarted : Bool
  messageComplete : Bool
  pendingFinalWrite : Bool
  pendingWrites : ℕ
  streamingRoute : Option (StreamHandler S W)
  streamCtx : Option S
  asyncWork : Option (AsyncWork W)
  requestsServed : ℕ
  /-- The timeout timer is running. -/
  timer : Bool
  /-- `uv_close` was called on the handles. -/
  handlesClosing : Bool
  /-- The writes whose completion has not been reported, in order. -/
  queue : List Written
  /-- The writes that were completed, and the texts sent by `uv_try_write`. -/
  wire : List Written
  world : W

namespace Conn

variable {S W : Type}

/-- `llhttp_init` leaves the method 0. -/
def initialMethod : CString := cstr "DELETE"

/-- `uv_http_conn_create`, and the timer and the reading `on_connection` starts. -/
def create (world : W) : Conn S W where
  state := .readingHeaders
  keepAlive := true
  method := initialMethod
  url := []
  headers := []
  totalHeadersSize := 0
  currentHeaderName := []
  currentHeaderValue := []
  body := []
  contentLength := 0
  responseStarted := false
  messageComplete := false
  pendingFinalWrite := false
  pendingWrites := 0
  streamingRoute := none
  streamCtx := none
  asyncWork := none
  requestsServed := 0
  timer := true
  handlesClosing := false
  queue := []
  wire := []
  world := world

/-- `uv_http_conn_reset`. -/
def reset (c : Conn S W) : Conn S W :=
  { c with
    method := initialMethod
    url := []
    headers := []
    totalHeadersSize := 0
    currentHeaderName := []
    currentHeaderValue := []
    body := []
    contentLength := 0
    responseStarted := false
    messageComplete := false
    state := .readingHeaders
    requestsServed := c.requestsServed + 1 }

/-- `uv_http_conn_close`. -/
def close (c : Conn S W) : Conn S W :=
  if c.state = .closing then c
  else if 0 < c.pendingWrites then { c with state := .closing }
  else { c with state := .closing, timer := false, handlesClosing := true }

/-- `is_stream_valid_for_write`. -/
def validForWrite (c : Conn S W) : Bool := c.state != .closing && !c.handlesClosing

/-- `uv_try_write`, of a text that is not waited for. -/
def tryWrite (c : Conn S W) (text : CString) : Conn S W :=
  if c.queue.length = 0 && !c.handlesClosing then { c with wire := c.wire ++ [.plain text] } else c

/-- What `s3_legacy_uv_handler` and the other handlers take from the connection. -/
def request (c : Conn S W) : HttpRequest where
  method := c.method
  uri := c.url
  headers := c.headers
  body := c.body

/-- `build_stream_request`. -/
def streamRequest (c : Conn S W) : StreamRequest where
  method := c.method
  url := c.url
  contentLength := c.contentLength
  headers := c.headers

/-! ### Responses -/

/-- `uv_http_response_start`. -/
def responseStart (c : Conn S W) (r : Response) : Conn S W :=
  if c.responseStarted then c
  else
    match c.asyncWork with
    | some async =>
      { c with
        responseStarted := true
        asyncWork := some
          { async with
            statusCode := r.status
            contentLength := r.contentLength
            responseStarted := true
            -- 62 strings at most
            headers := r.headers.take 31 } }
    | none =>
      if c.validForWrite then
        { c with
          responseStarted := true
          queue := c.queue ++ [.head r.status r.headers r.contentLength c.keepAlive] }
      else c

/-- `uv_http_response_write`. -/
def responseWrite (c : Conn S W) (data : Bytes) : Conn S W :=
  if data.length = 0 then c
  else
    match c.asyncWork with
    | some async => { c with asyncWork := some { async with body := async.body ++ data } }
    | none => if c.validForWrite then { c with queue := c.queue ++ [.data data] } else c

/-- `uv_http_response_end`: responses are never chunked, so nothing is written. -/
def responseEnd (c : Conn S W) : Conn S W :=
  { c with asyncWork := c.asyncWork.map fun async => { async with responseReady := true } }

/-- The calls a handler makes to send a response. -/
def respond (c : Conn S W) (r : Response) : Conn S W :=
  let c := r.writes.foldl responseWrite (c.responseStart r)
  if r.ended then c.responseEnd else c

/-- A handler that may have sent a response. -/
def respondIfAny (c : Conn S W) : Option Response → Conn S W
  | none => c
  | some r => c.respond r

/-- A handler is called: it sends what it sends, and the world changes. -/
def call (c : Conn S W) (handler : Handler W) : Conn S W :=
  let out := handler c.request c.world
  { c with world := out.2 }.respondIfAny out.1

/-! ### Callbacks of the parser -/

/-- `BUCKETS_MAX_HEADERS_SIZE`. -/
def maxHeadersSize : ℕ := 65536

/-- `on_message_begin`. -/
def onMessageBegin (c : Conn S W) : Conn S W := { c with state := .readingHeaders }

/-- `on_url`. -/
def onUrl (c : Conn S W) (data : Bytes) : Conn S W := { c with url := c.url ++ data }

/-- `on_header_field`, and whether it returned 0. -/
def onHeaderField (c : Conn S W) (data : Bytes) : Conn S W × Bool :=
  let size := c.totalHeadersSize + data.length
  if maxHeadersSize < size then ({ c with totalHeadersSize := size }, false)
  else
    ({ c with totalHeadersSize := size, currentHeaderName := c.currentHeaderName ++ data }, true)

/-- `on_header_value`. -/
def onHeaderValue (c : Conn S W) (data : Bytes) : Conn S W × Bool :=
  let size := c.totalHeadersSize + data.length
  if maxHeadersSize < size then ({ c with totalHeadersSize := size }, false)
  else
    ({ c with totalHeadersSize := size, currentHeaderValue := c.currentHeaderValue ++ data }, true)

/-- `on_header_value_complete`. -/
def onHeaderValueComplete (c : Conn S W) : Conn S W :=
  { c with
    headers := c.headers ++ [(c.currentHeaderName, c.currentHeaderValue)]
    currentHeaderName := []
    currentHeaderValue := [] }

/-- The keep-alive decision of `on_headers_complete`.  A `Connection` header that says something
else leaves the decision of the last request. -/
def keepAliveOf (headers : List (CString × CString)) (http11 last : Bool) : Bool :=
  match uvHttpGetHeader headers (cstr "Connection") with
  | some connection =>
    if eqNoCase connection (cstr "close") then false
    else if eqNoCase connection (cstr "keep-alive") then true
    else last
  | none => http11

/-- Whether the client waits for `100 Continue`. -/
def expectsContinue (headers : List (CString × CString)) : Bool :=
  match uvHttpGetHeader headers (cstr "Expect") with
  | some expect => eqNoCase expect (cstr "100-continue")
  | none => false

/-- What is sent before the body is read. -/
def interim (headers : List (CString × CString)) : List Written :=
  if expectsContinue headers then [.plain (cstr "HTTP/1.1 100 Continue\r\n\r\n")] else []

/-- `find_streaming_route`. -/
def findStreamingRoute (routes : List (Route S W)) (method url : CString) :
    Option (StreamHandler S W) :=
  routes.findSome? fun route =>
    match route.handler with
    | .streaming handler => if route.matches method url then some handler else none
    | .sync _ => none
    | .async _ => none

/-- The part of `on_headers_complete` before the routes. -/
def headersRead (c : Conn S W) (contentLength : ℕ) (http11 : Bool) : Conn S W :=
  { c with
    contentLength := contentLength
    keepAlive := keepAliveOf c.headers http11 c.keepAlive
    queue := c.queue ++ interim c.headers
    state := .readingBody
    timer := true }

/-- What becomes of `on_request_start`.  A handler that refuses the request may have sent a
response. -/
def takeStart (c : Conn S W) (handler : StreamHandler S W) (out : Option Response × Option S) :
    Conn S W :=
  match out.2 with
  | none => { c.respondIfAny out.1 with streamingRoute := none }
  | some ctx =>
    { c.respondIfAny out.1 with streamingRoute := some handler, streamCtx := some ctx }

/-- The part of `on_headers_complete` that looks for a streaming handler. -/
def startStream (server : Server S W) (c : Conn S W) : Conn S W :=
  match findStreamingRoute server.routes c.method c.url with
  | none => c
  | some handler => c.takeStart handler (handler.onRequestStart c.streamRequest)

/-- `on_headers_complete`. -/
def onHeadersComplete (server : Server S W) (c : Conn S W) (contentLength : ℕ) (http11 : Bool) :
    Conn S W :=
  startStream server (c.headersRead contentLength http11)

/-- `on_body`.  A streaming handler that fails loses its context in `on_request_error`. -/
def onBody (c : Conn S W) (data : Bytes) : Conn S W × Bool :=
  match c.streamingRoute with
  | some handler =>
    match c.streamCtx.bind fun ctx => handler.onBodyChunk ctx data with
    | some ctx => ({ c with streamCtx := some ctx }, true)
    | none => ({ c with streamingRoute := none, streamCtx := none }, false)
  | none => ({ c with body := c.body ++ data }, true)

/-- The end of a streamed request: `on_request_complete` and what follows it. -/
def finishStream (c : Conn S W) (handler : StreamHandler S W) : Conn S W :=
  match c.streamCtx with
  | none => { c with streamingRoute := none }
  | some ctx =>
    let out := handler.onRequestComplete ctx c.world
    { { c with world := out.2 }.respond out.1 with streamCtx := none, streamingRoute := none }

/-- `on_message_complete`, with a streaming handler and without. -/
def finishMessage (c : Conn S W) : Conn S W :=
  match c.streamingRoute with
  | some handler => c.finishStream handler
  | none => c

/-- `on_message_complete`. -/
def onMessageComplete (c : Conn S W) : Conn S W :=
  { { c with timer := false, state := .processing }.finishMessage with messageComplete := true }

/-! ### Processing -/

/-- What `process_request` does from the label `done` on. -/
def processDone (c : Conn S W) : Conn S W :=
  if c.responseStarted = false then
    { c with pendingFinalWrite := true }.respond (.bare 500 true)
  else { c with pendingFinalWrite := true }

/-- `queue_async_handler` and `queue_async_default_handler`.  A work item that is still pending is
only forgotten by the connection: it stays in the thread pool and is run too, and `Life.stale` of
`ConnLifetime` keeps such items. -/
def queueAsync (c : Conn S W) (handler : Handler W) : Conn S W :=
  { c with asyncWork := some (.queued handler), state := .processing }

/-- The first route of `process_request`: streaming routes are skipped. -/
def findRoute (routes : List (Route S W)) (method url : CString) : Option (Handler W × Bool) :=
  routes.findSome? fun route =>
    match route.handler with
    | .streaming _ => none
    | .sync handler => if route.matches method url then some (handler, false) else none
    | .async handler => if route.matches method url then some (handler, true) else none

/-- The handler of a buffered request, and whether it runs in the thread pool. -/
def handlerFor (server : Server S W) (method url : CString) : Option (Handler W × Bool) :=
  match findRoute server.routes method url with
  | some found => some found
  | none => server.defaultHandler.map fun handler => (handler, server.defaultHandlerIsAsync)

/-- `process_request`. -/
def processRequest (server : Server S W) (c : Conn S W) : Conn S W :=
  if c.responseStarted then c.processDone
  else
    match handlerFor server c.method c.url with
    | some (handler, true) => c.queueAsync handler
    | some (handler, false) => (c.call handler).processDone
    | none => (c.respond (.bare 404 true)).processDone

end Conn

/-! ## 3. Events -/

/-- A callback of llhttp, or a point at which it sets a field the server reads.  The three
callbacks that only return 0 are left out. -/
inductive Callback where
  | messageBegin
  | methodComplete (method : CString)
  | url (data : Bytes)
  | headerField (data : Bytes)
  | headerValue (data : Bytes)
  | headerValueComplete
  | headersComplete (contentLength : ℕ) (http11 : Bool)
  | body (data : Bytes)
  | messageComplete
  deriving DecidableEq, Repr

/-- A callback that can come before the headers are complete. -/
def Callback.isHead : Callback → Bool
  | .headersComplete _ _ => false
  | .body _ => false
  | .messageComplete => false
  | _ => true

theorem Callback.isHead_or (cb : Callback) :
    cb.isHead = true ∨ (∃ contentLength http11, cb = .headersComplete contentLength http11) ∨
      (∃ data, cb = .body data) ∨ cb = .messageComplete := by
  cases cb with
  | headersComplete contentLength http11 => exact .inr (.inl ⟨_, _, rfl⟩)
  | body data => exact .inr (.inr (.inl ⟨_, rfl⟩))
  | messageComplete => exact .inr (.inr (.inr rfl))
  | _ => exact .inl rfl

/-- What the event loop reports to a connection. -/
inductive ConnEvent where
  /-- Some bytes, with the callbacks llhttp makes for them and whether it parses all of them. -/
  | read (callbacks : List Callback) (parsed : Bool)
  /-- End of stream, or a read error. -/
  | eof
  | timeout
  /-- The thread pool runs the queued handler. -/
  | work
  /-- The after-work callback of a handler that was run. -/
  | afterWork
  /-- The first write of the queue is over; `false` for an error. -/
  | written (ok : Bool)
  deriving DecidableEq, Repr

namespace Conn

variable {S W : Type}

/-- One callback, and whether it returned 0. -/
def callback (server : Server S W) (c : Conn S W) : Callback → Conn S W × Bool
  | .messageBegin => (c.onMessageBegin, true)
  | .methodComplete method => ({ c with method := method }, true)
  | .url data => (c.onUrl data, true)
  | .headerField data => c.onHeaderField data
  | .headerValue data => c.onHeaderValue data
  | .headerValueComplete => (c.onHeaderValueComplete, true)
  | .headersComplete contentLength http11 => (onHeadersComplete server c contentLength http11, true)
  | .body data => c.onBody data
  | .messageComplete => (c.onMessageComplete, true)

/-- `llhttp_execute`: the first callback that fails ends it. -/
def callbacks (server : Server S W) (c : Conn S W) : List Callback → Conn S W × Bool
  | [] => (c, true)
  | cb :: cbs =>
    match callback server c cb with
    | (c, true) => callbacks server c cbs
    | (c, false) => (c, false)

def badRequest : CString :=
  cstr "HTTP/1.1 400 Bad Request\r\nConnection: close\r\nContent-Length: 0\r\n\r\n"

def requestTimeout : CString :=
  cstr "HTTP/1.1 408 Request Timeout\r\nConnection: close\r\nContent-Length: 0\r\n\r\n"

/-- The timeout of `on_read`, which also ends the wait between requests. -/
def wake (c : Conn S W) : Conn S W :=
  match c.state with
  | .readingHeaders => { c with timer := true }
  | .readingBody => { c with timer := true }
  | .keepaliveWait => { c with timer := true, state := .readingHeaders }
  | .processing => c
  | .closing => c

/-- `on_read` on an error of the parser. -/
def parseError (c : Conn S W) : Conn S W :=
  (if c.responseStarted then c else c.tryWrite badRequest).close

/-- The part of `on_read` that runs the parser. -/
def execute (server : Server S W) (c : Conn S W) (cbs : List Callback) (parsed : Bool) :
    Conn S W :=
  let out := callbacks server c.wake cbs
  if out.2 && parsed then out.1 else out.1.parseError

/-- The part of `on_read` after the parser has returned. -/
def processIfComplete (server : Server S W) (c : Conn S W) : Conn S W :=
  if c.messageComplete then processRequest server { c with messageComplete := false } else c

/-- `on_read`, with a positive number of bytes on a plain connection. -/
def onRead (server : Server S W) (c : Conn S W) (cbs : List Callback) (parsed : Bool) :
    Conn S W :=
  processIfComplete server (execute server c cbs parsed)

/-- `on_timeout`.  While a request is processed the timer is started again. -/
def onTimeout (c : Conn S W) : Conn S W :=
  if c.state = .processing ∨ c.asyncWork.isSome then c
  else
    let c := { c with timer := false }
    (if c.responseStarted = false ∧ c.state ≠ .closing then c.tryWrite requestTimeout else c).close

/-- `async_handler_work`. -/
def runWork (c : Conn S W) : Conn S W :=
  match c.asyncWork with
  | some async =>
    if async.ran then c
    else ({ c with asyncWork := some { async with ran := true } } : Conn S W).call async.handler
  | none => c

/-- `send_buffered_response`. -/
def sendBufferedResponse (c : Conn S W) (async : AsyncWork W) : Conn S W :=
  let contentLength := if 0 < async.contentLength then async.contentLength else async.body.length
  { c with
    queue := c.queue ++ [.whole async.statusCode async.headers contentLength c.keepAlive async.body]
    pendingFinalWrite := true
    pendingWrites := c.pendingWrites + 1
    asyncWork := none }

/-- `async_handler_after_work`. -/
def afterWork (c : Conn S W) : Conn S W :=
  match c.asyncWork with
  | some async =>
    if async.ran = false then c
    else if c.validForWrite = false then { c with asyncWork := none }
    else if async.responseReady && async.responseStarted then c.sendBufferedResponse async
    else if c.responseStarted = false then
      { c with pendingFinalWrite := true, asyncWork := none }.respond (.bare 500 false)
    else { c with asyncWork := none }
  | none => c

/-- The end of `on_write_complete`: the connection is reset for the next request or closed. -/
def finalWrite (c : Conn S W) : Conn S W :=
  if c.pendingFinalWrite then
    let c := { c with pendingFinalWrite := false }
    if c.keepAlive ∧ c.state ≠ .closing then
      { c.reset with state := .keepaliveWait, timer := true }
    else c.close
  else c

/-- The first write of the queue, over. -/
def endWrite (c : Conn S W) (w : Written) (queue : List Written) (ok : Bool) : Conn S W :=
  { c with
    queue := queue
    wire := if ok then c.wire ++ [w] else c.wire
    pendingWrites := c.pendingWrites - 1 }

/-- `on_write_complete`.  Once the handles are closed every write left ends in an error. -/
def onWriteComplete (c : Conn S W) (ok : Bool) : Conn S W :=
  match c.queue with
  | [] => c
  | w :: queue =>
    if ok && !c.handlesClosing then
      let c := c.endWrite w queue true
      if c.state = .closing ∧ c.pendingWrites = 0 then c.close else c.finalWrite
    else (c.endWrite w queue false).close

/-- One event. -/
def step (server : Server S W) (c : Conn S W) : ConnEvent → Conn S W
  | .read cbs parsed => if c.handlesClosing then c else onRead server c cbs parsed
  | .eof => if c.handlesClosing then c else c.close
  | .timeout => if c.timer then c.onTimeout else c
  | .work => c.runWork
  | .afterWork => c.afterWork
  | .written ok => c.onWriteComplete ok

/-- A run of a connection. -/
def run (server : Server S W) (c : Conn S W) (events : List ConnEvent) : Conn S W :=
  events.foldl (step server) c

end Conn

/-! ## 4. What a run does to the world -/

section Keeps

variable {S W : Type} {J : S → Prop} {I : W → Prop}

/-- A handler keeps a property of the world. -/
def Handler.Keeps (handler : Handler W) (I : W → Prop) : Prop :=
  ∀ req w, I w → I (handler req w).2

/-- A streaming handler does, with contexts that have a property of their own. -/
structure StreamHandler.Keeps (handler : StreamHandler S W) (J : S → Prop) (I : W → Prop) :
    Prop where
  start : ∀ req, ∀ ctx ∈ (handler.onRequestStart req).2, J ctx
  chunk : ∀ ctx data, J ctx → ∀ next ∈ handler.onBodyChunk ctx data, J next
  complete : ∀ ctx w, J ctx → I w → I (handler.onRequestComplete ctx w).2

def RouteHandler.Keeps (J : S → Prop) (I : W → Prop) : RouteHandler S W → Prop
  | .streaming handler => handler.Keeps J I
  | .sync handler => Handler.Keeps handler I
  | .async handler => Handler.Keeps handler I

/-- Every handler of a server keeps it. -/
structure Server.Keeps (server : Server S W) (J : S → Prop) (I : W → Prop) : Prop where
  routes : ∀ route ∈ server.routes, route.handler.Keeps J I
  defaultHandler : ∀ handler ∈ server.defaultHandler, Handler.Keeps handler I

namespace Conn

/-- The handler that is in the thread pool, and whether it was run. -/
def asyncJob (c : Conn S W) : Option (Handler W × Bool) :=
  c.asyncWork.map fun async => (async.handler, async.ran)

/-- What is kept while handlers are waiting to be called. -/
structure Keeping (J : S → Prop) (I : W → Prop) (c : Conn S W) : Prop where
  world : I c.world
  stream : ∀ handler ∈ c.streamingRoute, handler.Keeps J I
  context : ∀ ctx ∈ c.streamCtx, J ctx
  async : ∀ job ∈ c.asyncJob, Handler.Keeps job.1 I

/-- A change that calls no handler, takes none up and queues none. -/
structure SameCalls (c c' : Conn S W) : Prop where
  world : c'.world = c.world
  stream : c'.streamingRoute = c.streamingRoute
  context : c'.streamCtx = c.streamCtx
  async : c'.asyncJob = c.asyncJob

theorem SameCalls.trans {c₁ c₂ c₃ : Conn S W} (h : SameCalls c₁ c₂) (h' : SameCalls c₂ c₃) :
    SameCalls c₁ c₃ :=
  ⟨h'.world.trans h.world, h'.stream.trans h.stream, h'.context.trans h.context,
    h'.async.trans h.async⟩

variable {c : Conn S W} {server : Server S W}

theorem SameCalls.keeping {c' : Conn S W} (h : SameCalls c c') (hc : c.Keeping J I) :
    c'.Keeping J I := by
  obtain ⟨hworld, hstream, hcontext, hasync⟩ := h
  refine ⟨?_, ?_, ?_, ?_⟩
  · rw [hworld]
    exact hc.world
  · rw [hstream]
    exact hc.stream
  · rw [hcontext]
    exact hc.context
  · rw [hasync]
    exact hc.async

theorem sameCalls_responseStart (c : Conn S W) (r : Response) :
    SameCalls c (c.responseStart r) := by
  unfold responseStart
  split
  · exact ⟨rfl, rfl, rfl, rfl⟩
  · split
    · rename_i async hasync
      exact ⟨rfl, rfl, rfl, by simp [asyncJob, hasync]⟩
    · split <;> exact ⟨rfl, rfl, rfl, rfl⟩

theorem sameCalls_responseWrite (c : Conn S W) (data : Bytes) :
    SameCalls c (c.responseWrite data) := by
  unfold responseWrite
  split
  · exact ⟨rfl, rfl, rfl, rfl⟩
  · split
    · rename_i async hasync
      exact ⟨rfl, rfl, rfl, by simp [asyncJob, hasync]⟩
    · split <;> exact ⟨rfl, rfl, rfl, rfl⟩

theorem sameCalls_writes (writes : List Bytes) (c : Conn S W) :
    SameCalls c (writes.foldl responseWrite c) := by
  induction writes generalizing c with
  | nil => exact ⟨rfl, rfl, rfl, rfl⟩
  | cons data writes ih => exact (sameCalls_responseWrite c data).trans (ih _)

theorem sameCalls_respond (c : Conn S W) (r : Response) : SameCalls c (c.respond r) := by
  have h := (sameCalls_responseStart c r).trans (sameCalls_writes r.writes _)
  unfold respond
  dsimp only
  split
  · refine h.trans ⟨rfl, rfl, rfl, ?_⟩
    simp [asyncJob, responseEnd, Function.comp_def]
  · exact h

theorem sameCalls_close (c : Conn S W) : SameCalls c c.close := by
  unfold close
  split
  · exact ⟨rfl, rfl, rfl, rfl⟩
  · split <;> exact ⟨rfl, rfl, rfl, rfl⟩

theorem sameCalls_tryWrite (c : Conn S W) (text : CString) : SameCalls c (c.tryWrite text) := by
  unfold tryWrite
  split <;> exact ⟨rfl, rfl, rfl, rfl⟩

theorem sameCalls_wake (c : Conn S W) : SameCalls c c.wake := by
  unfold wake
  split <;> exact ⟨rfl, rfl, rfl, rfl⟩

theorem sameCalls_parseError (c : Conn S W) : SameCalls c c.parseError := by
  unfold parseError
  split
  · exact sameCalls_close c
  · exact (sameCalls_tryWrite c _).trans (sameCalls_close _)

theorem sameCalls_processDone (c : Conn S W) : SameCalls c c.processDone := by
  unfold processDone
  split
  · refine SameCalls.trans ?_ (sameCalls_respond _ _)
    exact ⟨rfl, rfl, rfl, rfl⟩
  · exact ⟨rfl, rfl, rfl, rfl⟩

theorem sameCalls_onTimeout (c : Conn S W) : SameCalls c c.onTimeout := by
  unfold onTimeout
  split
  · exact ⟨rfl, rfl, rfl, rfl⟩
  · dsimp only
    split
    · refine SameCalls.trans ?_ ((sameCalls_tryWrite _ _).trans (sameCalls_close _))
      exact ⟨rfl, rfl, rfl, rfl⟩
    · refine SameCalls.trans ?_ (sameCalls_close _)
      exact ⟨rfl, rfl, rfl, rfl⟩

theorem sameCalls_finalWrite (c : Conn S W) : SameCalls c c.finalWrite := by
  unfold finalWrite
  split
  · dsimp only
    split
    · exact ⟨rfl, rfl, rfl, rfl⟩
    · refine SameCalls.trans ?_ (sameCalls_close _)
      exact ⟨rfl, rfl, rfl, rfl⟩
  · exact ⟨rfl, rfl, rfl, rfl⟩

theorem sameCalls_onWriteComplete (c : Conn S W) (ok : Bool) :
    SameCalls c (c.onWriteComplete ok) := by
  unfold onWriteComplete
  split
  · exact ⟨rfl, rfl, rfl, rfl⟩
  · rename_i w queue _
    have hend : ∀ ok, SameCalls c (c.endWrite w queue ok) := fun _ => ⟨rfl, rfl, rfl, rfl⟩
    split
    · dsimp only
      split
      · exact (hend true).trans (sameCalls_close _)
      · exact (hend true).trans (sameCalls_finalWrite _)
    · exact (hend false).trans (sameCalls_close _)

theorem sameCalls_respondIfAny (c : Conn S W) (r? : Option Response) :
    SameCalls c (c.respondIfAny r?) := by
  cases r? with
  | none => exact ⟨rfl, rfl, rfl, rfl⟩
  | some r => exact sameCalls_respond c r

theorem Keeping.call (hc : c.Keeping J I) {handler : Handler W}
    (hhandler : Handler.Keeps handler I) : (c.call handler).Keeping J I := by
  refine (sameCalls_respondIfAny _ _).keeping ?_
  exact ⟨hhandler _ _ hc.world, hc.stream, hc.context, hc.async⟩

/-- The streaming handler of a server is that of a route. -/
theorem keeps_of_findStreamingRoute (hserver : server.Keeps J I)
    {method url : CString} {handler : StreamHandler S W}
    (h : findStreamingRoute server.routes method url = some handler) : handler.Keeps J I := by
  obtain ⟨route, hroute, hmatch⟩ := List.exists_of_findSome?_eq_some h
  have hkeeps := hserver.routes route hroute
  cases hh : route.handler with
  | streaming found =>
    rw [hh] at hmatch hkeeps
    dsimp only at hmatch
    split at hmatch
    · cases hmatch
      exact hkeeps
    · cases hmatch
  | sync found => simp [hh] at hmatch
  | async found => simp [hh] at hmatch

theorem Keeping.startStream (hserver : server.Keeps J I)
    (hc : c.Keeping J I) : (Conn.startStream server c).Keeping J I := by
  unfold Conn.startStream
  split
  · exact hc
  · rename_i handler hfound
    have hhandler := keeps_of_findStreamingRoute hserver hfound
    have hsent : ∀ r?, (c.respondIfAny r?).Keeping J I :=
      fun r? => (sameCalls_respondIfAny c r?).keeping hc
    unfold takeStart
    split
    · exact ⟨(hsent _).world, by simp, (hsent _).context, (hsent _).async⟩
    · rename_i ctx hctx
      have hstart := hhandler.start _ ctx hctx
      exact ⟨(hsent _).world, by simpa using hhandler, by simpa using hstart, (hsent _).async⟩

theorem Keeping.onBody (hc : c.Keeping J I) (data : Bytes) :
    (c.onBody data).1.Keeping J I := by
  unfold Conn.onBody
  split
  · rename_i handler hhandler
    split
    · rename_i next hnext
      obtain ⟨ctx, hctx, hchunk⟩ := Option.bind_eq_some_iff.mp hnext
      have hJ := (hc.stream handler hhandler).chunk ctx data (hc.context ctx hctx) next hchunk
      exact ⟨hc.world, hc.stream, by simpa using hJ, hc.async⟩
    · exact ⟨hc.world, by simp, by simp, hc.async⟩
  · exact ⟨hc.world, hc.stream, hc.context, hc.async⟩

theorem Keeping.finishStream (hc : c.Keeping J I) {handler : StreamHandler S W}
    (hhandler : handler.Keeps J I) : (c.finishStream handler).Keeping J I := by
  unfold Conn.finishStream
  split
  · exact ⟨hc.world, by simp, hc.context, hc.async⟩
  · rename_i ctx hctx
    have hsent : Keeping J I ({ c with world := (handler.onRequestComplete ctx c.world).2 }.respond
        (handler.onRequestComplete ctx c.world).1) := by
      refine (sameCalls_respond _ _).keeping ?_
      exact ⟨hhandler.complete ctx c.world (hc.context ctx hctx) hc.world, hc.stream, hc.context,
        hc.async⟩
    exact ⟨hsent.world, by simp, by simp, hsent.async⟩

theorem Keeping.finishMessage (hc : c.Keeping J I) : c.finishMessage.Keeping J I := by
  unfold Conn.finishMessage
  split
  · rename_i handler hhandler
    exact hc.finishStream (hc.stream handler hhandler)
  · exact hc

theorem Keeping.onMessageComplete (hc : c.Keeping J I) :
    c.onMessageComplete.Keeping J I := by
  have hstopped : Keeping J I { c with timer := false, state := ConnState.processing } :=
    ⟨hc.world, hc.stream, hc.context, hc.async⟩
  have hfinished := hstopped.finishMessage
  exact ⟨hfinished.world, hfinished.stream, hfinished.context, hfinished.async⟩

/-- `c'` is `c` with other texts of a request. -/
def CollectsOnly (c c' : Conn S W) : Prop :=
  c' = { c with
    state := c'.state
    method := c'.method
    url := c'.url
    headers := c'.headers
    totalHeadersSize := c'.totalHeadersSize
    currentHeaderName := c'.currentHeaderName
    currentHeaderValue := c'.currentHeaderValue }

theorem collectsOnly_callback (server : Server S W) {cb : Callback} (hcb : cb.isHead = true)
    (c : Conn S W) : CollectsOnly c (callback server c cb).1 := by
  cases cb with
  | messageBegin => rfl
  | methodComplete method => rfl
  | url data => rfl
  | headerField data =>
    simp only [callback, onHeaderField]
    split <;> rfl
  | headerValue data =>
    simp only [callback, onHeaderValue]
    split <;> rfl
  | headerValueComplete => rfl
  | headersComplete contentLength http11 => cases hcb
  | body data => cases hcb
  | messageComplete => cases hcb

/-- What each callback keeps, the callbacks of a read keep. -/
theorem callbacks_keep {P : Conn S W → Prop} {cbs : List Callback}
    (hstep : ∀ cb ∈ cbs, ∀ c, P c → P (callback server c cb).1) (hc : P c) :
    P (callbacks server c cbs).1 := by
  induction cbs generalizing c with
  | nil => exact hc
  | cons cb cbs ih =>
    obtain ⟨hcb, hrest⟩ := List.forall_mem_cons.mp hstep
    have hnext := hcb c hc
    unfold Conn.callbacks
    split
    · rename_i c' hcallback
      rw [hcallback] at hnext
      exact ih hrest hnext
    · rename_i c' hcallback
      rw [hcallback] at hnext
      exact hnext

theorem Keeping.callback (hserver : server.Keeps J I)
    (hc : c.Keeping J I) (cb : Callback) : (Conn.callback server c cb).1.Keeping J I := by
  obtain hhead | ⟨contentLength, http11, rfl⟩ | ⟨data, rfl⟩ | rfl := cb.isHead_or
  · rw [collectsOnly_callback server hhead c]
    exact ⟨hc.world, hc.stream, hc.context, hc.async⟩
  · exact Keeping.startStream hserver ⟨hc.world, hc.stream, hc.context, hc.async⟩
  · exact hc.onBody data
  · exact hc.onMessageComplete

theorem Keeping.callbacks (hserver : server.Keeps J I) (cbs : List Callback)
    (hc : c.Keeping J I) : (Conn.callbacks server c cbs).1.Keeping J I :=
  callbacks_keep (fun cb _ _ hc => hc.callback hserver cb) hc

/-- The handler of a buffered request is that of a route, or the default one. -/
theorem mem_of_handlerFor {method url : CString} {handler : Handler W}
    {isAsync : Bool} (h : handlerFor server method url = some (handler, isAsync)) :
    (∃ route ∈ server.routes, route.handler = .sync handler ∨ route.handler = .async handler) ∨
      server.defaultHandler = some handler := by
  unfold Conn.handlerFor at h
  split at h
  · rename_i found hfound
    cases h
    obtain ⟨route, hroute, hmatch⟩ := List.exists_of_findSome?_eq_some hfound
    refine Or.inl ⟨route, hroute, ?_⟩
    cases hh : route.handler with
    | streaming other => simp [hh] at hmatch
    | sync other =>
      simp only [hh, Option.ite_none_right_eq_some, Option.some.injEq, Prod.mk.injEq] at hmatch
      exact Or.inl (congrArg RouteHandler.sync hmatch.2.1)
    | async other =>
      simp only [hh, Option.ite_none_right_eq_some, Option.some.injEq, Prod.mk.injEq] at hmatch
      exact Or.inr (congrArg RouteHandler.async hmatch.2.1)
  · obtain ⟨found, hfound, heq⟩ := Option.map_eq_some_iff.mp h
    cases heq
    exact Or.inr hfound

theorem keeps_of_handlerFor (hserver : server.Keeps J I)
    {method url : CString} {handler : Handler W} {isAsync : Bool}
    (h : handlerFor server method url = some (handler, isAsync)) : Handler.Keeps handler I := by
  rcases mem_of_handlerFor h with ⟨route, hroute, hsync | hasync⟩ | hdefault
  · have hkeeps := hserver.routes route hroute
    rwa [hsync] at hkeeps
  · have hkeeps := hserver.routes route hroute
    rwa [hasync] at hkeeps
  · exact hserver.defaultHandler handler hdefault

theorem Keeping.processRequest (hserver : server.Keeps J I)
    (hc : c.Keeping J I) : (Conn.processRequest server c).Keeping J I := by
  unfold Conn.processRequest
  split
  · exact (sameCalls_processDone c).keeping hc
  · split
    · rename_i handler hfor
      have hhandler := keeps_of_handlerFor hserver hfor
      exact ⟨hc.world, hc.stream, hc.context,
        by simpa [asyncJob, queueAsync, AsyncWork.queued] using hhandler⟩
    · rename_i handler hfor
      have hhandler := keeps_of_handlerFor hserver hfor
      exact (sameCalls_processDone _).keeping (hc.call hhandler)
    · exact (sameCalls_processDone _).keeping ((sameCalls_respond c _).keeping hc)

theorem Keeping.onRead (hserver : server.Keeps J I)
    (hc : c.Keeping J I) (cbs : List Callback) (parsed : Bool) :
    (Conn.onRead server c cbs parsed).Keeping J I := by
  have hcallbacks := ((sameCalls_wake c).keeping hc).callbacks hserver cbs
  have hexecute : (execute server c cbs parsed).Keeping J I := by
    unfold execute
    dsimp only
    split
    · exact hcallbacks
    · exact (sameCalls_parseError _).keeping hcallbacks
  unfold Conn.onRead processIfComplete
  split
  · refine Keeping.processRequest hserver ?_
    exact ⟨hexecute.world, hexecute.stream, hexecute.context, hexecute.async⟩
  · exact hexecute

theorem Keeping.runWork (hc : c.Keeping J I) : c.runWork.Keeping J I := by
  unfold Conn.runWork
  split
  · rename_i async hasync
    split
    · exact hc
    · have hhandler : Handler.Keeps async.handler I :=
        hc.async (async.handler, async.ran) (by simp [asyncJob, hasync])
      refine Keeping.call (I := I) ?_ hhandler
      exact ⟨hc.world, hc.stream, hc.context, by simpa [asyncJob] using hhandler⟩
  · exact hc

theorem Keeping.afterWork (hc : c.Keeping J I) : c.afterWork.Keeping J I := by
  -- whatever is sent, nothing is left in the pool
  have hdone : Keeping J I { c with asyncWork := none } :=
    ⟨hc.world, hc.stream, hc.context, by simp [asyncJob]⟩
  unfold Conn.afterWork
  split
  · split
    · exact hc
    · split
      · exact hdone
      · split
        · exact ⟨hdone.world, hdone.stream, hdone.context, hdone.async⟩
        · split
          · refine (sameCalls_respond _ _).keeping ?_
            exact ⟨hdone.world, hdone.stream, hdone.context, hdone.async⟩
          · exact hdone
  · exact hc

/-- **One event keeps what every handler keeps.** -/
theorem Keeping.step (hserver : server.Keeps J I)
    (hc : c.Keeping J I) (event : ConnEvent) : (Conn.step server c event).Keeping J I := by
  cases event with
  | read cbs parsed =>
    simp only [Conn.step]
    split
    · exact hc
    · exact hc.onRead hserver cbs parsed
  | eof =>
    simp only [Conn.step]
    split
    · exact hc
    · exact (sameCalls_close c).keeping hc
  | timeout =>
    simp only [Conn.step]
    split
    · exact (sameCalls_onTimeout c).keeping hc
    · exact hc
  | work => exact hc.runWork
  | afterWork => exact hc.afterWork
  | written ok => exact (sameCalls_onWriteComplete c ok).keeping hc

/-- **A run keeps what every handler keeps**, from a new connection on. -/
theorem run_keeps (hserver : server.Keeps J I) {world : W} (hworld : I world)
    (events : List ConnEvent) : I (run server (create world) events).world := by
  have hrun : ∀ (events : List ConnEvent) (c : Conn S W), c.Keeping J I →
      (run server c events).Keeping J I := by
    intro events
    induction events with
    | nil =>
      intro c hc
      exact hc
    | cons event events ih =>
      intro c hc
      exact ih _ (hc.step hserver event)
  exact (hrun events _
    ⟨hworld, by simp [create], by simp [create], by simp [create, asyncJob]⟩).world

end Conn

end Keeps

end Buckets
