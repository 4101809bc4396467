/-
# `net/uv_server.c`: a connection that is asked to close

`uv_http_conn_close` marks a connection CLOSING and, if no counted write is pending, calls
`uv_close` on its timer and its TCP handle; the second close callback takes the connection out of
the server's list and frees it.  While a counted write is pending the close is put off: "The last
write completion will detect CLOSING state and call close again".  It does, and the second call
finds the connection CLOSING and returns at once.  The handles are NEVER closed, and the connection
stays in the list.

A second flaw is in the count of the handles.  A read that completes a request and then fails to
parse closes the handles and, back in `on_read`, sends the request to the thread pool, which marks
the connection PROCESSING.  The next call of `uv_http_conn_close` sets the count to zero while both
callbacks are still to come, and EACH of them frees the connection.

Here the connections stand in the server's list, which runs through their `next` and `prev` fields,
and the handles are closed one by one:

* `Tidy.onEvent` -- what the fields of a connection say about its handles, kept by every event that
  runs into neither flaw;
* `Listed.step` -- the list holds the connections that are not freed;
* `close_run` -- a connection that was asked to close is freed once, and is no longer in the list.
-/
import Buckets.ConnLifetime
import Buckets.Lib.LinkedList

namespace Buckets.ConnClose

open Conn ConnLifetime LinkedList

variable {S W : Type}

/-! ## 1. The calls of `uv_http_conn_close` -/

/-- The connection on which an event calls `uv_http_conn_close`, as it is at the call. -/
def closeCall (server : Server S W) (c : Conn S W) : ConnEvent → Option (Conn S W)
  | .read cbs parsed =>
    if c.handlesClosing then none
    else
      let out := callbacks server c.wake cbs
      if out.2 && parsed then none
      else some (if out.1.responseStarted then out.1 else out.1.tryWrite badRequest)
  | .eof => if c.handlesClosing then none else some c
  | .timeout =>
    if c.timer then
      if c.state = .processing ∨ c.asyncWork.isSome then none
      else
        let c := { c with timer := false }
        some (if c.responseStarted = false ∧ c.state ≠ .closing then c.tryWrite requestTimeout
          else c)
    else none
  | .work => none
  | .afterWork => none
  | .written ok =>
    match c.queue with
    | [] => none
    | w :: queue =>
      if ok && !c.handlesClosing then
        let c := c.endWrite w queue true
        if c.state = .closing ∧ c.pendingWrites = 0 then some c
        else if c.pendingFinalWrite then
          let c := { c with pendingFinalWrite := false }
          if c.keepAlive ∧ c.state ≠ .closing then none else some c
        else none
      else some (c.endWrite w queue false)

/-! ## 2. Connections and their handles -/

/-- The two handles of a connection. -/
inductive Handle where
  | timer
  | tcp
  deriving DecidableEq

/-- A connection with what `uv_http_conn_close` and `on_handle_close` keep in it. -/
structure Closing (S W : Type) where
  conn : Conn S W
  pendingCloseCount : ℤ
  /-- The close callbacks that are still to come. -/
  timerLeft : Bool
  tcpLeft : Bool
  /-- `uv_http_conn_close` was called. -/
  requested : Bool
  /-- How often the connection was freed. -/
  freed : ℕ

namespace Closing

def create (world : W) : Closing S W where
  conn := .create world
  pendingCloseCount := 0
  timerLeft := false
  tcpLeft := false
  requested := false
  freed := 0

/-- What `uv_http_conn_close` does to the count and the handles, when the connection is `c`. -/
def call (l : Closing S W) (c : Conn S W) : Closing S W :=
  if c.state = .closing ∨ 0 < c.pendingWrites then { l with requested := true }
  -- the handles are closing already, and the count is lost
  else if c.handlesClosing then { l with requested := true, pendingCloseCount := 0 }
  else
    { l with requested := true, pendingCloseCount := 2, timerLeft := true, tcpLeft := true }

/-- An event of the connection; libuv reports none when the connection is freed. -/
def onEvent (server : Server S W) (l : Closing S W) (e : ConnEvent) : Closing S W :=
  if 0 < l.freed then l
  else
    { (match closeCall server l.conn e with
        | some c => l.call c
        | none => l) with
      conn := l.conn.step server e }

/-- `uv_http_conn_close`, called by `on_shutdown_async` or by `on_connection`. -/
def onClose (l : Closing S W) : Closing S W :=
  if 0 < l.freed then l else { l.call l.conn with conn := l.conn.close }

/-- The close callback of a handle is to come; that of the TCP handle comes after the writes. -/
def reports (l : Closing S W) : Handle → Bool
  | .timer => l.timerLeft
  | .tcp => l.tcpLeft && l.conn.queue.isEmpty

/-- `on_handle_close`, as far as the count. -/
def handleClosed (l : Closing S W) : Handle → Closing S W
  | .timer => { l with pendingCloseCount := l.pendingCloseCount - 1, timerLeft := false }
  | .tcp => { l with pendingCloseCount := l.pendingCloseCount - 1, tcpLeft := false }

end Closing

/-! ## 3. The server's connections -/

/-- The connections of a server by their addresses, and its list of them. -/
structure Loop (S W : Type) where
  conns : ℕ → Option (Closing S W)
  /-- The next address that is given to a connection. -/
  fresh : ℕ
  next : ℕ → Option ℕ
  prev : ℕ → Option ℕ
  connections : Option ℕ
  connectionCount : ℕ

inductive LoopEvent (W : Type) where
  /-- `on_connection`; `false` if `uv_accept` or `uv_read_start` fails. -/
  | accept (world : W) (ok : Bool)
  | conn (a : ℕ) (e : ConnEvent)
  /-- `on_shutdown_async` comes to this connection. -/
  | close (a : ℕ)
  | handleClose (a : ℕ) (h : Handle)

/-- The addresses from a pointer on. -/
def walk (next : ℕ → Option ℕ) : ℕ → Option ℕ → List ℕ
  | 0, _ => []
  | _ + 1, none => []
  | n + 1, some a => a :: walk next n (next a)

namespace Loop

def start : Loop S W where
  conns _ := none
  fresh := 0
  next _ := none
  prev _ := none
  connections := none
  connectionCount := 0

/-- The server's list of connections. -/
def list (t : Loop S W) : List ℕ := walk t.next t.connectionCount t.connections

def set (t : Loop S W) (a : ℕ) (l : Closing S W) : Loop S W :=
  { t with conns := Function.update t.conns a (some l) }

/-- `uv_http_conn_create`: the connection is put in front of the list. -/
def create (t : Loop S W) (l : Closing S W) : Loop S W where
  conns := Function.update t.conns t.fresh (some l)
  fresh := t.fresh + 1
  next := Function.update t.next t.fresh t.connections
  prev := past (Function.update t.prev t.fresh none) t.connections (some t.fresh)
  connections := some t.fresh
  connectionCount := t.connectionCount + 1

/-- The part of `on_handle_close` that takes the connection out of the list. -/
def unlink (t : Loop S W) (a : ℕ) : Loop S W :=
  { t with
    next := past t.next (t.prev a) (t.next a)
    prev := past t.prev (t.next a) (t.prev a)
    connections := startPast (t.prev a) t.connections (t.next a)
    connectionCount := t.connectionCount - 1 }

/-- `on_handle_close`, from the count on. -/
def onHandleClose (t : Loop S W) (a : ℕ) (l : Closing S W) : Loop S W :=
  if 0 < l.pendingCloseCount then t.set a l
  else (t.unlink a).set a { l with freed := l.freed + 1 }

def step (server : Server S W) (t : Loop S W) : LoopEvent W → Loop S W
  | .accept world ok => t.create (if ok then .create world else (Closing.create world).onClose)
  | .conn a e =>
    match t.conns a with
    | some l => t.set a (l.onEvent server e)
    | none => t
  | .close a =>
    match t.conns a with
    | some l => t.set a l.onClose
    | none => t
  | .handleClose a h =>
    match t.conns a with
    | some l => if l.reports h then t.onHandleClose a (l.handleClosed h) else t
    | none => t

def run (server : Server S W) (t : Loop S W) (events : List (LoopEvent W)) : Loop S W :=
  events.foldl (step server) t

end Loop

/-! ## 4. Orderly runs -/

/-- **What an event may be.**  `uv_http_conn_close` is called on open handles with no counted write
pending, and no read completes a request and then fails to parse. -/
def Orderly (server : Server S W) (c : Conn S W) (e : ConnEvent) : Prop :=
  (∀ d ∈ closeCall server c e, d.handlesClosing = false → d.pendingWrites = 0) ∧
    ∀ cbs parsed, e = .read cbs parsed → .messageComplete ∈ cbs → Life.Parses server c cbs parsed

def Loop.Orderly (server : Server S W) (t : Loop S W) : LoopEvent W → Prop
  | .accept _ _ => True
  | .conn a e => ∀ l ∈ t.conns a, ConnClose.Orderly server l.conn e
  | .close a => ∀ l ∈ t.conns a, l.conn.handlesClosing = false → l.conn.pendingWrites = 0
  | .handleClose _ _ => True

def Loop.OrderlyRun (server : Server S W) : Loop S W → List (LoopEvent W) → Prop
  | _, [] => True
  | t, e :: events => t.Orderly server e ∧ OrderlyRun server (t.step server e) events

/-! ## 5. One event -/

variable {server : Server S W} {c d : Conn S W} {e : ConnEvent}

/-- No request waits to be processed, and the connection is CLOSING as long as its handles are. -/
structure Settled (c : Conn S W) : Prop where
  notComplete : c.messageComplete = false
  closing : c.state = .closing ↔ c.handlesClosing = true

theorem Settled.of_eq (h : Settled c) (hs : d.state = c.state)
    (hh : d.handlesClosing = c.handlesClosing) (hm : d.messageComplete = c.messageComplete) :
    Settled d :=
  ⟨hm.trans h.notComplete, by rw [hs, hh]; exact h.closing⟩

theorem settled_of_open (hm : c.messageComplete = false) (hs : c.state ≠ .closing)
    (hh : c.handlesClosing = false) : Settled c :=
  ⟨hm, by simp [hs, hh]⟩

theorem settled_close (h : Settled c) (hp : c.handlesClosing = false → c.pendingWrites = 0) :
    Settled c.close ∧ c.close.handlesClosing = true := by
  unfold close
  split
  · rename_i hs
    exact ⟨h, h.closing.mp hs⟩
  · rename_i hs
    have hopen : c.handlesClosing = false := by simpa using mt h.closing.mpr hs
    rw [if_neg (by simp [hp hopen])]
    exact ⟨⟨h.notComplete, by simp⟩, rfl⟩

theorem tryWrite_same (c : Conn S W) (text : CString) :
    (c.tryWrite text).state = c.state ∧ (c.tryWrite text).handlesClosing = c.handlesClosing ∧
      (c.tryWrite text).messageComplete = c.messageComplete ∧
      (c.tryWrite text).queue = c.queue := by
  unfold tryWrite
  split <;> exact ⟨rfl, rfl, rfl, rfl⟩

/-- Nothing is queued on a connection that is not valid for writing. -/
theorem queue_respond (hv : c.validForWrite = false) (r : Response) :
    (c.respond r).queue = c.queue := by
  have hstart : (c.responseStart r).queue = c.queue ∧
      (c.responseStart r).validForWrite = false := by
    unfold responseStart
    split
    · exact ⟨rfl, hv⟩
    · split
      · exact ⟨rfl, hv⟩
      · rw [if_neg (by simp [hv])]
        exact ⟨rfl, hv⟩
  have hwrites : ∀ (writes : List Bytes) (d : Conn S W), d.validForWrite = false →
      (writes.foldl responseWrite d).queue = d.queue := by
    intro writes
    induction writes with
    | nil => exact fun _ _ => rfl
    | cons data writes ih =>
      intro d hd
      have hdata : (d.responseWrite data).queue = d.queue ∧
          (d.responseWrite data).validForWrite = false := by
        unfold responseWrite
        split
        · exact ⟨rfl, hd⟩
        · split
          · exact ⟨rfl, hd⟩
          · rw [if_neg (by simp [hd])]
            exact ⟨rfl, hd⟩
      exact (ih _ hdata.2).trans hdata.1
  have hboth := (hwrites r.writes _ hstart.2).trans hstart.1
  unfold respond
  dsimp only
  split
  · exact hboth
  · exact hboth

/-- A handler in the thread pool touches neither the state nor the handles. -/
theorem runWork_same (c : Conn S W) :
    c.runWork.state = c.state ∧ c.runWork.handlesClosing = c.handlesClosing ∧
      c.runWork.messageComplete = c.messageComplete ∧
      (c.validForWrite = false → c.runWork.queue = c.queue) := by
  unfold runWork
  split
  · rename_i async _
    split
    · exact ⟨rfl, rfl, rfl, fun _ => rfl⟩
    · unfold call respondIfAny
      dsimp only
      split
      · exact ⟨rfl, rfl, rfl, fun _ => rfl⟩
      · refine ⟨?_, ?_, ?_, fun hv => queue_respond (by exact hv) _⟩ <;> rw [sendsOnly_respond]
  · exact ⟨rfl, rfl, rfl, fun _ => rfl⟩

theorem afterWork_same (c : Conn S W) :
    c.afterWork.state = c.state ∧ c.afterWork.handlesClosing = c.handlesClosing ∧
      c.afterWork.messageComplete = c.messageComplete ∧
      (c.validForWrite = false → c.afterWork.queue = c.queue) := by
  unfold afterWork
  split
  · split
    · exact ⟨rfl, rfl, rfl, fun _ => rfl⟩
    · split
      · exact ⟨rfl, rfl, rfl, fun _ => rfl⟩
      · rename_i hv
        split
        · exact ⟨rfl, rfl, rfl, fun h => absurd h hv⟩
        · split
          · refine ⟨?_, ?_, ?_, fun h => absurd h hv⟩ <;> rw [sendsOnly_respond]
          · exact ⟨rfl, rfl, rfl, fun _ => rfl⟩
  · exact ⟨rfl, rfl, rfl, fun _ => rfl⟩

/-- A request that is processed leaves an open connection open. -/
theorem processRequest_open (server : Server S W) (hm : c.messageComplete = false)
    (hs : c.state ≠ .closing) :
    (processRequest server c).messageComplete = false ∧
      (processRequest server c).state ≠ .closing ∧
      (processRequest server c).handlesClosing = c.handlesClosing := by
  have hdone : ∀ {d : Conn S W}, Frame c d → d.messageComplete = false →
      d.processDone.messageComplete = false ∧ d.processDone.state ≠ .closing ∧
        d.processDone.handlesClosing = c.handlesClosing := by
    intro d hf hd
    have hf' := hf.trans (frame_processDone d)
    exact ⟨(messageComplete_processDone d).trans hd, hf'.state hs, hf'.handles⟩
  unfold processRequest
  split
  · exact hdone (Frame.refl c) hm
  · split
    · exact ⟨hm, by simp [queueAsync], rfl⟩
    · exact hdone (frame_call c _) ((messageComplete_call c _).trans hm)
    · exact hdone (frame_respond c _) ((messageComplete_respond c _).trans hm)

theorem wake_notComplete (h : c.messageComplete = false) : c.wake.messageComplete = false := by
  rw [← h]
  unfold wake
  split <;> rfl

theorem frame_read (server : Server S W) (c : Conn S W) (cbs : List Callback) :
    Frame c (callbacks server c.wake cbs).1 :=
  (frame_wake c).trans (frame_callbacks ..)

/-- **An event that does not call `uv_http_conn_close`** leaves the handles. -/
theorem Settled.step_none (h : Settled c) (hcall : closeCall server c e = none) :
    Settled (c.step server e) ∧ (c.step server e).handlesClosing = c.handlesClosing := by
  cases e with
  | read cbs parsed =>
    rw [step]
    split
    · exact ⟨h, rfl⟩
    · rename_i hh
      have hopen : c.state ≠ .closing := mt h.closing.mp hh
      have hf := frame_read server c cbs
      have hok : ((callbacks server c.wake cbs).2 && parsed) = true := by
        by_contra hfail
        simp [closeCall, hh, hfail] at hcall
      have hs := hf.state hopen
      rw [onRead, processIfComplete, execute, if_pos hok]
      split
      · obtain ⟨hm, hs', hh'⟩ := processRequest_open server
          (c := { (callbacks server c.wake cbs).1 with messageComplete := false }) rfl hs
        have hsame := hh'.trans hf.handles
        exact ⟨settled_of_open hm hs' (hsame.trans (by simpa using hh)), hsame⟩
      · rename_i hm
        exact ⟨settled_of_open (by simpa using hm) hs (hf.handles.trans (by simpa using hh)),
          hf.handles⟩
  | eof =>
    rw [step]
    split
    · exact ⟨h, rfl⟩
    · rename_i hh
      simp [closeCall, hh] at hcall
  | timeout =>
    rw [step]
    split
    · rename_i ht
      rw [onTimeout]
      split
      · exact ⟨h, rfl⟩
      · rename_i hidle
        simp [closeCall, ht, hidle] at hcall
    · exact ⟨h, rfl⟩
  | work =>
    obtain ⟨hs, hh, hm, -⟩ := runWork_same c
    exact ⟨h.of_eq hs hh hm, hh⟩
  | afterWork =>
    obtain ⟨hs, hh, hm, -⟩ := afterWork_same c
    exact ⟨h.of_eq hs hh hm, hh⟩
  | written ok =>
    rw [step, onWriteComplete]
    rw [closeCall] at hcall
    split
    · exact ⟨h, rfl⟩
    · rename_i w queue hqueue
      rw [hqueue] at hcall
      dsimp only at hcall
      split
      · rename_i hok
        rw [if_pos hok] at hcall
        dsimp only
        split
        · rename_i hlast
          rw [if_pos hlast] at hcall
          cases hcall
        · rename_i hlast
          rw [if_neg hlast] at hcall
          rw [finalWrite]
          split
          · rename_i hfinal
            rw [if_pos hfinal] at hcall
            dsimp only at hcall ⊢
            split
            · have hopen : c.handlesClosing = false := by
                simpa using (Bool.and_eq_true_iff.mp hok).2
              exact ⟨settled_of_open rfl (by simp) hopen, rfl⟩
            · rename_i hkeep
              rw [if_neg hkeep] at hcall
              cases hcall
          · exact ⟨h.of_eq rfl rfl rfl, rfl⟩
      · rename_i hok
        rw [if_neg hok] at hcall
        cases hcall

/-- **An event that calls `uv_http_conn_close`** does nothing after it. -/
theorem Settled.step_some (h : Settled c) (hcall : closeCall server c e = some d)
    (ho : ∀ cbs parsed, e = .read cbs parsed → .messageComplete ∈ cbs →
      Life.Parses server c cbs parsed) :
    c.step server e = d.close ∧ Settled d ∧ d.handlesClosing = c.handlesClosing := by
  cases e with
  | read cbs parsed =>
    rw [closeCall] at hcall
    split at hcall
    · cases hcall
    · rename_i hh
      have hopen : c.state ≠ .closing := mt h.closing.mp hh
      have hf := frame_read server c cbs
      dsimp only at hcall
      split at hcall
      · cases hcall
      · rename_i hok
        obtain rfl := Option.some.inj hcall
        have hparse : ¬ Life.Parses server c cbs parsed := by
          simpa [Life.Parses, and_comm] using hok
        have hm := messageComplete_callbacks server
          (fun hmem => hparse (ho cbs parsed rfl hmem)) (wake_notComplete h.notComplete)
        have hd : Settled (callbacks server c.wake cbs).1 :=
          settled_of_open hm (hf.state hopen) (hf.handles.trans (by simpa using hh))
        obtain ⟨hs, hh', hm', -⟩ := tryWrite_same (callbacks server c.wake cbs).1 badRequest
        have hd' : Settled (if (callbacks server c.wake cbs).1.responseStarted then
              (callbacks server c.wake cbs).1
            else (callbacks server c.wake cbs).1.tryWrite badRequest) ∧
            (if (callbacks server c.wake cbs).1.responseStarted then
              (callbacks server c.wake cbs).1
            else (callbacks server c.wake cbs).1.tryWrite badRequest).handlesClosing =
              c.handlesClosing := by
          split
          · exact ⟨hd, hf.handles⟩
          · exact ⟨hd.of_eq hs hh' hm', hh'.trans hf.handles⟩
        refine ⟨?_, hd'⟩
        rw [step, if_neg hh, onRead, processIfComplete, execute, if_neg hok, parseError,
          (closes_close _).complete, hd'.1.notComplete]
        exact if_neg (by simp)
  | eof =>
    rw [closeCall] at hcall
    split at hcall
    · cases hcall
    · rename_i hh
      obtain rfl := Option.some.inj hcall
      exact ⟨by rw [step, if_neg hh], h, rfl⟩
  | timeout =>
    rw [closeCall] at hcall
    split at hcall
    · rename_i ht
      split at hcall
      · cases hcall
      · rename_i hidle
        obtain rfl := Option.some.inj hcall
        obtain ⟨hs, hh, hm, -⟩ := tryWrite_same { c with timer := false } requestTimeout
        refine ⟨by rw [step, if_pos ht, onTimeout, if_neg hidle], ?_⟩
        dsimp only
        split
        · exact ⟨h.of_eq hs hh hm, hh⟩
        · exact ⟨h.of_eq rfl rfl rfl, rfl⟩
    · cases hcall
  | work => cases hcall
  | afterWork => cases hcall
  | written ok =>
    rw [closeCall] at hcall
    rw [step, onWriteComplete]
    split
    · rename_i hqueue
      rw [hqueue] at hcall
      cases hcall
    · rename_i w queue hqueue
      rw [hqueue] at hcall
      dsimp only at hcall
      split
      · rename_i hok
        rw [if_pos hok] at hcall
        dsimp only
        split
        · rename_i hlast
          rw [if_pos hlast] at hcall
          obtain rfl := Option.some.inj hcall
          exact ⟨rfl, h.of_eq rfl rfl rfl, rfl⟩
        · rename_i hlast
          rw [if_neg hlast] at hcall
          rw [finalWrite]
          split
          · rename_i hfinal
            rw [if_pos hfinal] at hcall
            dsimp only at hcall ⊢
            split
            · rename_i hkeep
              rw [if_pos hkeep] at hcall
              cases hcall
            · rename_i hkeep
              rw [if_neg hkeep] at hcall
              obtain rfl := Option.some.inj hcall
              exact ⟨rfl, h.of_eq rfl rfl rfl, rfl⟩
          · rename_i hfinal
            rw [if_neg hfinal] at hcall
            cases hcall
      · rename_i hok
        rw [if_neg hok] at hcall
        obtain rfl := Option.some.inj hcall
        exact ⟨rfl, h.of_eq rfl rfl rfl, rfl⟩

/-! ## 6. The fields of a connection -/

/-- **What the fields say.**  The count is that of the callbacks to come; none is to come before the
handles are closed, and the connection is freed with the last one. -/
structure Tidy (l : Closing S W) : Prop where
  settled : Settled l.conn
  requested : l.requested = true ↔ l.conn.handlesClosing = true
  count : l.pendingCloseCount = l.timerLeft.toNat + l.tcpLeft.toNat
  untouched : l.conn.handlesClosing = false →
    l.timerLeft = false ∧ l.tcpLeft = false ∧ l.freed = 0
  freed : l.conn.handlesClosing = true → l.freed = if l.timerLeft || l.tcpLeft then 0 else 1

variable {l : Closing S W}

theorem tidy_create (world : W) : Tidy (Closing.create world : Closing S W) where
  settled := ⟨rfl, by simp [Closing.create, Conn.create]⟩
  requested := by simp [Closing.create, Conn.create]
  count := rfl
  untouched := fun _ => ⟨rfl, rfl, rfl⟩
  freed := fun h => by simp [Closing.create, Conn.create] at h

/-- Nothing about the handles is changed. -/
theorem Tidy.keep (h : Tidy l) (hc : Settled c) (hh : c.handlesClosing = l.conn.handlesClosing) :
    Tidy { l with conn := c } where
  settled := hc
  requested := by rw [h.requested, ← hh]
  count := h.count
  untouched := fun hopen => h.untouched (hh.symm.trans hopen)
  freed := fun hclosed => h.freed (hh.symm.trans hclosed)

/-- **`uv_http_conn_close`** closes open handles, and does nothing to closed ones. -/
theorem Tidy.call (h : Tidy l) (hd : Settled d) (hh : d.handlesClosing = l.conn.handlesClosing)
    (hp : d.handlesClosing = false → d.pendingWrites = 0) :
    Tidy { l.call d with conn := d.close } := by
  obtain ⟨hclose, hclosed⟩ := settled_close hd hp
  cases hopen : d.handlesClosing with
  | true =>
    have hs : d.state = .closing := hd.closing.mpr hopen
    have hl : l.conn.handlesClosing = true := hh.symm.trans hopen
    rw [Closing.call, if_pos (.inl hs)]
    exact ⟨hclose, by simp [hclosed], h.count, fun hnot => by simp [hclosed] at hnot,
      fun _ => h.freed hl⟩
  | false =>
    have hs : d.state ≠ .closing := fun hs => by simp [hd.closing.mp hs] at hopen
    obtain ⟨-, -, hfreed⟩ := h.untouched (hh.symm.trans hopen)
    rw [Closing.call, if_neg (by simp [hs, hp hopen]), if_neg (by simp [hopen])]
    exact ⟨hclose, by simp [hclosed], rfl, fun hnot => by simp [hclosed] at hnot,
      fun _ => hfreed⟩

theorem Tidy.onEvent (h : Tidy l) (ho : Orderly server l.conn e) : Tidy (l.onEvent server e) := by
  unfold Closing.onEvent
  split
  · exact h
  · split
    · rename_i d hcall
      obtain ⟨hstep, hd, hh⟩ := h.settled.step_some hcall ho.2
      rw [hstep]
      exact h.call hd hh (ho.1 d hcall)
    · rename_i hcall
      obtain ⟨hc, hh⟩ := h.settled.step_none hcall
      exact h.keep hc hh

theorem Tidy.onClose (h : Tidy l) (hp : l.conn.handlesClosing = false → l.conn.pendingWrites = 0) :
    Tidy l.onClose := by
  unfold Closing.onClose
  split
  · exact h
  · exact h.call h.settled rfl hp

/-- A close callback is made while the connection is there. -/
theorem Tidy.reports (h : Tidy l) {handle : Handle} (hr : l.reports handle = true) :
    l.conn.handlesClosing = true ∧ l.freed = 0 := by
  have hleft : (l.timerLeft || l.tcpLeft) = true := by
    cases handle with
    | timer => simp [show l.timerLeft = true from hr]
    | tcp => simp [(Bool.and_eq_true_iff.mp hr).1]
  have hclosed : l.conn.handlesClosing = true := by
    by_contra hopen
    obtain ⟨ht, htcp, -⟩ := h.untouched (by simpa using hopen)
    simp [ht, htcp] at hleft
  exact ⟨hclosed, by rw [h.freed hclosed, if_pos hleft]⟩

theorem handleClosed_same (l : Closing S W) (handle : Handle) :
    (l.handleClosed handle).conn = l.conn ∧ (l.handleClosed handle).requested = l.requested ∧
      (l.handleClosed handle).freed = l.freed := by
  cases handle <;> exact ⟨rfl, rfl, rfl⟩

theorem Tidy.count_handleClosed (h : Tidy l) {handle : Handle} (hr : l.reports handle = true) :
    (l.handleClosed handle).pendingCloseCount =
      (l.handleClosed handle).timerLeft.toNat + (l.handleClosed handle).tcpLeft.toNat := by
  cases handle with
  | timer =>
    have ht : l.timerLeft = true := hr
    simp [Closing.handleClosed, h.count, ht]
  | tcp =>
    have ht : l.tcpLeft = true := (Bool.and_eq_true_iff.mp hr).1
    simp [Closing.handleClosed, h.count, ht]

/-- **`on_handle_close`** frees the connection with the second callback. -/
theorem Tidy.handleClosed (h : Tidy l) {handle : Handle} (hr : l.reports handle = true) :
    Tidy (if 0 < (l.handleClosed handle).pendingCloseCount then l.handleClosed handle
      else { l.handleClosed handle with freed := (l.handleClosed handle).freed + 1 }) := by
  obtain ⟨hclosed, hfreed⟩ := h.reports hr
  obtain ⟨hconn, hrequested, hfreed'⟩ := handleClosed_same l handle
  have hcount := h.count_handleClosed hr
  generalize l.handleClosed handle = m at *
  have hany : 0 < m.pendingCloseCount ↔ (m.timerLeft || m.tcpLeft) = true := by
    rw [hcount]
    cases m.timerLeft <;> cases m.tcpLeft <;> simp
  have hsettled : Settled m.conn := hconn ▸ h.settled
  have hreq : m.requested = true ↔ m.conn.handlesClosing = true := by
    rw [hrequested, hconn]
    exact h.requested
  have hopen : m.conn.handlesClosing ≠ false := by simp [hconn, hclosed]
  split
  · rename_i hpos
    exact ⟨hsettled, hreq, hcount, fun hn => absurd hn hopen,
      fun _ => by rw [if_pos (hany.mp hpos), hfreed', hfreed]⟩
  · rename_i hpos
    exact ⟨hsettled, hreq, hcount, fun hn => absurd hn hopen,
      fun _ => by rw [if_neg (mt hany.mpr hpos), hfreed', hfreed]⟩

/-! ## 7. The list -/

variable {t : Loop S W} {a : ℕ}

/-- **The list holds the connections that are not freed**, each once. -/
structure Listed (t : Loop S W) (tail : Option ℕ) (as : List ℕ) : Prop where
  tidy : ∀ a l, t.conns a = some l → Tidy l
  fresh : ∀ a, t.fresh ≤ a → t.conns a = none
  linked : Linked t.next t.prev t.connections tail as
  count : t.connectionCount = as.length
  mem : ∀ a, a ∈ as ↔ ∃ l, t.conns a = some l ∧ l.freed = 0

theorem listed_start : Listed (Loop.start : Loop S W) none [] where
  tidy := fun _ _ h => by cases h
  fresh := fun _ _ => rfl
  linked := linked_nil _ _
  count := rfl
  mem := by simp [Loop.start]

variable {tail : Option ℕ} {as : List ℕ}

theorem walk_eq {next : ℕ → Option ℕ} : ∀ {as : List ℕ} {p : Option ℕ}, Seg next p as none →
    walk next as.length p = as
  | [], _, _ => rfl
  | a :: as, _, ⟨hp, h⟩ => by
    subst hp
    rw [List.length_cons, walk, walk_eq h]

theorem Listed.list_eq (h : Listed t tail as) : t.list = as := by
  rw [Loop.list, h.count]
  exact walk_eq h.linked.forward

/-- A connection changes and is not freed by it. -/
theorem Listed.set (h : Listed t tail as) (hl : t.conns a = some l) {l' : Closing S W}
    (htidy : Tidy l') (hfreed : l'.freed = l.freed) : Listed (t.set a l') tail as := by
  refine ⟨?_, ?_, h.linked, h.count, ?_⟩
  · intro b m hm
    by_cases hab : b = a
    · subst hab
      obtain rfl : l' = m := by simpa [Loop.set] using hm
      exact htidy
    · exact h.tidy b m (by simpa [Loop.set, hab] using hm)
  · intro b hb
    have hab : b ≠ a := by
      rintro rfl
      rw [h.fresh b hb] at hl
      cases hl
    simpa [Loop.set, hab] using h.fresh b hb
  · intro b
    rw [h.mem]
    by_cases hab : b = a
    · subst hab
      simp [Loop.set, hl, hfreed]
    · simp [Loop.set, hab]

theorem Listed.create (h : Listed t tail as) {l' : Closing S W} (htidy : Tidy l')
    (hfreed : l'.freed = 0) :
    ∃ tail', Listed (t.create l') tail' (t.fresh :: as) := by
  have hnew : t.fresh ∉ as := by
    rw [h.mem, h.fresh _ le_rfl]
    simp
  refine ⟨_, ⟨?_, ?_, h.linked.push hnew, congrArg (· + 1) h.count, ?_⟩⟩
  · intro b m hm
    by_cases hb : b = t.fresh
    · subst hb
      obtain rfl : l' = m := by simpa [Loop.create] using hm
      exact htidy
    · exact h.tidy b m (by simpa [Loop.create, hb] using hm)
  · intro b hb
    have hb' : b ≠ t.fresh := Nat.ne_of_gt hb
    simpa [Loop.create, hb'] using h.fresh b (Nat.le_of_succ_le hb)
  · intro b
    by_cases hb : b = t.fresh
    · simp [Loop.create, hb, hfreed]
    · simp [Loop.create, hb, h.mem]

/-- The last close callback takes the connection out. -/
theorem Listed.free (h : Listed t tail as) (hl : t.conns a = some l) (hfreed : l.freed = 0)
    {l' : Closing S W} (htidy : Tidy l') (hfreed' : l'.freed = 1) :
    ∃ tail' as', Listed ((t.unlink a).set a l') tail' as' := by
  obtain ⟨xs, ys, rfl⟩ := List.append_of_mem ((h.mem a).mpr ⟨l, hl, hfreed⟩)
  refine ⟨_, xs ++ ys, ⟨?_, ?_, h.linked.unlink, ?_, ?_⟩⟩
  · intro b m hm
    by_cases hab : b = a
    · subst hab
      obtain rfl : l' = m := by simpa [Loop.set] using hm
      exact htidy
    · exact h.tidy b m (by simpa [Loop.set, Loop.unlink, hab] using hm)
  · intro b hb
    have hab : b ≠ a := by
      rintro rfl
      rw [h.fresh b hb] at hl
      cases hl
    simpa [Loop.set, Loop.unlink, hab] using h.fresh b hb
  · simp [Loop.set, Loop.unlink, h.count]
  · intro b
    have hnot : a ∉ xs ++ ys := (List.nodup_middle.mp h.linked.nodup).notMem
    by_cases hab : b = a
    · subst hab
      simpa [Loop.set, hfreed'] using hnot
    · have hmem := h.mem b
      simp only [List.mem_append, List.mem_cons, hab, false_or] at hmem
      simpa [Loop.set, Loop.unlink, hab] using hmem

theorem freed_onEvent (l : Closing S W) (e : ConnEvent) : (l.onEvent server e).freed = l.freed := by
  unfold Closing.onEvent
  split
  · rfl
  · split
    · unfold Closing.call
      split
      · rfl
      · split <;> rfl
    · rfl

theorem freed_onClose (l : Closing S W) : l.onClose.freed = l.freed := by
  unfold Closing.onClose Closing.call
  split
  · rfl
  · split
    · rfl
    · split <;> rfl

theorem Listed.step (h : Listed t tail as) {e : LoopEvent W} (ho : t.Orderly server e) :
    ∃ tail' as', Listed (t.step server e) tail' as' := by
  cases e with
  | accept world ok =>
    have hnew : Tidy (if ok then Closing.create world else (Closing.create world).onClose :
        Closing S W) ∧ (if ok then Closing.create world else (Closing.create world).onClose :
        Closing S W).freed = 0 := by
      cases ok with
      | true => exact ⟨tidy_create world, rfl⟩
      | false => exact ⟨(tidy_create world).onClose fun _ => rfl,
          freed_onClose (Closing.create world)⟩
    obtain ⟨tail', h'⟩ := h.create hnew.1 hnew.2
    exact ⟨tail', _, h'⟩
  | conn a e =>
    rw [Loop.step]
    split
    · rename_i l hl
      exact ⟨tail, as, h.set hl ((h.tidy a l hl).onEvent (ho l hl)) (freed_onEvent l e)⟩
    · exact ⟨tail, as, h⟩
  | close a =>
    rw [Loop.step]
    split
    · rename_i l hl
      exact ⟨tail, as, h.set hl ((h.tidy a l hl).onClose (ho l hl)) (freed_onClose l)⟩
    · exact ⟨tail, as, h⟩
  | handleClose a handle =>
    rw [Loop.step]
    split
    · rename_i l hl
      split
      · rename_i hr
        have hfreed := ((h.tidy a l hl).reports hr).2
        have hsame : (l.handleClosed handle).freed = l.freed := by cases handle <;> rfl
        have htidy := (h.tidy a l hl).handleClosed hr
        rw [Loop.onHandleClose]
        split
        · rename_i hcount
          rw [if_pos hcount] at htidy
          exact ⟨tail, as, h.set hl htidy hsame⟩
        · rename_i hcount
          rw [if_neg hcount] at htidy
          exact h.free hl hfreed htidy (by simp [hsame, hfreed])
      · exact ⟨tail, as, h⟩
    · exact ⟨tail, as, h⟩

theorem Listed.run : ∀ {events : List (LoopEvent W)} {t : Loop S W} {tail : Option ℕ} {as : List ℕ},
    Listed t tail as → t.OrderlyRun server events →
      ∃ tail' as', Listed (t.run server events) tail' as'
  | [], _, tail, as, h, _ => ⟨tail, as, h⟩
  | _ :: _, _, _, _, h, ho => by
    obtain ⟨_, _, h'⟩ := h.step ho.1
    exact h'.run ho.2

/-! ## 8. To the end -/

/-- The handles are closed, and all writes were reported. -/
structure Shutting (l : Closing S W) : Prop where
  handles : l.conn.handlesClosing = true
  writes : l.conn.queue = []

theorem Shutting.onEvent (server : Server S W) (h : Shutting l) (htidy : Tidy l) (e : ConnEvent) :
    Shutting (l.onEvent server e) ∧ (l.onEvent server e).timerLeft = l.timerLeft ∧
      (l.onEvent server e).tcpLeft = l.tcpLeft := by
  have hs : l.conn.state = .closing := htidy.settled.closing.mpr h.handles
  have hv : l.conn.validForWrite = false := by simp [validForWrite, hs]
  have hstep : (l.conn.step server e).handlesClosing = true ∧ (l.conn.step server e).queue = [] ∧
      ∀ d ∈ closeCall server l.conn e, d.state = .closing := by
    cases e with
    | read cbs parsed => simp [step, closeCall, h.handles, h.writes]
    | eof => simp [step, closeCall, h.handles, h.writes]
    | timeout =>
      simp only [step, closeCall, onTimeout]
      split
      · split
        · exact ⟨h.handles, h.writes, by simp⟩
        · simp [hs, close, h.handles, h.writes]
      · exact ⟨h.handles, h.writes, by simp⟩
    | work =>
      obtain ⟨-, hh, -, hq⟩ := runWork_same l.conn
      exact ⟨hh.trans h.handles, (hq hv).trans h.writes, by simp [closeCall]⟩
    | afterWork =>
      obtain ⟨-, hh, -, hq⟩ := afterWork_same l.conn
      exact ⟨hh.trans h.handles, (hq hv).trans h.writes, by simp [closeCall]⟩
    | written ok => simp [step, onWriteComplete, closeCall, h.handles, h.writes]
  unfold Closing.onEvent
  split
  · exact ⟨h, rfl, rfl⟩
  · split
    · rename_i d hcall
      rw [Closing.call, if_pos (.inl (hstep.2.2 d hcall))]
      exact ⟨⟨hstep.1, hstep.2.1⟩, rfl, rfl⟩
    · exact ⟨⟨hstep.1, hstep.2.1⟩, rfl, rfl⟩

theorem Shutting.onClose (h : Shutting l) (htidy : Tidy l) :
    Shutting l.onClose ∧ l.onClose.timerLeft = l.timerLeft ∧ l.onClose.tcpLeft = l.tcpLeft := by
  have hs : l.conn.state = .closing := htidy.settled.closing.mpr h.handles
  unfold Closing.onClose
  split
  · exact ⟨h, rfl, rfl⟩
  · rw [Closing.call, if_pos (.inl hs), close, if_pos hs]
    exact ⟨⟨h.handles, h.writes⟩, rfl, rfl⟩

/-- The callbacks that are still to come after some events: not more, and not those of the
events. -/
structure Left (rest : List (LoopEvent W)) (a : ℕ) (l l' : Closing S W) : Prop where
  shutting : Shutting l'
  timer : l'.timerLeft = true → l.timerLeft = true ∧ .handleClose a .timer ∉ rest
  tcp : l'.tcpLeft = true → l.tcpLeft = true ∧ .handleClose a .tcp ∉ rest

theorem conns_onHandleClose (t : Loop S W) (a : ℕ) (l : Closing S W) :
    ∃ m, (t.onHandleClose a l).conns a = some m ∧ m.conn = l.conn ∧ m.timerLeft = l.timerLeft ∧
      m.tcpLeft = l.tcpLeft := by
  unfold Loop.onHandleClose
  split
  · exact ⟨l, Function.update_self .., rfl, rfl, rfl⟩
  · exact ⟨_, Function.update_self .., rfl, rfl, rfl⟩

theorem Left.step (server : Server S W) (h : Listed t tail as) (hl : t.conns a = some l)
    (hs : Shutting l) (e : LoopEvent W) :
    ∃ l', (t.step server e).conns a = some l' ∧ Left [e] a l l' := by
  have htidy := h.tidy a l hl
  -- nothing is done to the connection at `a`
  have hkeep : (∀ handle, e ≠ .handleClose a handle) → Left [e] a l l := fun hne =>
    ⟨hs, fun ht => ⟨ht, by simpa using (hne .timer).symm⟩,
      fun ht => ⟨ht, by simpa using (hne .tcp).symm⟩⟩
  cases e with
  | accept world ok =>
    have hne : a ≠ t.fresh := by
      rintro rfl
      rw [h.fresh _ le_rfl] at hl
      cases hl
    exact ⟨l, by simpa [Loop.step, Loop.create, hne] using hl, hkeep (by simp)⟩
  | conn b e =>
    by_cases hab : a = b
    · subst hab
      obtain ⟨hs', ht, htcp⟩ := hs.onEvent server htidy e
      exact ⟨_, by simp [Loop.step, hl, Loop.set], hs', fun h => ⟨ht ▸ h, by simp⟩,
        fun h => ⟨htcp ▸ h, by simp⟩⟩
    · refine ⟨l, ?_, hkeep (by simp)⟩
      rw [Loop.step]
      split
      · simpa [Loop.set, hab] using hl
      · exact hl
  | close b =>
    by_cases hab : a = b
    · subst hab
      obtain ⟨hs', ht, htcp⟩ := hs.onClose htidy
      exact ⟨_, by simp [Loop.step, hl, Loop.set], hs', fun h => ⟨ht ▸ h, by simp⟩,
        fun h => ⟨htcp ▸ h, by simp⟩⟩
    · refine ⟨l, ?_, hkeep (by simp)⟩
      rw [Loop.step]
      split
      · simpa [Loop.set, hab] using hl
      · exact hl
  | handleClose b handle =>
    by_cases hab : a = b
    · subst hab
      -- the callback of this handle is over, whether it came now or before
      have hover : ∀ {m : Closing S W}, Shutting m →
          (m.timerLeft = true → l.timerLeft = true ∧ handle ≠ .timer) →
          (m.tcpLeft = true → l.tcpLeft = true ∧ handle ≠ .tcp) →
          Left [.handleClose a handle] a l m := by
        intro m hm ht htcp
        refine ⟨hm, fun h => ⟨(ht h).1, ?_⟩, fun h => ⟨(htcp h).1, ?_⟩⟩
        · simpa using (ht h).2.symm
        · simpa using (htcp h).2.symm
      simp only [Loop.step, hl]
      obtain ⟨m, hm, hconn, ht, htcp⟩ := conns_onHandleClose t a (l.handleClosed handle)
      have hm' : Shutting m := by
        obtain ⟨hsame, -, -⟩ := handleClosed_same l handle
        exact ⟨by rw [hconn, hsame]; exact hs.handles, by rw [hconn, hsame]; exact hs.writes⟩
      cases handle with
      | timer =>
        split
        · refine ⟨m, hm, hover hm' (fun h => ?_) fun h => ⟨htcp ▸ h, by simp⟩⟩
          rw [ht] at h
          cases h
        · rename_i hr
          exact ⟨l, hl, hover hs (fun h => absurd h hr) fun h => ⟨h, by simp⟩⟩
      | tcp =>
        split
        · refine ⟨m, hm, hover hm' (fun h => ⟨ht ▸ h, by simp⟩) fun h => ?_⟩
          rw [htcp] at h
          cases h
        · rename_i hr
          have hnot : l.tcpLeft ≠ true := by simpa [Closing.reports, hs.writes] using hr
          exact ⟨l, hl, hover hs (fun h => ⟨h, by simp⟩) fun h => absurd h hnot⟩
    · refine ⟨l, ?_, hkeep (by simpa using fun h => absurd h.symm hab)⟩
      rw [Loop.step]
      split
      · split
        · rw [Loop.onHandleClose]
          split
          · simpa [Loop.set, hab] using hl
          · simpa [Loop.set, Loop.unlink, hab] using hl
        · exact hl
      · exact hl

theorem Left.run : ∀ {rest : List (LoopEvent W)} {t : Loop S W} {tail : Option ℕ} {as : List ℕ}
    {l : Closing S W}, Listed t tail as → t.OrderlyRun server rest → t.conns a = some l →
      Shutting l → ∃ l', (t.run server rest).conns a = some l' ∧ Left rest a l l'
  | [], _, _, _, l, _, _, hl, hs => ⟨l, hl, hs, fun h => ⟨h, by simp⟩, fun h => ⟨h, by simp⟩⟩
  | e :: rest, _, _, _, l, h, ho, hl, hs => by
    obtain ⟨m, hm, hleft⟩ := Left.step server h hl hs e
    obtain ⟨_, _, h'⟩ := h.step ho.1
    obtain ⟨l', hl', hrest⟩ := Left.run h' ho.2 hm hleft.shutting
    refine ⟨l', hl', hrest.shutting, fun ht => ?_, fun ht => ?_⟩
    · obtain ⟨ht', hnot⟩ := hrest.timer ht
      obtain ⟨ht'', hne⟩ := hleft.timer ht'
      exact ⟨ht'', by simp_all⟩
    · obtain ⟨ht', hnot⟩ := hrest.tcp ht
      obtain ⟨ht'', hne⟩ := hleft.tcp ht'
      exact ⟨ht'', by simp_all⟩

theorem run_append (t : Loop S W) (events rest : List (LoopEvent W)) :
    t.run server (events ++ rest) = (t.run server events).run server rest :=
  List.foldl_append ..

/-- **A connection that is asked to close is freed once.**  In every orderly run, for every
connection on which `uv_http_conn_close` was called and whose writes were all reported: both its
handles are closed; and as soon as libuv has made their callbacks, whatever else happens, it has
been freed once and is not in the list. -/
theorem close_run (server : Server S W) {events : List (LoopEvent W)}
    (ho : (Loop.start : Loop S W).OrderlyRun server events) {a : ℕ} {l : Closing S W}
    (hl : (Loop.start.run server events).conns a = some l) (hrequested : l.requested = true)
    (hwrites : l.conn.queue = []) :
    l.conn.handlesClosing = true ∧ l.freed ≤ 1 ∧
      ∀ rest, (Loop.start.run server events).OrderlyRun server rest →
        .handleClose a .timer ∈ rest → .handleClose a .tcp ∈ rest →
        (∃ l', (Loop.start.run server (events ++ rest)).conns a = some l' ∧ l'.freed = 1) ∧
          a ∉ (Loop.start.run server (events ++ rest)).list := by
  obtain ⟨tail, as, h⟩ := listed_start.run ho
  have htidy := h.tidy a l hl
  have hclosed := htidy.requested.mp hrequested
  refine ⟨hclosed, ?_, ?_⟩
  · rw [htidy.freed hclosed]
    split <;> simp
  · intro rest hrest htimer htcp
    obtain ⟨l', hl', hleft⟩ := Left.run h hrest hl ⟨hclosed, hwrites⟩
    obtain ⟨tail', as', h'⟩ := h.run hrest
    have ht : l'.timerLeft = false := by
      by_contra ht
      exact (hleft.timer (by simpa using ht)).2 htimer
    have ht' : l'.tcpLeft = false := by
      by_contra ht
      exact (hleft.tcp (by simpa using ht)).2 htcp
    have hfreed : l'.freed = 1 := by
      rw [(h'.tidy a l' hl').freed hleft.shutting.handles, ht, ht']
      rfl
    rw [run_append]
    refine ⟨⟨l', hl', hfreed⟩, ?_⟩
    rw [h'.list_eq, h'.mem]
    rintro ⟨m, hm, hm0⟩
    rw [hl'] at hm
    rw [Option.some.inj hm, hm0] at hfreed
    cases hfreed

/-! The server of `ConnLifetime.lean`, whose handler runs in the thread pool. -/

/-- A request and its answer, which is not yet written. -/
def answered : List (LoopEvent Unit) :=
  [.accept () true,
    .conn 0 (.read [.messageBegin, .url (cstr "/"), .headersComplete 0 true, .messageComplete]
      true),
    .conn 0 .work, .conn 0 .afterWork]

theorem close_run_answered :
    (∃ l, (Loop.start.run answering (answered ++ [.conn 0 (.written true), .conn 0 .eof] ++
        [.handleClose 0 .tcp, .handleClose 0 .timer])).conns 0 = some l ∧ l.freed = 1) ∧
      0 ∉ (Loop.start.run answering (answered ++ [.conn 0 (.written true), .conn 0 .eof] ++
        [.handleClose 0 .tcp, .handleClose 0 .timer])).list := by
  have hnone : ∀ {c : Conn Unit Unit} {e : ConnEvent}, closeCall answering c e = none →
      (∀ cbs parsed, e = .read cbs parsed → .messageComplete ∈ cbs →
        Life.Parses answering c cbs parsed) → Orderly answering c e := by
    intro c e hcall hread
    exact ⟨fun d hd => by simp [hcall] at hd, hread⟩
  have horderly : (Loop.start : Loop Unit Unit).OrderlyRun answering
      (answered ++ [.conn 0 (.written true), .conn 0 .eof]) := by
    refine ⟨trivial, ?_, ?_, ?_, ?_, ?_, trivial⟩
    · rintro l hl
      obtain rfl := Option.some.inj hl
      refine hnone rfl fun cbs parsed he _ => ?_
      obtain ⟨rfl, rfl⟩ := ConnEvent.read.inj he
      exact ⟨rfl, rfl⟩
    · rintro l hl
      obtain rfl := Option.some.inj hl
      exact hnone rfl fun cbs parsed he => by cases he
    · rintro l hl
      obtain rfl := Option.some.inj hl
      exact hnone rfl fun cbs parsed he => by cases he
    · rintro l hl
      obtain rfl := Option.some.inj hl
      exact hnone rfl fun cbs parsed he => by cases he
    · rintro l hl
      obtain rfl := Option.some.inj hl
      refine ⟨fun d hd _ => ?_, fun cbs parsed he => by cases he⟩
      obtain rfl := Option.some.inj hd
      rfl
  exact (close_run answering horderly rfl rfl rfl).2.2 [.handleClose 0 .tcp, .handleClose 0 .timer]
    ⟨trivial, trivial, trivial⟩ (by simp) (by simp)

/-- **The stream ends while the answer is written**: the connection is asked to close, its write
completes, and neither handle is closed; no callback comes, and the connection stays in the list.

**A request is completed by a read that then fails to parse**, while a `100 Continue` is written:
the write fails, and each of the close callbacks frees the connection. -/
theorem close_put_off :
    ((Loop.start.run answering (answered ++ [.conn 0 .eof, .conn 0 (.written true)])).conns 0).map
        (fun l => (l.requested, l.conn.queue, l.conn.handlesClosing)) = some (true, [], false) ∧
      ((Loop.start.run answering (answered ++ [.conn 0 .eof, .conn 0 (.written true)] ++
        [.handleClose 0 .tcp, .handleClose 0 .timer])).conns 0).map (·.freed) = some 0 ∧
      (Loop.start.run answering (answered ++ [.conn 0 .eof, .conn 0 (.written true)] ++
        [.handleClose 0 .tcp, .handleClose 0 .timer])).list = [0] ∧
      ((Loop.start.run answering [.accept () true,
        .conn 0 (.read [.messageBegin, .url (cstr "/"), .headerField (cstr "Expect"),
          .headerValue (cstr "100-continue"), .headerValueComplete, .headersComplete 0 true,
          .messageComplete] false),
        .conn 0 (.written false), .handleClose 0 .tcp, .handleClose 0 .timer]).conns 0).map
        (·.freed) = some 2 :=
  ⟨rfl, rfl, rfl, rfl⟩

end Buckets.ConnClose
