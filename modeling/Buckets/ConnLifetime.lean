/-
# `net/uv_server.c`: who still refers to a connection that is freed

A request of an asynchronous route is a work item in libuv's thread pool, and the item holds a
pointer to its connection.  `uv_http_conn_close` looks at the pending writes and NOT at the item:
it closes the two handles, and the second close callback frees the connection.  The timeout handler
alone looks at `conn->async_work` first.  So a client that goes away while its request is in the
thread pool leaves the item with a pointer to freed memory, and the after-work callback starts by
locking a mutex in it.

`Server.lean` has one connection with the item it points to.  Here the connection is freed, and
items are kept that `conn->async_work` points to no longer: a second request that is read while the
first is in the thread pool takes the pointer over.

* `Alive.step` -- an open connection stays open while an item refers to it, if no step closes it
  and none takes the pointer over;
* `lifetime_run` -- no connection is freed too early in any run of such steps.
-/
import Buckets.ServerRest

namespace Buckets.ConnLifetime

open Conn

variable {S W : Type}

/-! ## 1. Connections that are freed -/

structure Life (S W : Type) where
  conn : Conn S W
  /-- Items in the thread pool that `conn->async_work` does not point to. -/
  stale : List (AsyncWork W)
  pendingCloseCount : ℕ
  freed : Bool
  /-- An item has used the connection after it was freed. -/
  misused : Bool

inductive LifeEvent where
  /-- An event of the connection and of the item it points to. -/
  | loop (e : ConnEvent)
  | staleWork (i : ℕ)
  | staleAfterWork (i : ℕ)
  | handleClose

/-- Whether `process_request` queues an item. -/
def queues (server : Server S W) (c : Conn S W) : Bool :=
  c.messageComplete && !c.responseStarted &&
    match handlerFor server c.method c.url with
    | some (_, async) => async
    | none => false

/-- The item whose place in `conn->async_work` is taken. -/
def replaced (server : Server S W) (c : Conn S W) : ConnEvent → Option (AsyncWork W)
  | .read cbs parsed =>
    if c.handlesClosing then none
    else
      let c := execute server c cbs parsed
      if queues server c then c.asyncWork else none
  | _ => none

namespace Life

/-- A connection that was accepted. -/
def create (world : W) : Life S W where
  conn := .create world
  stale := []
  pendingCloseCount := 0
  freed := false
  misused := false

/-- A work item still refers to the connection. -/
def Refers (l : Life S W) : Prop := l.conn.asyncWork ≠ none ∨ l.stale ≠ []

/-- An event of a connection that is there. -/
def onLoop (server : Server S W) (l : Life S W) (e : ConnEvent) : Life S W :=
  let c := l.conn.step server e
  { l with
    conn := c
    stale := l.stale ++ (replaced server l.conn e).toList
    pendingCloseCount :=
      if c.handlesClosing && !l.conn.handlesClosing then 2 else l.pendingCloseCount }

/-- An event after the connection was freed: libuv reports nothing on closed handles, but the item
is still worked on. -/
def onFreed (l : Life S W) : ConnEvent → Life S W
  | .work => if l.conn.asyncWork.isSome then { l with misused := true } else l
  | .afterWork =>
    if l.conn.asyncWork.isSome then
      { l with misused := true, conn := { l.conn with asyncWork := none } }
    else l
  | _ => l

/-- `async_handler_work` for an item that was replaced: its handler runs on the connection, and so
on the item that took its place. -/
def onStaleWork (l : Life S W) (i : ℕ) : Life S W :=
  match l.stale[i]? with
  | none => l
  | some async =>
    if async.ran then l
    else if l.freed then { l with misused := true }
    else
      { l with
        conn := l.conn.call async.handler
        stale := l.stale.set i { async with ran := true } }

/-- `async_handler_after_work` for such an item, which clears `conn->async_work` for the other. -/
def onStaleAfterWork (l : Life S W) (i : ℕ) : Life S W :=
  match l.stale[i]? with
  | none => l
  | some async =>
    if async.ran = false then l
    else if l.freed then { l with misused := true, stale := l.stale.eraseIdx i }
    else
      { l with
        conn := afterWork { l.conn with asyncWork := some async }
        stale := l.stale.eraseIdx i ++ l.conn.asyncWork.toList }

/-- `on_handle_close`.  The writes left are reported before the last handle is closed. -/
def onHandleClose (l : Life S W) : Life S W :=
  if l.pendingCloseCount = 0 then l
  else if l.pendingCloseCount = 1 then
    if l.conn.queue.length = 0 then { l with pendingCloseCount := 0, freed := true } else l
  else { l with pendingCloseCount := l.pendingCloseCount - 1 }

def step (server : Server S W) (l : Life S W) : LifeEvent → Life S W
  | .loop e => if l.freed then l.onFreed e else l.onLoop server e
  | .staleWork i => l.onStaleWork i
  | .staleAfterWork i => l.onStaleAfterWork i
  | .handleClose => l.onHandleClose

def run (server : Server S W) (l : Life S W) (events : List LifeEvent) : Life S W :=
  events.foldl (step server) l

/-- The connection was not freed before its items were done, and none has used it after. -/
def Safe (l : Life S W) : Prop := (l.freed = true → ¬ l.Refers) ∧ l.misused = false

/-- A read whose bytes llhttp and its callbacks take. -/
def Parses (server : Server S W) (c : Conn S W) (cbs : List Callback) (parsed : Bool) : Prop :=
  parsed = true ∧ (callbacks server c.wake cbs).2 = true

/-- **What an event may be.**  While an item refers to the connection: no end of stream, no read
that fails to parse or completes another request, no failed write, and no final write without
keep-alive.  And no read completes a request and then fails to parse. -/
def Calm (server : Server S W) (l : Life S W) : LifeEvent → Prop
  | .loop (.read cbs parsed) =>
    (l.Refers ∨ .messageComplete ∈ cbs → Parses server l.conn cbs parsed) ∧
      (l.Refers → .messageComplete ∉ cbs)
  | .loop .eof => ¬ l.Refers
  | .loop (.written ok) =>
    l.Refers → ok = true ∧ (l.conn.pendingFinalWrite = true → l.conn.keepAlive = true)
  | _ => True

def CalmRun (server : Server S W) : Life S W → List LifeEvent → Prop
  | _, [] => True
  | l, e :: events => Calm server l e ∧ CalmRun server (l.step server e) events

end Life

/-! ## 2. What the callbacks leave -/

/-- `c'` refers to an item if `c` does, and it is not closed if `c` is not. -/
structure Frame (c c' : Conn S W) : Prop where
  handles : c'.handlesClosing = c.handlesClosing
  async : c'.asyncWork = none ↔ c.asyncWork = none
  state : c.state ≠ .closing → c'.state ≠ .closing

variable {c c' c'' : Conn S W} {server : Server S W}

theorem Frame.refl (c : Conn S W) : Frame c c := ⟨rfl, Iff.rfl, id⟩

theorem Frame.trans (h : Frame c c') (h' : Frame c' c'') : Frame c c'' :=
  ⟨h'.handles.trans h.handles, h'.async.trans h.async, fun hs => h'.state (h.state hs)⟩

theorem asyncWork_of_asyncJob (h : c'.asyncJob = c.asyncJob) :
    c'.asyncWork = none ↔ c.asyncWork = none := by
  have h1 := congrArg (fun job => job = none) h
  simpa [asyncJob] using h1

theorem frame_respond (c : Conn S W) (r : Response) : Frame c (c.respond r) := by
  have h := sendsOnly_respond c r
  refine ⟨?_, asyncWork_of_asyncJob (sameCalls_respond c r).async, ?_⟩
  · rw [h]
  · rw [h]
    exact id

theorem frame_respondIfAny (c : Conn S W) (r : Option Response) : Frame c (c.respondIfAny r) := by
  cases r with
  | none => exact Frame.refl c
  | some r => exact frame_respond c r

theorem messageComplete_respond (c : Conn S W) (r : Response) :
    (c.respond r).messageComplete = c.messageComplete := by
  rw [sendsOnly_respond c r]

theorem messageComplete_respondIfAny (c : Conn S W) (r : Option Response) :
    (c.respondIfAny r).messageComplete = c.messageComplete := by
  cases r with
  | none => rfl
  | some r => exact messageComplete_respond c r

theorem frame_call (c : Conn S W) (handler : Handler W) : Frame c (c.call handler) := by
  have h := frame_respondIfAny { c with world := (handler c.request c.world).2 }
    (handler c.request c.world).1
  exact ⟨h.handles, h.async, h.state⟩

theorem messageComplete_call (c : Conn S W) (handler : Handler W) :
    (c.call handler).messageComplete = c.messageComplete :=
  messageComplete_respondIfAny { c with world := (handler c.request c.world).2 } _

theorem frame_wake (c : Conn S W) : Frame c c.wake := by
  unfold wake
  split
  · exact ⟨rfl, Iff.rfl, id⟩
  · exact ⟨rfl, Iff.rfl, id⟩
  · exact ⟨rfl, Iff.rfl, fun _ => by simp⟩
  · exact Frame.refl c
  · exact Frame.refl c

theorem frame_startStream (server : Server S W) (c : Conn S W) :
    Frame c (startStream server c) := by
  unfold startStream
  split
  · exact Frame.refl c
  · rename_i handler _
    have h := frame_respondIfAny c (handler.onRequestStart c.streamRequest).1
    unfold takeStart
    split <;> exact ⟨h.handles, h.async, h.state⟩

theorem messageComplete_startStream (server : Server S W) (c : Conn S W) :
    (startStream server c).messageComplete = c.messageComplete := by
  unfold startStream
  split
  · rfl
  · unfold takeStart
    split <;> exact messageComplete_respondIfAny c _

theorem frame_onMessageComplete (c : Conn S W) : Frame c c.onMessageComplete := by
  have hfinish : ∀ d : Conn S W, Frame d d.finishMessage := by
    intro d
    unfold finishMessage
    split
    · unfold finishStream
      split
      · exact ⟨rfl, Iff.rfl, id⟩
      · rename_i handler _ _ ctx _
        have h := frame_respond { d with world := (handler.onRequestComplete ctx d.world).2 }
          (handler.onRequestComplete ctx d.world).1
        exact ⟨h.handles, h.async, h.state⟩
    · exact Frame.refl d
  have h := hfinish { c with timer := false, state := .processing }
  exact ⟨h.handles, h.async, fun _ => h.state (by simp)⟩

theorem frame_callback (server : Server S W) (c : Conn S W) (cb : Callback) :
    Frame c (callback server c cb).1 := by
  cases cb with
  | messageBegin => exact ⟨rfl, Iff.rfl, fun _ => by simp [callback, onMessageBegin]⟩
  | headerField data =>
    simp only [callback, onHeaderField]
    split <;> exact ⟨rfl, Iff.rfl, id⟩
  | headerValue data =>
    simp only [callback, onHeaderValue]
    split <;> exact ⟨rfl, Iff.rfl, id⟩
  | headersComplete contentLength http11 =>
    have h := frame_startStream server (c.headersRead contentLength http11)
    exact ⟨h.handles, h.async, fun _ => h.state (by simp [headersRead])⟩
  | body data =>
    simp only [callback, onBody]
    split
    · split <;> exact ⟨rfl, Iff.rfl, id⟩
    · exact ⟨rfl, Iff.rfl, id⟩
  | messageComplete => exact frame_onMessageComplete c
  | _ => exact ⟨rfl, Iff.rfl, id⟩

theorem frame_callbacks (server : Server S W) (c : Conn S W) (cbs : List Callback) :
    Frame c (callbacks server c cbs).1 :=
  callbacks_keep (P := Frame c) (fun cb _ d h => h.trans (frame_callback server d cb))
    (Frame.refl c)

theorem messageComplete_callbacks (server : Server S W) {cbs : List Callback}
    (h : .messageComplete ∉ cbs)
    (hc : c.messageComplete = false) : (callbacks server c cbs).1.messageComplete = false := by
  refine callbacks_keep (P := fun d => d.messageComplete = false) (fun cb hcb d hd => ?_) hc
  obtain hhead | ⟨contentLength, http11, rfl⟩ | ⟨data, rfl⟩ | rfl := cb.isHead_or
  · rw [collectsOnly_callback server hhead d]
    exact hd
  · exact (messageComplete_startStream server _).trans hd
  · simp only [callback, onBody]
    split
    · split <;> exact hd
    · exact hd
  · exact absurd hcb h

/-! ## 3. Steps -/

/-- A connection that an item refers to is open; no request waits to be processed. -/
structure Held (c : Conn S W) : Prop where
  notComplete : c.messageComplete = false
  open_of_async : c.asyncWork ≠ none → c.state ≠ .closing ∧ c.handlesClosing = false

theorem Held.frame (h : Held c) (hf : Frame c c') (hm : c'.messageComplete = false) : Held c' := by
  refine ⟨hm, fun ha => ?_⟩
  obtain ⟨hs, hh⟩ := h.open_of_async (mt hf.async.mpr ha)
  exact ⟨hf.state hs, hf.handles.trans hh⟩

theorem held_of_none (hm : c.messageComplete = false) (ha : c.asyncWork = none) : Held c :=
  ⟨hm, fun h => absurd ha h⟩

/-- `c'` has the item and the request of `c`, and its handles are closed if those of `c` are. -/
structure Closes (c c' : Conn S W) : Prop where
  async : c'.asyncWork = c.asyncWork
  complete : c'.messageComplete = c.messageComplete
  handles : c.handlesClosing = true → c'.handlesClosing = true

theorem closes_close (c : Conn S W) : Closes c c.close := by
  unfold close
  split
  · exact ⟨rfl, rfl, id⟩
  · split
    · exact ⟨rfl, rfl, id⟩
    · exact ⟨rfl, rfl, fun _ => rfl⟩

theorem closes_tryWrite_close (c : Conn S W) (text : CString) :
    Closes c (c.tryWrite text).close := by
  have h := closes_close (c.tryWrite text)
  have ht : Closes c (c.tryWrite text) := by
    unfold tryWrite
    split <;> exact ⟨rfl, rfl, id⟩
  exact ⟨h.async.trans ht.async, h.complete.trans ht.complete, fun hc => h.handles (ht.handles hc)⟩

theorem closes_parseError (c : Conn S W) : Closes c c.parseError := by
  unfold parseError
  split
  · exact closes_close c
  · exact closes_tryWrite_close c _

theorem Held.closes (h : Held c) (hcl : Closes c c') (ha : c.asyncWork = none) : Held c' :=
  held_of_none (hcl.complete.trans h.notComplete) (hcl.async.trans ha)

theorem frame_processDone (c : Conn S W) : Frame c c.processDone := by
  unfold processDone
  split
  · have h := frame_respond { c with pendingFinalWrite := true } (.bare 500 true)
    exact ⟨h.handles, h.async, h.state⟩
  · exact ⟨rfl, Iff.rfl, id⟩

theorem messageComplete_processDone (c : Conn S W) :
    c.processDone.messageComplete = c.messageComplete := by
  unfold processDone
  split
  · exact messageComplete_respond { c with pendingFinalWrite := true } _
  · rfl

/-- A request is processed on open handles. -/
theorem Held.processRequest (h : Held c) (hh : c.handlesClosing = false) :
    Held (processRequest server c) ∧ (processRequest server c).handlesClosing = false := by
  have hdone : ∀ {d : Conn S W}, Frame c d → d.messageComplete = false →
      Held d.processDone ∧ d.processDone.handlesClosing = false := by
    intro d hf hm
    have hf' := hf.trans (frame_processDone d)
    exact ⟨h.frame hf' ((messageComplete_processDone d).trans hm), hf'.handles.trans hh⟩
  unfold Conn.processRequest
  split
  · exact hdone (Frame.refl c) h.notComplete
  · split
    · exact ⟨⟨h.notComplete, fun _ => ⟨by simp [queueAsync], hh⟩⟩, hh⟩
    · exact hdone (frame_call c _) ((messageComplete_call c _).trans h.notComplete)
    · exact hdone (frame_respond c _) ((messageComplete_respond c _).trans h.notComplete)

/-- What an event leaves: the item refers to an open connection, handles stay closed, and no item
was replaced. -/
structure Leaves (server : Server S W) (c : Conn S W) (e : ConnEvent) : Prop where
  held : Held (c.step server e)
  handles : c.handlesClosing = true → (c.step server e).handlesClosing = true
  replaced : replaced server c e = none

theorem leaves_read {cbs : List Callback} {parsed : Bool} (h : Held c)
    (hp : c.asyncWork ≠ none ∨ .messageComplete ∈ cbs → Life.Parses server c cbs parsed)
    (hm : c.asyncWork ≠ none → .messageComplete ∉ cbs) : Leaves server c (.read cbs parsed) := by
  cases hh : c.handlesClosing with
  | true =>
    have hs : c.step server (.read cbs parsed) = c := by simp [step, hh]
    exact ⟨by rw [hs]; exact h, fun _ => by rw [hs]; exact hh, by simp [ConnLifetime.replaced, hh]⟩
  | false =>
  have hf : Frame c (callbacks server c.wake cbs).1 := (frame_wake c).trans (frame_callbacks ..)
  have hwake : c.wake.messageComplete = false := by
    rw [← h.notComplete]
    unfold wake
    split <;> rfl
  have hs : c.step server (.read cbs parsed) = onRead server c cbs parsed := by simp [step, hh]
  by_cases hok : Life.Parses server c cbs parsed
  · have he : execute server c cbs parsed = (callbacks server c.wake cbs).1 := by
      simp [execute, hok.1, hok.2]
    by_cases hcomplete : .messageComplete ∈ cbs
    · -- no item was there before
      have ha : c.asyncWork = none := by
        by_contra ha
        exact hm ha hcomplete
      have ha1 : (callbacks server c.wake cbs).1.asyncWork = none := hf.async.mpr ha
      refine ⟨?_, by simp [hh], ?_⟩
      · rw [hs, onRead, processIfComplete, he]
        split
        · exact (Held.processRequest (c := { (callbacks server c.wake cbs).1 with
            messageComplete := false }) (held_of_none rfl ha1) (hf.handles.trans hh)).1
        · rename_i hmc
          exact held_of_none (by simpa using hmc) ha1
      · simp [ConnLifetime.replaced, hh, he, ha1]
    · have hmc := messageComplete_callbacks server hcomplete hwake
      refine ⟨?_, by simp [hh], ?_⟩
      · rw [hs, onRead, processIfComplete, he, hmc, if_neg (by simp)]
        exact h.frame hf hmc
      · simp [ConnLifetime.replaced, hh, he, queues, hmc]
  · have ha : c.asyncWork = none := by
      by_contra ha
      exact hok (hp (Or.inl ha))
    have hcomplete : .messageComplete ∉ cbs := fun hmem => hok (hp (Or.inr hmem))
    have hmc := messageComplete_callbacks server hcomplete hwake
    have he : execute server c cbs parsed = (callbacks server c.wake cbs).1.parseError := by
      rw [execute, if_neg (by simpa [Life.Parses, and_comm] using hok)]
    have hcl := closes_parseError (callbacks server c.wake cbs).1
    refine ⟨?_, by simp [hh], ?_⟩
    · rw [hs, onRead, processIfComplete, he, hcl.complete, hmc, if_neg (by simp)]
      exact held_of_none (hcl.complete.trans hmc) (hcl.async.trans (hf.async.mpr ha))
    · simp [ConnLifetime.replaced, hh, he, queues, hcl.complete, hmc]

theorem leaves_eof (h : Held c) (ha : c.asyncWork = none) : Leaves server c .eof := by
  refine ⟨?_, ?_, rfl⟩
  · simp only [step]
    split
    · exact h
    · exact h.closes (closes_close c) ha
  · intro hh
    simp [step, hh]

theorem leaves_timeout (h : Held c) : Leaves server c .timeout := by
  have hend : Held c.onTimeout ∧ (c.handlesClosing = true → c.onTimeout.handlesClosing = true) := by
    unfold onTimeout
    split
    · exact ⟨h, id⟩
    · rename_i hidle
      have ha : c.asyncWork = none := by simpa using (not_or.mp hidle).2
      dsimp only
      split
      · have hcl := closes_tryWrite_close { c with timer := false } requestTimeout
        exact ⟨held_of_none (hcl.complete.trans h.notComplete) (hcl.async.trans ha), hcl.handles⟩
      · have hcl := closes_close { c with timer := false }
        exact ⟨held_of_none (hcl.complete.trans h.notComplete) (hcl.async.trans ha), hcl.handles⟩
  refine ⟨?_, ?_, rfl⟩
  all_goals
    simp only [step]
    split
  · exact hend.1
  · exact h
  · exact hend.2
  · exact id

theorem leaves_work (h : Held c) : Leaves server c .work := by
  have hf : Frame c c.runWork ∧ c.runWork.messageComplete = c.messageComplete := by
    unfold runWork
    split
    · rename_i async hasync
      split
      · exact ⟨Frame.refl c, rfl⟩
      · have hc := frame_call { c with asyncWork := some { async with ran := true } } async.handler
        refine ⟨⟨hc.handles, hc.async.trans (by simp [hasync]), hc.state⟩, ?_⟩
        exact messageComplete_call { c with asyncWork := some { async with ran := true } } _
    · exact ⟨Frame.refl c, rfl⟩
  exact ⟨h.frame hf.1 (hf.2.trans h.notComplete), fun hh => hf.1.handles.trans hh, rfl⟩

theorem leaves_afterWork (h : Held c) : Leaves server c .afterWork := by
  have hend : Held c.afterWork ∧ c.afterWork.handlesClosing = c.handlesClosing := by
    unfold afterWork
    split
    · split
      · exact ⟨h, rfl⟩
      · split
        · exact ⟨held_of_none h.notComplete rfl, rfl⟩
        · split
          · exact ⟨held_of_none h.notComplete rfl, rfl⟩
          · split
            · have hf := frame_respond { c with pendingFinalWrite := true, asyncWork := none }
                (.bare 500 false)
              exact ⟨held_of_none ((messageComplete_respond _ _).trans h.notComplete)
                (hf.async.mpr rfl), hf.handles⟩
            · exact ⟨held_of_none h.notComplete rfl, rfl⟩
    · exact ⟨h, rfl⟩
  exact ⟨hend.1, fun hh => hend.2.trans hh, rfl⟩

theorem leaves_written {ok : Bool} (h : Held c)
    (hw : c.asyncWork ≠ none → ok = true ∧ (c.pendingFinalWrite = true → c.keepAlive = true)) :
    Leaves server c (.written ok) := by
  have hclose : ∀ {d : Conn S W}, Closes c d → c.asyncWork = none →
      Held d.close ∧ (c.handlesClosing = true → d.close.handlesClosing = true) := by
    intro d hd ha
    have hcl := closes_close d
    exact ⟨held_of_none (hcl.complete.trans (hd.complete.trans h.notComplete))
      (hcl.async.trans (hd.async.trans ha)), fun hh => hcl.handles (hd.handles hh)⟩
  have hend : Held (c.onWriteComplete ok) ∧
      (c.handlesClosing = true → (c.onWriteComplete ok).handlesClosing = true) := by
    unfold onWriteComplete
    split
    · exact ⟨h, id⟩
    · rename_i w queue _
      have hd : ∀ b, Closes c (c.endWrite w queue b) := fun b => ⟨rfl, rfl, id⟩
      by_cases ha : c.asyncWork = none
      · split
        · dsimp only
          split
          · exact hclose (hd true) ha
          · unfold finalWrite
            split
            · dsimp only
              split
              · exact ⟨held_of_none rfl ha, id⟩
              · exact hclose ⟨rfl, rfl, id⟩ ha
            · exact ⟨held_of_none h.notComplete ha, id⟩
        · exact hclose (hd false) ha
      · -- the write succeeded on open handles, and the connection is kept
        obtain ⟨hs, hh⟩ := h.open_of_async ha
        obtain ⟨rfl, hk⟩ := hw ha
        rw [if_pos (by simp [hh])]
        dsimp only
        rw [if_neg (by simp [endWrite, hs])]
        unfold finalWrite
        split
        · rename_i hfinal
          dsimp only
          rw [if_pos ⟨hk hfinal, hs⟩]
          exact ⟨⟨rfl, fun _ => ⟨by simp, hh⟩⟩, id⟩
        · exact ⟨⟨h.notComplete, fun _ => ⟨hs, hh⟩⟩, id⟩
  exact ⟨hend.1, hend.2, rfl⟩

/-! ## 4. Runs -/

/-- **An open connection for every item**, and a freed one only after its handles were closed. -/
structure Alive (l : Life S W) : Prop where
  held : Held l.conn
  stale : l.stale = []
  notMisused : l.misused = false
  count : l.pendingCloseCount ≠ 0 → l.conn.handlesClosing = true
  freed : l.freed = true → l.conn.handlesClosing = true

variable {l : Life S W}

theorem Alive.refers (h : Alive l) : l.Refers ↔ l.conn.asyncWork ≠ none := by
  simp [Life.Refers, h.stale]

theorem Alive.asyncWork (h : Alive l) (hh : l.conn.handlesClosing = true) :
    l.conn.asyncWork = none := by
  by_contra ha
  rw [(h.held.open_of_async ha).2] at hh
  cases hh

theorem Alive.safe (h : Alive l) : l.Safe :=
  ⟨fun hf => (not_congr h.refers).mpr (not_not.mpr (h.asyncWork (h.freed hf))), h.notMisused⟩

theorem alive_create (w : W) : Alive (Life.create w : Life S W) :=
  ⟨⟨rfl, fun h => absurd rfl h⟩, rfl, rfl, fun h => absurd rfl h, fun h => by cases h⟩

theorem Alive.onLoop (h : Alive l) {e : ConnEvent} (he : Leaves server l.conn e) :
    Alive (l.onLoop server e) := by
  refine ⟨he.held, ?_, h.notMisused, ?_, fun hf => he.handles (h.freed hf)⟩
  · simp [Life.onLoop, h.stale, he.replaced]
  · intro hcount
    simp only [Life.onLoop] at hcount ⊢
    split at hcount
    · rename_i hclosed
      exact (Bool.and_eq_true_iff.mp hclosed).1
    · exact he.handles (h.count hcount)

theorem Alive.leaves (h : Alive l) {e : ConnEvent} (hc : Life.Calm server l (.loop e)) :
    Leaves server l.conn e := by
  cases e with
  | read cbs parsed =>
    rw [Life.Calm, h.refers] at hc
    exact leaves_read h.held hc.1 hc.2
  | eof =>
    rw [Life.Calm, h.refers, not_not] at hc
    exact leaves_eof h.held hc
  | timeout => exact leaves_timeout h.held
  | work => exact leaves_work h.held
  | afterWork => exact leaves_afterWork h.held
  | written ok =>
    rw [Life.Calm, h.refers] at hc
    exact leaves_written h.held hc

theorem Alive.step (h : Alive l) {e : LifeEvent} (hc : l.Calm server e) :
    Alive (l.step server e) := by
  cases e with
  | loop e =>
    rw [Life.step]
    split
    · rename_i hfreed
      have ha := h.asyncWork (h.freed hfreed)
      have hsame : l.onFreed e = l := by cases e <;> simp [Life.onFreed, ha]
      rw [hsame]
      exact h
    · exact h.onLoop (h.leaves hc)
  | staleWork i =>
    simp only [Life.step, Life.onStaleWork, h.stale, List.getElem?_nil]
    exact h
  | staleAfterWork i =>
    simp only [Life.step, Life.onStaleAfterWork, h.stale, List.getElem?_nil]
    exact h
  | handleClose =>
    simp only [Life.step, Life.onHandleClose]
    split
    · exact h
    · rename_i hcount
      have hclosed := h.count hcount
      split
      · split
        · exact ⟨h.held, h.stale, h.notMisused, fun h0 => absurd rfl h0, fun _ => hclosed⟩
        · exact h
      · exact ⟨h.held, h.stale, h.notMisused, fun _ => hclosed, h.freed⟩

theorem Alive.run : ∀ {events : List LifeEvent} {l : Life S W}, Alive l →
    Life.CalmRun server l events → Alive (l.run server events)
  | [], _, h, _ => h
  | e :: events, l, h, hc => by
    have hrest : Alive ((l.step server e).run server events) := Alive.run (h.step hc.1) hc.2
    exact hrest

/-- **A connection is freed after its work items**, in every run of calm steps. -/
theorem lifetime_run (server : Server S W) (w : W) {events : List LifeEvent}
    (h : Life.CalmRun server (Life.create w) events) :
    ((Life.create w).run server events).Safe :=
  ((alive_create w).run h).safe

/-! A server whose only handler runs in the thread pool. -/

def answering : Server Unit Unit where
  routes := []
  defaultHandler := some fun _ w => (some (.bare 200 true), w)
  defaultHandlerIsAsync := true

/-- A request in one read. -/
def request : LifeEvent :=
  .loop (.read [.messageBegin, .url (cstr "/"), .headersComplete 0 true, .messageComplete] true)

theorem lifetime_run_answered :
    ((Life.create ()).run answering
      [request, .loop .work, .loop .timeout, .loop .afterWork, .loop (.written true), .loop .eof,
        .handleClose, .handleClose]).Safe := by
  have hnone : ∀ {l : Life Unit Unit}, l.conn.asyncWork = none → l.stale = [] → ¬ l.Refers :=
    fun ha hs h => h.elim (absurd ha) (absurd hs)
  refine lifetime_run answering () ⟨⟨fun _ => ⟨rfl, rfl⟩, fun h => ?_⟩, trivial, trivial, trivial,
    fun h => ?_, ?_, trivial, trivial, trivial⟩
  · exact absurd h (hnone rfl rfl)
  · exact absurd h (hnone rfl rfl)
  · exact hnone rfl rfl

/-- **A client that goes away.**  The stream ends while the request is in the thread pool: the
connection is freed, and the after-work callback uses it. -/
theorem lifetime_client_gone :
    ((Life.create ()).run answering [request, .loop .eof, .handleClose, .handleClose]).freed =
      true ∧ ((Life.create ()).run answering
        [request, .loop .eof, .handleClose, .handleClose]).conn.asyncWork.isSome = true ∧
      ((Life.create ()).run answering [request, .loop .eof, .handleClose, .handleClose, .loop .work,
        .loop .afterWork]).misused = true :=
  ⟨rfl, rfl, rfl⟩

end Buckets.ConnLifetime
