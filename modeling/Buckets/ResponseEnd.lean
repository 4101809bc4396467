/-
# `net/uv_server.c`: when a response is over

A response that a handler sends on the event loop is SEVERAL writes: `uv_http_response_start` queues
the header, and each `uv_http_response_write` a piece of the body.  None of them is counted in
`pending_writes`.  When the request has been processed, `pending_final_write` is set, and
`on_write_complete` takes the next completion for that of the "final response write": it resets the
connection for the next request, or closes it.  The next completion is that of the HEADER.  A close
at this point cancels the writes of the body that the socket has not taken.

`early_end_iff` says for which connections and responses this cannot happen: nothing else is queued,
the body is empty, and the timer cannot fire in between.
-/
import Buckets.ServerRest

namespace Buckets.ResponseEnd

open Conn

variable {S W : Type}

/-! ## 1. While a response is written -/

/-- What may happen to the connection between two completions. -/
inductive Tick where
  /-- The first write of the queue was completed. -/
  | completed
  /-- The timer fires, if it is running. -/
  | timeout
  deriving DecidableEq

def Tick.event : Tick → ConnEvent
  | .completed => .written true
  | .timeout => .timeout

def ticks (server : Server S W) (c : Conn S W) (ts : List Tick) : Conn S W :=
  c.run server (ts.map Tick.event)

/-- The request is complete and was processed: `on_message_complete`, and `process_request` from the
label `done` on. -/
def finish (c : Conn S W) : Conn S W := { c with timer := false, state := .processing }.processDone

/-- The connection was neither reset nor marked for closing since it was `c`. -/
def Intact (c c' : Conn S W) : Prop :=
  c'.state ≠ .closing ∧ c'.requestsServed = c.requestsServed

/-- **The response is written before the connection is reset or closed**: with any ticks between the
response and the end of the request (there are none if a handler sends it for a complete request),
and any after that, as long as a write of the response is not completed. -/
def WrittenFirst (server : Server S W) (c : Conn S W) (r : Response) : Prop :=
  ∀ before after : List Tick,
    before.count .completed + after.count .completed < (c.respond r).queue.length →
    Intact c (ticks server (c.respond r) before) ∧
      Intact c (ticks server (finish (ticks server (c.respond r) before)) after)

/-- A connection on which a handler may start a response on the event loop. -/
structure Ready (c : Conn S W) : Prop where
  notStarted : c.responseStarted = false
  onLoop : c.asyncWork = none
  notClosing : c.state ≠ .closing
  handles : c.handlesClosing = false

/-! ## 2. The writes of a response -/

variable {c : Conn S W}

/-- The pieces of the body that are written. -/
def bodyWrites (r : Response) : List Bytes := r.writes.filter (· ≠ [])

theorem queue_writes {writes : List Bytes} (ha : c.asyncWork = none) (hv : c.validForWrite = true) :
    (writes.foldl responseWrite c).queue = c.queue ++ (writes.filter (· ≠ [])).map .data ∧
      (writes.foldl responseWrite c).asyncWork = none ∧
      (writes.foldl responseWrite c).responseStarted = c.responseStarted := by
  induction writes generalizing c with
  | nil => simp [ha]
  | cons data writes ih =>
    by_cases hdata : data = []
    · have hone : c.responseWrite data = c := by simp [responseWrite, hdata]
      rw [List.foldl_cons, hone]
      simpa [hdata] using ih ha hv
    · have hone : c.responseWrite data = { c with queue := c.queue ++ [.data data] } := by
        simp [responseWrite, hdata, ha, hv]
      rw [List.foldl_cons, hone]
      obtain ⟨hq, ha', hs⟩ := ih (c := { c with queue := c.queue ++ [.data data] }) ha hv
      exact ⟨by rw [hq]; simp [hdata], ha', hs⟩

/-- **A response on the event loop** is its header and the pieces of its body, in the queue. -/
theorem queue_respond (h : Ready c) (r : Response) :
    (c.respond r).queue = c.queue ++
        .head r.status r.headers r.contentLength c.keepAlive :: (bodyWrites r).map .data ∧
      (c.respond r).asyncWork = none ∧ (c.respond r).responseStarted = true := by
  have hv : c.validForWrite = true := by simp [validForWrite, h.notClosing, h.handles]
  have hstart : c.responseStart r = { c with
      responseStarted := true
      queue := c.queue ++ [.head r.status r.headers r.contentLength c.keepAlive] } := by
    simp [responseStart, h.notStarted, h.onLoop, hv]
  obtain ⟨hq, ha, hs⟩ := @queue_writes _ _ (c.responseStart r) r.writes
    (by rw [hstart]; exact h.onLoop) (by rw [hstart]; exact hv)
  rw [hstart] at hq ha hs
  unfold respond
  rw [hstart]
  dsimp only
  split
  · exact ⟨by simpa [responseEnd, bodyWrites] using hq, by simp [responseEnd, ha], hs⟩
  · exact ⟨by simpa [bodyWrites] using hq, ha, hs⟩

/-! ## 3. The first completion -/

theorem finish_eq (hstarted : c.responseStarted = true) :
    finish c = { c with timer := false, state := .processing, pendingFinalWrite := true } := by
  simp [finish, processDone, hstarted]

theorem state_close (c : Conn S W) : c.close.state = .closing := by
  unfold close
  split
  · assumption
  · split <;> rfl

/-- The completion of the FIRST of several writes ends the response. -/
theorem not_intact_completed (server : Server S W) {w : Written} {queue : List Written}
    (hqueue : c.queue = w :: queue) (hfinal : c.pendingFinalWrite = true)
    (hs : c.state ≠ .closing) (hh : c.handlesClosing = false) {d : Conn S W}
    (hd : d.requestsServed = c.requestsServed) :
    ¬ Intact d (ticks server c [.completed]) := by
  rintro ⟨hclosing, hserved⟩
  have hrun : ticks server c [.completed] = (c.endWrite w queue true).finalWrite := by
    simp [ticks, run, Tick.event, step, onWriteComplete, hqueue, hh, endWrite, hs]
  have hend : (c.endWrite w queue true).pendingFinalWrite = true := hfinal
  rw [hrun, finalWrite, if_pos hend] at hclosing hserved
  dsimp only at hclosing hserved
  split at hclosing
  · rename_i hkeep
    rw [if_pos hkeep] at hserved
    simp [reset, endWrite, hd] at hserved
  · exact hclosing (state_close _)

/-- A timeout while the client's body is awaited closes the connection. -/
theorem not_intact_timeout (server : Server S W) (ha : c.asyncWork = none) (htimer : c.timer = true)
    (hs : c.state ≠ .processing) (d : Conn S W) : ¬ Intact d (ticks server c [.timeout]) := by
  rintro ⟨hclosing, -⟩
  have hrun : ticks server c [.timeout] = c.onTimeout := by
    simp [ticks, run, Tick.event, step, htimer]
  rw [hrun, onTimeout, if_neg (by simp [hs, ha])] at hclosing
  exact hclosing (state_close _)

/-- Timeouts do nothing to a connection whose request is processed. -/
theorem ticks_quiet (server : Server S W) (hquiet : c.timer = false ∨ c.state = .processing) :
    ∀ {ts : List Tick}, ts.count .completed = 0 → ticks server c ts = c := by
  intro ts
  induction ts with
  | nil => exact fun _ => rfl
  | cons t ts ih =>
    intro hcount
    cases t with
    | completed => simp at hcount
    | timeout =>
      have hstep : c.step server .timeout = c := by
        rcases hquiet with htimer | hs
        · simp [step, htimer]
        · simp [step, onTimeout, hs]
      have hrest := ih (by simpa using hcount)
      unfold ticks run at hrest ⊢
      rw [List.map_cons, List.foldl_cons, Tick.event, hstep]
      exact hrest

/-! ## 4. Which responses are written -/

/-- **Which responses are written before the connection is reset or closed**: those of one write,
the header, on a connection with nothing else in the queue and no timer that could fire. -/
theorem early_end_iff (server : Server S W) {c : Conn S W} (h : Ready c) (r : Response) :
    WrittenFirst server c r ↔
      c.queue = [] ∧ (∀ data ∈ r.writes, data = []) ∧
        (c.timer = false ∨ c.state = .processing) := by
  obtain ⟨hqueue, hasync, hstarted⟩ := queue_respond h r
  have hsends := sendsOnly_respond c r
  have hlength : (c.respond r).queue.length = c.queue.length + (bodyWrites r).length + 1 := by
    rw [hqueue]
    simp [Nat.add_assoc]
  constructor
  · intro hall
    have hone : (c.respond r).queue.length = 1 := by
      by_contra hmore
      have htwo := (hall [] [.completed] (by simp; omega)).2
      obtain ⟨w, queue, hwq⟩ := List.exists_cons_of_length_pos
        (l := (c.respond r).queue) (by omega)
      have hfinish : ticks server (c.respond r) [] = c.respond r := rfl
      rw [hfinish, finish_eq hstarted] at htwo
      refine not_intact_completed (c := { c.respond r with
        timer := false, state := .processing, pendingFinalWrite := true })
        server hwq rfl (by simp) ?_ ?_ htwo
      · show (c.respond r).handlesClosing = false
        rw [hsends]
        exact h.handles
      · show c.requestsServed = (c.respond r).requestsServed
        rw [hsends]
    refine ⟨List.eq_nil_of_length_eq_zero (by omega), ?_, ?_⟩
    · intro data hdata
      by_contra hne
      have hpos : 0 < (bodyWrites r).length :=
        List.length_pos_of_mem (a := data) (by simpa [bodyWrites, hdata] using hne)
      omega
    · by_contra hrunning
      obtain ⟨htimer, hs⟩ := not_or.mp hrunning
      refine not_intact_timeout server hasync ?_ ?_ c (hall [.timeout] [] (by simp; omega)).1
      · rw [hsends]
        simpa using htimer
      · rw [hsends]
        exact hs
  · rintro ⟨hnil, hempty, hquiet⟩ before after hcount
    have hnone : bodyWrites r = [] := by
      rw [bodyWrites, List.filter_eq_nil_iff]
      intro data hdata
      simp [hempty data hdata]
    rw [hlength, hnil, hnone] at hcount
    obtain ⟨hbefore, hafter⟩ : before.count .completed = 0 ∧ after.count .completed = 0 := by
      simpa using hcount
    have hfirst : ticks server (c.respond r) before = c.respond r :=
      ticks_quiet server (by rw [hsends]; exact hquiet) hbefore
    have hsecond : ticks server (finish (c.respond r)) after = finish (c.respond r) :=
      ticks_quiet server (by rw [finish_eq hstarted]; exact .inl rfl) hafter
    rw [hfirst, hsecond, finish_eq hstarted]
    have hserved : (c.respond r).requestsServed = c.requestsServed := by rw [hsends]
    refine ⟨⟨?_, hserved⟩, by simp, hserved⟩
    rw [hsends]
    exact h.notClosing

/-- A connection whose request is complete. -/
def complete : Conn Unit Unit := { Conn.create () with timer := false, state := .processing }

/-- A server that answers with a body, on the event loop. -/
def greeting : Server Unit Unit where
  routes := []
  defaultHandler := some fun _ w =>
    (some
      { status := 200, headers := [], contentLength := 5, writes := [cstr "hello"], ended := true },
      w)
  defaultHandlerIsAsync := false

theorem early_end_iff_complete : WrittenFirst greeting complete (.bare 404 true) :=
  (early_end_iff greeting ⟨rfl, rfl, by simp [complete], rfl⟩ (.bare 404 true)).mpr
    ⟨rfl, by simp [Response.bare], .inl rfl⟩

/-- **A body that is not written.**  A request of HTTP/1.0 is answered with a header and a body;
when the header is written the handles are closed, with the body still in the queue.  The completion
of the body's write is then an error. -/
theorem early_end_hello :
    let request : ConnEvent :=
      .read [.messageBegin, .url (cstr "/"), .headersComplete 0 false, .messageComplete] true
    ((Conn.create ()).run greeting [request]).queue.length = 2 ∧
      ((Conn.create ()).run greeting [request, .written true]).handlesClosing = true ∧
      ((Conn.create ()).run greeting [request, .written true]).queue = [.data (cstr "hello")] ∧
      ¬ WrittenFirst greeting complete
        { status := 200, headers := [], contentLength := 5, writes := [cstr "hello"],
          ended := true } := by
  refine ⟨rfl, rfl, rfl, fun hall => ?_⟩
  have hfirst := (hall [] [.completed] (by decide)).2
  exact absurd hfirst.2 (by decide)

end Buckets.ResponseEnd
