/-
# What a response changes

A response is started, written piece by piece and ended.  Each of these changes the response and the
queue of a connection and nothing else (`SendsOnly`), and so does the whole (`sendsOnly_respond`).
-/
import Buckets.S3Server

namespace Buckets

namespace Conn

variable {S W : Type}

/-- Responses change the response and the queue, nothing else. -/
def SendsOnly (c c' : Conn S W) : Prop :=
  c' = { c with
    responseStarted := c'.responseStarted, queue := c'.queue, asyncWork := c'.asyncWork }

theorem SendsOnly.trans {c₁ c₂ c₃ : Conn S W} (h : SendsOnly c₁ c₂) (h' : SendsOnly c₂ c₃) :
    SendsOnly c₁ c₃ := by
  unfold SendsOnly at h h' ⊢
  rw [h] at h'
  exact h'

theorem sendsOnly_responseStart (c : Conn S W) (r : Response) :
    SendsOnly c (c.responseStart r) := by
  unfold responseStart
  split
  · rfl
  · split
    · rfl
    · split <;> rfl

theorem sendsOnly_responseWrite (c : Conn S W) (data : Bytes) :
    SendsOnly c (c.responseWrite data) := by
  unfold responseWrite
  split
  · rfl
  · split
    · rfl
    · split <;> rfl

theorem sendsOnly_writes (writes : List Bytes) (c : Conn S W) :
    SendsOnly c (writes.foldl responseWrite c) := by
  induction writes generalizing c with
  | nil => rfl
  | cons data writes ih => exact (sendsOnly_responseWrite c data).trans (ih _)

theorem sendsOnly_respond (c : Conn S W) (r : Response) : SendsOnly c (c.respond r) := by
  have hsent := (sendsOnly_responseStart c r).trans (sendsOnly_writes r.writes _)
  unfold respond
  dsimp only
  split
  · refine hsent.trans ?_
    rfl
  · exact hsent

end Conn

end Buckets
