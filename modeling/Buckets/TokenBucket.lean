/-
# `migration/throttle.c`: the token bucket

A wait refills the bucket for the time that has passed, takes its tokens if there are enough, and
sleeps and tries again if not.  The code computes with 64-bit signed integers.  The model takes the
arithmetic as a parameter: `wrapping` is what the machine does, `checked` is what C defines.

* **Never too much** (`throttleWaits_granted`).  Under wrap-around the tokens stay between zero and
  the burst, and what is granted is bounded by the burst and the time that passed.  An overflow only
  LOSES tokens, and a clock that goes back adds none.
* **Not always enough** (`throttle_prompt_iff`).  A request above the burst is never granted: the
  refill stops at the burst.  A request within it is granted by every clock that goes on, provided
  that no product of the code overflows, and the products grow with the time between two readings.
-/
import Mathlib.Data.Int.Order.Basic
import Mathlib.Algebra.Order.Group.Unbundled.Int
import Mathlib.Tactic.Linarith
import Mathlib.Tactic.Ring

namespace Buckets.TokenBucket

/-! ## 1. The functions -/

/-- What becomes of a result that may not fit 64 bits; `none` is undefined behaviour. -/
abbrev Arith := ℤ → Option ℤ

def wrapping : Arith := fun x => some ((x + 2 ^ 63) % 2 ^ 64 - 2 ^ 63)

def checked : Arith := fun x => if -2 ^ 63 ≤ x ∧ x < 2 ^ 63 then some x else none

/-- `buckets_throttle_t`. -/
structure Throttle where
  tokens : ℤ
  rateBytesPerSec : ℤ
  burstBytes : ℤ
  lastRefillUs : ℤ
  enabled : Bool

/-- `buckets_throttle_init` at the time `now`. -/
def throttleInit (rate burst now : ℤ) : Option Throttle :=
  if rate < 0 ∨ burst < 0 then none else some ⟨burst, rate, burst, now, decide (0 < rate)⟩

variable (arith : Arith)

/-- `refill_tokens`. -/
def refillTokens (s : Throttle) (nowUs : ℤ) : Option Throttle := do
  let elapsedUs ← arith (nowUs - s.lastRefillUs)
  if elapsedUs ≤ 0 then some s
  else
    let product ← arith (elapsedUs * s.rateBytesPerSec)
    let tokensToAdd := product.tdiv 1000000
    if 0 < tokensToAdd then
      let tokens ← arith (s.tokens + tokensToAdd)
      some { s with tokens := min tokens s.burstBytes, lastRefillUs := nowUs }
    else some s

/-- The end of a round of `buckets_throttle_wait`. -/
inductive Round where
  | granted
  | sleep (us : ℤ)

/-- One round of the loop, under the lock. -/
def waitRound (s : Throttle) (bytes nowUs : ℤ) : Option (Throttle × Round) := do
  let s ← refillTokens arith s nowUs
  if bytes ≤ s.tokens then
    let tokens ← arith (s.tokens - bytes)
    some ({ s with tokens := tokens }, .granted)
  else
    let tokensNeeded ← arith (bytes - s.tokens)
    let product ← arith (tokensNeeded * 1000000)
    some (s, .sleep (min (product.tdiv s.rateBytesPerSec) 100000))

/-- The loop on the readings of the clock: has it returned within them? -/
def waitLoop (bytes : ℤ) : Throttle → List ℤ → Option (Throttle × Bool)
  | s, [] => some (s, false)
  | s, nowUs :: readings =>
    match waitRound arith s bytes nowUs with
    | none => none
    | some (s, .granted) => some (s, true)
    | some (s, .sleep _) => waitLoop bytes s readings

/-- `buckets_throttle_wait`. -/
def throttleWait (s : Throttle) (bytes : ℤ) (readings : List ℤ) : Option (Throttle × Bool) :=
  if s.enabled = false ∨ s.rateBytesPerSec = 0 then some (s, true)
  else if bytes ≤ 0 then some (s, true)
  else waitLoop arith bytes s readings

/-- Waits one after the other, each with its readings, and the bytes granted in all. -/
def throttleWaits : Throttle → ℤ → List (ℤ × List ℤ) → Option (Throttle × ℤ)
  | s, granted, [] => some (s, granted)
  | s, granted, (bytes, readings) :: waits =>
    match throttleWait arith s bytes readings with
    | none => none
    | some (s, true) => throttleWaits s (granted + bytes) waits
    | some (s, false) => throttleWaits s granted waits

variable {arith} {s s' : Throttle} {now bytes : ℤ}

/-- What a refill can do. -/
theorem refillTokens_cases (h : refillTokens arith s now = some s') :
    s' = s ∨ ∃ elapsed product tokens, arith (now - s.lastRefillUs) = some elapsed ∧ 0 < elapsed ∧
      arith (elapsed * s.rateBytesPerSec) = some product ∧ 0 < product.tdiv 1000000 ∧
      arith (s.tokens + product.tdiv 1000000) = some tokens ∧
      s' = { s with tokens := min tokens s.burstBytes, lastRefillUs := now } := by
  simp only [refillTokens, Option.bind_eq_bind, Option.bind_eq_some_iff] at h
  obtain ⟨elapsed, h1, h⟩ := h
  split at h
  · exact Or.inl (Option.some.inj h).symm
  obtain ⟨product, h2, h⟩ := Option.bind_eq_some_iff.mp h
  split at h
  · rename_i hpos hadd
    obtain ⟨tokens, h3, h⟩ := Option.bind_eq_some_iff.mp h
    exact Or.inr ⟨elapsed, product, tokens, h1, by omega, h2, hadd, h3, (Option.some.inj h).symm⟩
  · exact Or.inl (Option.some.inj h).symm

/-- What a round can do. -/
theorem waitRound_cases {r : Round} (h : waitRound arith s bytes now = some (s', r)) :
    ∃ m, refillTokens arith s now = some m ∧
      ((bytes ≤ m.tokens ∧ r = .granted ∧
          ∃ t, arith (m.tokens - bytes) = some t ∧ s' = { m with tokens := t }) ∨
        (m.tokens < bytes ∧ s' = m ∧ ∃ us, r = .sleep us)) := by
  simp only [waitRound, Option.bind_eq_bind, Option.bind_eq_some_iff] at h
  obtain ⟨m, hm, h⟩ := h
  refine ⟨m, hm, ?_⟩
  split at h
  · rename_i hle
    obtain ⟨t, ht, h⟩ := Option.bind_eq_some_iff.mp h
    obtain ⟨rfl, rfl⟩ := Prod.mk.inj (Option.some.inj h)
    exact Or.inl ⟨hle, rfl, t, ht, rfl⟩
  · rename_i hlt
    obtain ⟨n, -, h⟩ := Option.bind_eq_some_iff.mp h
    obtain ⟨q, -, h⟩ := Option.bind_eq_some_iff.mp h
    obtain ⟨rfl, rfl⟩ := Prod.mk.inj (Option.some.inj h)
    exact Or.inr ⟨not_le.mp hlt, rfl, _, rfl⟩

/-! ## 2. Never too much -/

theorem wrapping_le {x y : ℤ} (hx : 0 ≤ x) (h : wrapping x = some y) : y ≤ x := by
  have := Option.some.inj h
  omega

theorem wrapping_eq {x y : ℤ} (h1 : -2 ^ 63 ≤ x) (h2 : x < 2 ^ 63) (h : wrapping x = some y) :
    y = x := by
  have := Option.some.inj h
  omega

theorem wrapping_lt {x y : ℤ} (h : wrapping x = some y) : y < 2 ^ 63 := by
  have := Option.some.inj h
  omega

theorem tdiv_pos_nonneg {x : ℤ} (h : 0 < x.tdiv 1000000) : 0 ≤ x := by
  by_contra hneg
  have hneg' : (-x).tdiv 1000000 = -x.tdiv 1000000 := Int.neg_tdiv ..
  rw [Int.tdiv_eq_ediv_of_nonneg (by omega)] at hneg'
  omega

/-- After `granted` bytes of a bucket that was full at the time `start`, with no reading above
`largest`. -/
structure Bounded (rate burst start largest granted : ℤ) (s : Throttle) : Prop where
  enabled : s.enabled = true
  rate_eq : s.rateBytesPerSec = rate
  burst_eq : s.burstBytes = burst
  nonneg : 0 ≤ s.tokens
  le_burst : s.tokens ≤ burst
  start_le : start ≤ s.lastRefillUs
  last_le : s.lastRefillUs ≤ largest
  /-- What was given and what is left came from the burst and the refills. -/
  budget : (granted + s.tokens - burst) * 1000000 ≤ rate * (s.lastRefillUs - start)

/-- A rate, a burst and times that the 64-bit fields hold, the burst in half of its range. -/
structure InRange (rate burst start largest : ℤ) : Prop where
  rate_pos : 0 < rate
  burst_le : burst ≤ 2 ^ 62
  start_nonneg : 0 ≤ start
  start_le : start ≤ largest
  largest_lt : largest < 2 ^ 63

section Bound

variable {rate burst start largest granted : ℤ} (hin : InRange rate burst start largest)

include hin

theorem Bounded.refill (hs : Bounded rate burst start largest granted s) (h0 : 0 ≤ now)
    (hnow : now ≤ largest) (h : refillTokens wrapping s now = some s') :
    Bounded rate burst start largest granted s' := by
  obtain ⟨hrate, hburst, hstart, -, hlargest⟩ := hin
  have hlast := hs.last_le
  have hfirst := hs.start_le
  rcases refillTokens_cases h with rfl | ⟨elapsed, product, tokens, h1, hpos, h2, hadd, h3, rfl⟩
  · exact hs
  · rw [wrapping_eq (by omega) (by omega) h1] at hpos h2
    rw [hs.rate_eq] at h2
    have hprod : product ≤ (now - s.lastRefillUs) * rate :=
      wrapping_le (mul_nonneg hpos.le hrate.le) h2
    have hlt := wrapping_lt h2
    have hn := hs.nonneg
    have hle := hs.le_burst
    have hp := tdiv_pos_nonneg hadd
    rw [Int.tdiv_eq_ediv_of_nonneg hp] at hadd h3
    have ht := wrapping_eq (by omega) (by omega) h3
    refine ⟨hs.enabled, hs.rate_eq, hs.burst_eq, ?_, ?_, ?_, hnow, ?_⟩
    · simp only [hs.burst_eq, le_min_iff]
      omega
    · simp [hs.burst_eq]
    · simp only
      omega
    · have hb := hs.budget
      have hmin : min tokens s.burstBytes ≤ s.tokens + product / 1000000 := by
        rw [ht]
        exact min_le_left _ _
      have hsplit : rate * (now - start) =
          (now - s.lastRefillUs) * rate + rate * (s.lastRefillUs - start) := by ring
      simp only
      omega

omit hin in
theorem refillTokens_wrapping (s : Throttle) (now : ℤ) :
    ∃ s', refillTokens wrapping s now = some s' := by
  simp only [refillTokens, wrapping, Option.bind_eq_bind, Option.bind_some]
  split
  · exact ⟨_, rfl⟩
  · split <;> exact ⟨_, rfl⟩

/-- A round grants its bytes or nothing. -/
theorem Bounded.round (hs : Bounded rate burst start largest granted s) (hbytes : 0 < bytes)
    (h0 : 0 ≤ now) (hnow : now ≤ largest) :
    (∃ s', waitRound wrapping s bytes now = some (s', .granted) ∧
        Bounded rate burst start largest (granted + bytes) s') ∨
      ∃ s' us, waitRound wrapping s bytes now = some (s', .sleep us) ∧
        Bounded rate burst start largest granted s' := by
  obtain ⟨m, hm⟩ := refillTokens_wrapping s now
  have hb := hs.refill hin h0 hnow hm
  by_cases hle : bytes ≤ m.tokens
  · have hle' := hb.le_burst
    have hburst := hin.burst_le
    have ht : wrapping (m.tokens - bytes) = some (m.tokens - bytes) := by
      rw [wrapping]
      congr 1
      omega
    refine Or.inl ⟨{ m with tokens := m.tokens - bytes }, ?_, ?_⟩
    · simp [waitRound, hm, hle, ht]
    · have hbudget := hb.budget
      refine ⟨hb.enabled, hb.rate_eq, hb.burst_eq, ?_, ?_, hb.start_le, hb.last_le, ?_⟩
      all_goals
        simp only
        omega
  · refine Or.inr ⟨m, ?us, ?_, hb⟩
    rotate_left
    · simp only [waitRound, hm, Option.bind_eq_bind, Option.bind_some, if_neg hle, wrapping]
      rfl

theorem Bounded.loop (hbytes : 0 < bytes) : ∀ {readings : List ℤ} {s : Throttle},
    (∀ t ∈ readings, 0 ≤ t ∧ t ≤ largest) → Bounded rate burst start largest granted s →
      ∃ s' returned, waitLoop wrapping bytes s readings = some (s', returned) ∧
        Bounded rate burst start largest (granted + if returned then bytes else 0) s'
  | [], s, _, hs => ⟨s, false, rfl, by simpa using hs⟩
  | t :: readings, s, ht, hs => by
    obtain ⟨h0, hle⟩ := ht t List.mem_cons_self
    rcases hs.round hin hbytes h0 hle with ⟨m, hr, hm⟩ | ⟨m, us, hr, hm⟩
    · exact ⟨m, true, by rw [waitLoop, hr], hm⟩
    · obtain ⟨s', b, hl, hs'⟩ := Bounded.loop hbytes
        (fun u hu => ht u (List.mem_cons_of_mem t hu)) hm
      exact ⟨s', b, by rw [waitLoop, hr]; exact hl, hs'⟩

theorem Bounded.waits : ∀ {waits : List (ℤ × List ℤ)} {s : Throttle} {granted : ℤ},
    (∀ w ∈ waits, 0 < w.1 ∧ ∀ t ∈ w.2, 0 ≤ t ∧ t ≤ largest) →
    Bounded rate burst start largest granted s →
      ∃ s' granted', throttleWaits wrapping s granted waits = some (s', granted') ∧
        Bounded rate burst start largest granted' s'
  | [], s, granted, _, hs => ⟨s, granted, rfl, hs⟩
  | (bytes, readings) :: waits, s, granted, hw, hs => by
    obtain ⟨hbytes, ht⟩ := hw (bytes, readings) List.mem_cons_self
    have hwait : throttleWait wrapping s bytes readings = waitLoop wrapping bytes s readings := by
      have hrate := hin.rate_pos
      have hr := hs.rate_eq
      rw [throttleWait, if_neg (by simp [hs.enabled]; omega), if_neg (by omega)]
    obtain ⟨m, b, hl, hm⟩ := hs.loop hin hbytes ht
    obtain ⟨s', granted', hws, hs'⟩ :=
      Bounded.waits (fun w hmem => hw w (List.mem_cons_of_mem _ hmem)) hm
    refine ⟨s', granted', ?_, hs'⟩
    rw [throttleWaits, hwait, hl]
    cases b with
    | true => simpa using hws
    | false => simpa using hws

end Bound

/-- **Conformance of the bucket.**  However the waits ask and whatever the clock reads, the tokens
stay in their range, and what was granted is bounded by the burst and the time from the start to
the largest reading. -/
theorem throttleWaits_granted {rate burst start largest : ℤ} {s : Throttle}
    {waits : List (ℤ × List ℤ)} (hin : InRange rate burst start largest)
    (hs : throttleInit rate burst start = some s)
    (hw : ∀ w ∈ waits, 0 < w.1 ∧ ∀ t ∈ w.2, 0 ≤ t ∧ t ≤ largest) :
    ∃ s' granted, throttleWaits wrapping s 0 waits = some (s', granted) ∧
      0 ≤ s'.tokens ∧ s'.tokens ≤ burst ∧ granted ≤ burst + rate * (largest - start) / 1000000 := by
  have hinit : Bounded rate burst start largest 0 s := by
    rw [throttleInit] at hs
    split at hs
    · cases hs
    · rename_i h
      obtain rfl := Option.some.inj hs
      refine ⟨?_, rfl, rfl, by simp only; omega, le_rfl, le_rfl, hin.start_le, ?_⟩
      · exact decide_eq_true hin.rate_pos
      · simp
  obtain ⟨s', granted, hrun, hb⟩ := Bounded.waits hin hw hinit
  refine ⟨s', granted, hrun, hb.nonneg, hb.le_burst, ?_⟩
  have hlast : rate * (s'.lastRefillUs - start) ≤ rate * (largest - start) :=
    mul_le_mul_of_nonneg_left (by linarith [hb.last_le]) hin.rate_pos.le
  have h0 := hb.nonneg
  have hbudget := hb.budget
  omega

/-- Two waits of the default throttle, the clock going back between them. -/
theorem throttleWaits_granted_twice : ∃ s' granted,
    throttleWaits wrapping ⟨10485760, 104857600, 10485760, 5, true⟩ 0
      [(10485760, [7]), (4096, [3, 1000])] = some (s', granted) ∧
      granted ≤ 10485760 + 104857600 * (1000 - 5) / 1000000 := by
  have hin : InRange 104857600 10485760 5 1000 :=
    ⟨by decide, by decide, by decide, by decide, by decide⟩
  have hw : ∀ w ∈ ([(10485760, [7]), (4096, [3, 1000])] : List (ℤ × List ℤ)),
      0 < w.1 ∧ ∀ t ∈ w.2, 0 ≤ t ∧ t ≤ 1000 := by simp
  obtain ⟨s', granted, h, -, -, hle⟩ := throttleWaits_granted hin rfl hw
  exact ⟨s', granted, h, hle⟩

/-! ## 3. Not always enough -/

/-- A clock that goes on for ever, by at most `gap` from one reading to the next. -/
structure Clock (gap last : ℤ) (c : ℕ → ℤ) : Prop where
  first : last ≤ c 0 ∧ c 0 ≤ last + gap
  next : ∀ k, c k ≤ c (k + 1) ∧ c (k + 1) ≤ c k + gap
  unbounded : ∀ t, ∃ k, t ≤ c k

def firstReadings (c : ℕ → ℤ) (n : ℕ) : List ℤ := (List.range n).map c

theorem firstReadings_succ (c : ℕ → ℤ) (n : ℕ) :
    firstReadings c (n + 1) = c 0 :: firstReadings (fun k => c (k + 1)) n := by
  simp [firstReadings, List.range_succ_eq_map, Function.comp_def]

/-- The wait returns after some number of rounds, without an overflow. -/
def Returns (s : Throttle) (bytes : ℤ) (c : ℕ → ℤ) : Prop :=
  ∃ n s', throttleWait checked s bytes (firstReadings c n) = some (s', true)

/-- The loop returns. -/
def LoopReturns (s : Throttle) (bytes : ℤ) (c : ℕ → ℤ) : Prop :=
  ∃ n s', waitLoop checked bytes s (firstReadings c n) = some (s', true)

/-- An enabled throttle of this rate and burst. -/
structure Configured (rate burst : ℤ) (s : Throttle) : Prop where
  enabled : s.enabled = true
  rate_eq : s.rateBytesPerSec = rate
  burst_eq : s.burstBytes = burst
  nonneg : 0 ≤ s.tokens
  le_burst : s.tokens ≤ burst

/-- Every wait for `bytes` returns, and the bucket is full at a refill after a time that was long
enough, for clocks that go by at most `gap` between two readings. -/
structure Prompt (rate burst bytes gap : ℤ) : Prop where
  returns : ∀ s, Configured rate burst s → ∀ c, Clock gap s.lastRefillUs c → Returns s bytes c
  full : ∀ s, Configured rate burst s → ∀ now, s.lastRefillUs ≤ now → now ≤ s.lastRefillUs + gap →
    burst * 1000000 ≤ rate * (now - s.lastRefillUs) →
      ∃ s', refillTokens checked s now = some s' ∧ s'.tokens = burst

theorem checked_eq {x : ℤ} (h1 : -2 ^ 63 ≤ x) (h2 : x < 2 ^ 63) : checked x = some x :=
  if_pos ⟨h1, h2⟩

theorem checked_some {x y : ℤ} (h : checked x = some y) : y = x ∧ x < 2 ^ 63 := by
  rw [checked] at h
  split at h
  · exact ⟨(Option.some.inj h).symm, by omega⟩
  · cases h

section Rounds

variable {rate burst gap : ℤ} {c : ℕ → ℤ}

theorem returns_iff (hs : Configured rate burst s) (hrate : 0 < rate) (hbytes : 0 < bytes) :
    Returns s bytes c ↔ LoopReturns s bytes c := by
  have hr := hs.rate_eq
  have hwait : ∀ readings,
      throttleWait checked s bytes readings = waitLoop checked bytes s readings := by
    intro readings
    rw [throttleWait, if_neg (by simp [hs.enabled]; omega), if_neg (by omega)]
  simp only [Returns, LoopReturns, hwait]

theorem refillTokens_quiet (hrate : 0 < s.rateBytesPerSec) (hlast : s.lastRefillUs ≤ now)
    (h : (now - s.lastRefillUs) * s.rateBytesPerSec < 1000000) :
    refillTokens checked s now = some s := by
  have hle : now - s.lastRefillUs ≤ (now - s.lastRefillUs) * s.rateBytesPerSec :=
    le_mul_of_one_le_right (by omega) hrate
  have hprod : 0 ≤ (now - s.lastRefillUs) * s.rateBytesPerSec :=
    mul_nonneg (by omega) hrate.le
  simp only [refillTokens, checked_eq (show -2 ^ 63 ≤ now - s.lastRefillUs by omega) (by omega),
    Option.bind_eq_bind, Option.bind_some, checked_eq (show
      -2 ^ 63 ≤ (now - s.lastRefillUs) * s.rateBytesPerSec by omega) (by omega),
    Int.tdiv_eq_ediv_of_nonneg hprod]
  split
  · rfl
  · rw [if_neg (by omega)]

/-- A refill that adds tokens. -/
theorem refillTokens_active (hrate : 0 < s.rateBytesPerSec) (h0 : 0 ≤ s.tokens)
    (h1 : 1000000 ≤ (now - s.lastRefillUs) * s.rateBytesPerSec)
    (h2 : (now - s.lastRefillUs) * s.rateBytesPerSec < 2 ^ 63)
    (h3 : s.tokens + (now - s.lastRefillUs) * s.rateBytesPerSec / 1000000 < 2 ^ 63) :
    refillTokens checked s now = some
      { s with
          tokens := min (s.tokens + (now - s.lastRefillUs) * s.rateBytesPerSec / 1000000)
            s.burstBytes
          lastRefillUs := now } := by
  have hpos : 0 < now - s.lastRefillUs := by
    by_contra hneg
    have := mul_nonpos_of_nonpos_of_nonneg (not_lt.mp hneg) hrate.le
    omega
  have hle : now - s.lastRefillUs ≤ (now - s.lastRefillUs) * s.rateBytesPerSec :=
    le_mul_of_one_le_right hpos.le hrate
  simp only [refillTokens, checked_eq (show -2 ^ 63 ≤ now - s.lastRefillUs by omega) (by omega),
    Option.bind_eq_bind, Option.bind_some, checked_eq (show
      -2 ^ 63 ≤ (now - s.lastRefillUs) * s.rateBytesPerSec by omega) h2,
    Int.tdiv_eq_ediv_of_nonneg (show 0 ≤ (now - s.lastRefillUs) * s.rateBytesPerSec by omega)]
  rw [if_neg (by omega), if_pos (by omega), checked_eq (by omega) h3, Option.bind_some]

theorem waitRound_granted {m : Throttle} (hm : refillTokens checked s now = some m)
    (hbytes : 0 < bytes) (hle : bytes ≤ m.tokens) (h63 : m.tokens < 2 ^ 63) :
    ∃ s', waitRound checked s bytes now = some (s', .granted) := by
  refine ⟨{ m with tokens := m.tokens - bytes }, ?_⟩
  simp only [waitRound, hm, Option.bind_eq_bind, Option.bind_some, if_pos hle]
  rw [checked_eq (by omega) (by omega), Option.bind_some]

theorem waitRound_sleep {m : Throttle} (hm : refillTokens checked s now = some m)
    (h0 : 0 ≤ m.tokens) (hlt : m.tokens < bytes) (h63 : bytes * 1000000 < 2 ^ 63) :
    ∃ us, waitRound checked s bytes now = some (m, .sleep us) := by
  refine ⟨min (((bytes - m.tokens) * 1000000).tdiv m.rateBytesPerSec) 100000, ?_⟩
  simp only [waitRound, hm, Option.bind_eq_bind, Option.bind_some, if_neg (not_le.mpr hlt)]
  rw [checked_eq (by omega) (by omega), Option.bind_some, checked_eq (by omega) (by omega),
    Option.bind_some]

theorem LoopReturns.of_granted {s' : Throttle}
    (h : waitRound checked s bytes (c 0) = some (s', .granted)) : LoopReturns s bytes c :=
  ⟨1, s', by rw [firstReadings_succ, waitLoop, h]⟩

theorem LoopReturns.of_sleep {us : ℤ}
    (h : waitRound checked s bytes (c 0) = some (s', .sleep us))
    (hl : LoopReturns s' bytes fun k => c (k + 1)) : LoopReturns s bytes c := by
  obtain ⟨n, s'', hn⟩ := hl
  exact ⟨n + 1, s'', by rw [firstReadings_succ, waitLoop, h]; exact hn⟩

/-- What no overflow takes, for a request of `bytes`. -/
structure Fits (rate burst bytes gap : ℤ) : Prop where
  request : bytes * 1000000 < 2 ^ 63
  product : rate * (gap + 999999 / rate) < 2 ^ 63
  sum : burst + rate * gap / 1000000 < 2 ^ 63

/-- A wait that goes on: the next reading is at most `gap` after the last refill, or after a
reading that added nothing. -/
structure OnTime (rate burst bytes gap : ℤ) (s : Throttle) (c : ℕ → ℤ) : Prop where
  configured : Configured rate burst s
  after : s.lastRefillUs ≤ c 0
  close : c 0 ≤ s.lastRefillUs + gap ∨
    s.tokens < bytes ∧ c 0 ≤ s.lastRefillUs + (gap + 999999 / rate)
  next : ∀ k, c k ≤ c (k + 1) ∧ c (k + 1) ≤ c k + gap
  unbounded : ∀ t, ∃ k, t ≤ c k

theorem unbounded_succ (hnext : ∀ k, c k ≤ c (k + 1) ∧ c (k + 1) ≤ c k + gap)
    (h : ∀ t, ∃ k, t ≤ c k) (t : ℤ) : ∃ k, t ≤ c (k + 1) := by
  obtain ⟨k, hk⟩ := h t
  exact ⟨k, hk.trans (hnext k).1⟩

theorem OnTime.quiet (ho : OnTime rate burst bytes gap s c) (hrate : 0 < rate)
    (hlt : s.tokens < bytes) (hq : (c 0 - s.lastRefillUs) * rate < 1000000) :
    OnTime rate burst bytes gap s fun k => c (k + 1) := by
  have hle : c 0 - s.lastRefillUs ≤ 999999 / rate :=
    (Int.le_ediv_iff_mul_le hrate).mpr (by omega)
  obtain ⟨h1, h2⟩ := ho.next 0
  exact ⟨ho.configured, ho.after.trans h1, Or.inr ⟨hlt, by linarith⟩, fun k => ho.next (k + 1),
    unbounded_succ ho.next ho.unbounded⟩

theorem OnTime.refilled (ho : OnTime rate burst bytes gap s c) {m : Throttle}
    (hm : Configured rate burst m) (hlast : m.lastRefillUs = c 0) :
    OnTime rate burst bytes gap m fun k => c (k + 1) := by
  obtain ⟨h1, h2⟩ := ho.next 0
  exact ⟨hm, hlast ▸ h1, Or.inl (hlast ▸ h2), fun k => ho.next (k + 1),
    unbounded_succ ho.next ho.unbounded⟩

/-- The elapsed time times the rate, and the tokens it brings, stay in range. -/
theorem OnTime.fits (ho : OnTime rate burst bytes gap s c) (hrate : 0 < rate)
    (hle : bytes ≤ burst) (hf : Fits rate burst bytes gap) :
    (c 0 - s.lastRefillUs) * rate < 2 ^ 63 ∧
      s.tokens + (c 0 - s.lastRefillUs) * rate / 1000000 < 2 ^ 63 := by
  have he : 0 ≤ 999999 / rate := Int.ediv_nonneg (by norm_num) hrate.le
  have he' : rate * (999999 / rate) ≤ 999999 := Int.mul_ediv_self_le hrate.ne'
  have hg : rate * (gap + 999999 / rate) = rate * gap + rate * (999999 / rate) := by ring
  have hp := hf.product
  have hs := hf.sum
  have hb := ho.configured.le_burst
  have hre : 0 ≤ rate * (999999 / rate) := mul_nonneg hrate.le he
  rcases ho.close with hc | ⟨hlt, hc⟩
  · have h1 : (c 0 - s.lastRefillUs) * rate ≤ rate * gap := by
      rw [mul_comm]
      exact mul_le_mul_of_nonneg_left (by linarith) hrate.le
    omega
  · have h1 : (c 0 - s.lastRefillUs) * rate ≤ rate * (gap + 999999 / rate) := by
      rw [mul_comm]
      exact mul_le_mul_of_nonneg_left (by linarith) hrate.le
    omega

/-- A round grants the request, or adds nothing, or adds tokens. -/
theorem OnTime.round (ho : OnTime rate burst bytes gap s c) (hrate : 0 < rate) (hbytes : 0 < bytes)
    (hle : bytes ≤ burst) (hf : Fits rate burst bytes gap) :
    LoopReturns s bytes c ∨
      (∃ us, waitRound checked s bytes (c 0) = some (s, .sleep us) ∧ s.tokens < bytes ∧
        (c 0 - s.lastRefillUs) * rate < 1000000) ∨
      ∃ m us, waitRound checked s bytes (c 0) = some (m, .sleep us) ∧ Configured rate burst m ∧
        m.lastRefillUs = c 0 ∧ s.tokens < m.tokens ∧ m.tokens < bytes := by
  have hs := ho.configured
  obtain ⟨hp, hsum⟩ := ho.fits hrate hle hf
  have hgap : 0 ≤ rate * gap / 1000000 := by
    have := (ho.next 0).1.trans (ho.next 0).2
    exact Int.ediv_nonneg (mul_nonneg hrate.le (by linarith)) (by norm_num)
  have h63 := hf.sum
  have h0 := hs.nonneg
  have hb := hs.le_burst
  by_cases hq : (c 0 - s.lastRefillUs) * rate < 1000000
  · have hm := refillTokens_quiet (by rw [hs.rate_eq]; exact hrate) ho.after
      (by rw [hs.rate_eq]; exact hq)
    by_cases hlt : s.tokens < bytes
    · obtain ⟨us, hus⟩ := waitRound_sleep hm h0 hlt hf.request
      exact Or.inr (Or.inl ⟨us, hus, hlt, hq⟩)
    · obtain ⟨s', hg⟩ := waitRound_granted hm hbytes (not_lt.mp hlt) (by omega)
      exact Or.inl (LoopReturns.of_granted hg)
  · have hm := @refillTokens_active s (c 0) (by rw [hs.rate_eq]; exact hrate) h0
      (by rw [hs.rate_eq]; omega) (by rw [hs.rate_eq]; exact hp) (by rw [hs.rate_eq]; exact hsum)
    generalize hmdef : { s with
          tokens := min (s.tokens + (c 0 - s.lastRefillUs) * s.rateBytesPerSec / 1000000)
            s.burstBytes
          lastRefillUs := c 0 } = m at hm
    have hmt : m.tokens = min (s.tokens + (c 0 - s.lastRefillUs) * rate / 1000000) burst := by
      rw [← hmdef, hs.rate_eq, hs.burst_eq]
    have hmc : Configured rate burst m := by
      refine ⟨?_, ?_, ?_, by omega, by omega⟩
      · rw [← hmdef]
        exact hs.enabled
      · rw [← hmdef]
        exact hs.rate_eq
      · rw [← hmdef]
        exact hs.burst_eq
    by_cases hlt : m.tokens < bytes
    · obtain ⟨us, hus⟩ := waitRound_sleep hm hmc.nonneg hlt hf.request
      exact Or.inr (Or.inr ⟨m, us, hus, hmc, by rw [← hmdef], by omega, hlt⟩)
    · obtain ⟨s', hg⟩ := waitRound_granted hm hbytes (not_lt.mp hlt) (by omega)
      exact Or.inl (LoopReturns.of_granted hg)

/-- **A request within the burst is granted.**  A round that adds nothing brings the clock closer
to the next refill, and a refill leaves fewer tokens missing. -/
theorem OnTime.loopReturns (hrate : 0 < rate) (hbytes : 0 < bytes) (hle : bytes ≤ burst)
    (hf : Fits rate burst bytes gap) :
    ∀ (missing j : ℕ) {s : Throttle} {c : ℕ → ℤ}, OnTime rate burst bytes gap s c →
      bytes - s.tokens ≤ missing → 1000000 ≤ (c j - s.lastRefillUs) * rate →
      LoopReturns s bytes c := by
  intro missing
  induction missing with
  | zero =>
    intro j s c ho hm _
    rcases ho.round hrate hbytes hle hf with h | ⟨us, -, hlt, -⟩ | ⟨m, us, -, -, -, hlt, hlt'⟩
    · exact h
    · exact absurd hm (by push_cast; omega)
    · exact absurd hm (by push_cast; omega)
  | succ missing ihm =>
    have hactive : ∀ {s m : Throttle} {c : ℕ → ℤ} {us : ℤ}, OnTime rate burst bytes gap s c →
        waitRound checked s bytes (c 0) = some (m, .sleep us) → Configured rate burst m →
        m.lastRefillUs = c 0 → bytes - m.tokens ≤ missing → LoopReturns s bytes c := by
      intro s m c us ho hr hc hl hm
      have ho' := ho.refilled hc hl
      obtain ⟨k, hk⟩ := ho'.unbounded (c 0 + 1000000)
      refine LoopReturns.of_sleep hr (ihm k ho' hm ?_)
      rw [hl]
      exact le_trans (by linarith) (le_mul_of_one_le_right (by linarith) hrate)
    intro j
    induction j with
    | zero =>
      intro s c ho hm hj
      rcases ho.round hrate hbytes hle hf with h | ⟨us, -, -, hq⟩ | ⟨m, us, hr, hc, hl, hlt, -⟩
      · exact h
      · exact absurd hj (not_le.mpr hq)
      · exact hactive ho hr hc hl (by push_cast at hm; omega)
    | succ j ihj =>
      intro s c ho hm hj
      rcases ho.round hrate hbytes hle hf with h | ⟨us, hr, hlt, hq⟩ | ⟨m, us, hr, hc, hl, hlt, -⟩
      · exact h
      · exact LoopReturns.of_sleep hr (ihj (ho.quiet hrate hlt hq) hm hj)
      · exact hactive ho hr hc hl (by push_cast at hm; omega)

/-! What stops a wait. -/

/-- A refill stops at the burst. -/
theorem bytes_le_of_returned : ∀ {readings : List ℤ} {s : Throttle}, s.tokens ≤ burst →
    s.burstBytes = burst → waitLoop arith bytes s readings = some (s', true) → bytes ≤ burst
  | [], _, _, _, h => by simp [waitLoop] at h
  | now :: readings, s, hle, hb, h => by
    rw [waitLoop] at h
    have hm : ∀ {m}, refillTokens arith s now = some m → m.tokens ≤ burst ∧
        m.burstBytes = burst := by
      intro m hm
      rcases refillTokens_cases hm with rfl | ⟨_, _, _, -, -, -, -, -, rfl⟩
      · exact ⟨hle, hb⟩
      · exact ⟨hb ▸ min_le_right _ _, hb⟩
    split at h
    · cases h
    · rename_i hr
      obtain ⟨m, hr, ⟨hg, -⟩ | ⟨-, -, _, hr'⟩⟩ := waitRound_cases hr
      · exact hg.trans (hm hr).1
      · cases hr'
    · rename_i hr
      obtain ⟨m, hr, ⟨-, hr', -⟩ | ⟨-, rfl, -⟩⟩ := waitRound_cases hr
      · cases hr'
      · exact bytes_le_of_returned (hm hr).1 (hm hr).2 h

/-- A wait that returns came through its first round without an overflow. -/
theorem LoopReturns.defined (h : LoopReturns s bytes c) :
    ∃ m, refillTokens checked s (c 0) = some m ∧
      (bytes ≤ m.tokens ∨ (bytes - m.tokens) * 1000000 < 2 ^ 63) := by
  obtain ⟨_ | n, s', hn⟩ := h
  · simp [firstReadings, waitLoop] at hn
  rw [firstReadings_succ, waitLoop] at hn
  have hround : ∃ r, waitRound checked s bytes (c 0) = some r := by
    cases hr : waitRound checked s bytes (c 0) with
    | none => simp [hr] at hn
    | some r => exact ⟨r, rfl⟩
  obtain ⟨r, hr⟩ := hround
  simp only [waitRound, Option.bind_eq_bind, Option.bind_eq_some_iff] at hr
  obtain ⟨m, hm, hr⟩ := hr
  refine ⟨m, hm, ?_⟩
  split at hr
  · exact Or.inl ‹_›
  · obtain ⟨needed, h1, hr⟩ := Option.bind_eq_some_iff.mp hr
    obtain ⟨product, h2, -⟩ := Option.bind_eq_some_iff.mp hr
    rw [(checked_some h1).1] at h2
    exact Or.inr (checked_some h2).2

theorem refillTokens_defined {m : Throttle} (hlt : s.lastRefillUs < now)
    (h : refillTokens checked s now = some m) :
    (now - s.lastRefillUs) * s.rateBytesPerSec < 2 ^ 63 ∧
      (1000000 ≤ (now - s.lastRefillUs) * s.rateBytesPerSec →
        s.tokens + (now - s.lastRefillUs) * s.rateBytesPerSec / 1000000 < 2 ^ 63) := by
  simp only [refillTokens, Option.bind_eq_bind, Option.bind_eq_some_iff] at h
  obtain ⟨elapsed, h1, h⟩ := h
  rw [(checked_some h1).1, if_neg (by omega)] at h
  obtain ⟨product, h2, h⟩ := Option.bind_eq_some_iff.mp h
  rw [(checked_some h2).1] at h
  refine ⟨(checked_some h2).2, fun hbig => ?_⟩
  rw [Int.tdiv_eq_ediv_of_nonneg (by omega), if_pos (by omega)] at h
  obtain ⟨tokens, h3, -⟩ := Option.bind_eq_some_iff.mp h
  exact (checked_some h3).2

/-- Rounds that change nothing do not help. -/
theorem loopReturns_quiet (hrate : 0 < s.rateBytesPerSec) (hlast : s.lastRefillUs ≤ c 0)
    (hq : (c 0 - s.lastRefillUs) * s.rateBytesPerSec < 1000000) (hlt : s.tokens < bytes)
    (h : LoopReturns s bytes c) : LoopReturns s bytes fun k => c (k + 1) := by
  obtain ⟨_ | n, s', hn⟩ := h
  · simp [firstReadings, waitLoop] at hn
  · rw [firstReadings_succ, waitLoop] at hn
    split at hn
    · cases hn
    · rename_i hr
      obtain ⟨m, hm, ⟨hle, -⟩ | ⟨-, -, _, hr'⟩⟩ := waitRound_cases hr
      · rw [refillTokens_quiet hrate hlast hq] at hm
        obtain rfl := Option.some.inj hm
        exact absurd hle (not_le.mpr hlt)
      · cases hr'
    · rename_i hr
      obtain ⟨m, hm, ⟨-, hr', -⟩ | ⟨-, rfl, -⟩⟩ := waitRound_cases hr
      · cases hr'
      · rw [refillTokens_quiet hrate hlast hq] at hm
        obtain rfl := Option.some.inj hm
        exact ⟨n, s', hn⟩

end Rounds

/-! The condition. -/

section Necessary

variable {rate burst gap : ℤ} (hrate : 0 < rate) (hburst : 0 < burst) (hgap : 0 < gap)

/-- A clock that reads every microsecond up to `e`, and then one `gap` later. -/
def stalling (gap : ℤ) (e : ℕ) (k : ℕ) : ℤ := if k ≤ e then k else gap + k - 1

theorem clock_stalling (hgap : 0 < gap) (e : ℕ) : Clock gap 0 (stalling gap e) where
  first := by
    simp only [stalling, Nat.zero_le, if_true, Nat.cast_zero]
    omega
  next k := by
    simp only [stalling]
    split <;> split <;> push_cast <;> omega
  unbounded t := by
    refine ⟨t.toNat, ?_⟩
    simp only [stalling]
    split <;> omega

include hrate hburst hgap

/-- Waits on an empty bucket. -/
theorem Prompt.fits_empty (h : Prompt rate burst bytes gap) (hbytes : 0 < bytes) :
    bytes * 1000000 < 2 ^ 63 ∧ rate * (gap + 999999 / rate) < 2 ^ 63 := by
  have he : 0 ≤ 999999 / rate := Int.ediv_nonneg (by norm_num) hrate.le
  obtain ⟨e, hE⟩ := Int.eq_ofNat_of_zero_le he
  have hc : Configured rate burst ⟨0, rate, burst, 0, true⟩ := ⟨rfl, rfl, rfl, le_rfl, hburst.le⟩
  have hl := (returns_iff hc hrate hbytes).mp (h.returns _ hc _ (clock_stalling hgap e))
  -- the readings up to `e` add nothing
  have hquiet : ∀ i ≤ e + 1,
      LoopReturns ⟨0, rate, burst, 0, true⟩ bytes fun k => stalling gap e (k + i) := by
    intro i
    induction i with
    | zero => exact fun _ => hl
    | succ i ih =>
      intro hi
      have hci : stalling gap e (0 + i) = i := by
        rw [stalling, if_pos (by omega)]
        push_cast
        omega
      have hle : (i : ℤ) * rate ≤ 999999 := (Int.le_ediv_iff_mul_le hrate).mp (by omega)
      have hq := loopReturns_quiet (s := ⟨0, rate, burst, 0, true⟩)
        (c := fun k => stalling gap e (k + i)) hrate (by simp only [hci]; omega)
        (by simp only [hci, sub_zero]; omega) hbytes (ih (by omega))
      simpa only [Nat.add_right_comm _ 1 i, Nat.add_assoc] using hq
  constructor
  · obtain ⟨m, hm, hdef⟩ := hl.defined
    rw [refillTokens_quiet hrate (by simp [stalling]) (by simp [stalling])] at hm
    obtain rfl := Option.some.inj hm
    simp only at hdef
    omega
  · obtain ⟨m, hm, -⟩ := (hquiet (e + 1) le_rfl).defined
    have hce : stalling gap e (0 + (e + 1)) = gap + e := by
      rw [stalling, if_neg (by omega)]
      push_cast
      omega
    rw [hce] at hm
    have := (refillTokens_defined (by simp only; omega) hm).1
    simp only [sub_zero] at this
    rw [hE, mul_comm]
    exact this

/-- Waits on a full bucket. -/
theorem Prompt.fits_full (h : Prompt rate burst bytes gap) (h63 : burst < 2 ^ 63)
    (hbytes : 0 < bytes) : burst + rate * gap / 1000000 < 2 ^ 63 := by
  have hc : Configured rate burst ⟨burst, rate, burst, 0, true⟩ :=
    ⟨rfl, rfl, rfl, hburst.le, le_rfl⟩
  have hclock : Clock gap 0 fun k => gap * (k + 1) := by
    refine ⟨by constructor <;> push_cast <;> linarith, fun k => ?_, fun t => ⟨t.toNat, ?_⟩⟩
    · constructor <;> push_cast <;> linarith
    · have h1 : t ≤ t.toNat + 1 := by omega
      exact h1.trans (le_mul_of_one_le_left (by omega) hgap)
  obtain ⟨m, hm, -⟩ := ((returns_iff hc hrate hbytes).mp (h.returns _ hc _ hclock)).defined
  have hdef := (refillTokens_defined (by push_cast; linarith) hm).2
  simp only [Nat.cast_zero, zero_add, mul_one, sub_zero, mul_comm gap rate] at hdef
  by_cases hbig : 1000000 ≤ rate * gap
  · exact hdef hbig
  · have hz : rate * gap / 1000000 = 0 :=
      Int.ediv_eq_zero_of_lt (mul_nonneg hrate.le hgap.le) (not_le.mp hbig)
    omega

theorem Prompt.le_burst (h : Prompt rate burst bytes gap) (hbytes : 0 < bytes) : bytes ≤ burst := by
  have hc : Configured rate burst ⟨0, rate, burst, 0, true⟩ := ⟨rfl, rfl, rfl, le_rfl, hburst.le⟩
  obtain ⟨n, s', hn⟩ :=
    (returns_iff hc hrate hbytes).mp (h.returns _ hc _ (clock_stalling hgap 0))
  exact bytes_le_of_returned hburst.le rfl hn

/-- The refill after a long time. -/
theorem full_iff :
    (∀ s, Configured rate burst s → ∀ now, s.lastRefillUs ≤ now → now ≤ s.lastRefillUs + gap →
      burst * 1000000 ≤ rate * (now - s.lastRefillUs) →
        ∃ s', refillTokens checked s now = some s' ∧ s'.tokens = burst) ↔
      (burst * 1000000 ≤ rate * gap →
        rate * gap < 2 ^ 63 ∧ burst + rate * gap / 1000000 < 2 ^ 63) := by
  constructor
  · intro h hlong
    have hc : Configured rate burst ⟨burst, rate, burst, 0, true⟩ :=
      ⟨rfl, rfl, rfl, hburst.le, le_rfl⟩
    obtain ⟨m, hm, -⟩ := h _ hc gap hgap.le (by simp) (by simpa using hlong)
    obtain ⟨h1, h2⟩ := refillTokens_defined hgap hm
    simp only [sub_zero, mul_comm gap rate] at h1 h2
    exact ⟨h1, h2 (by omega)⟩
  · intro h s hs now hnow hgap' hlong
    have hle : rate * (now - s.lastRefillUs) ≤ rate * gap :=
      mul_le_mul_of_nonneg_left (by linarith) hrate.le
    obtain ⟨h1, h2⟩ := h (hlong.trans hle)
    have h0 := hs.nonneg
    have hb := hs.le_burst
    rw [mul_comm rate] at hle hlong
    refine ⟨_, refillTokens_active (by rw [hs.rate_eq]; exact hrate) h0
      (by rw [hs.rate_eq]; omega) (by rw [hs.rate_eq]; omega) (by rw [hs.rate_eq]; omega), ?_⟩
    simp only [hs.rate_eq, hs.burst_eq]
    omega

end Necessary

/-- **When a wait returns.**  For every rate and burst, every request and every bound on the time
between two readings: the request is within the burst, and no product or sum of the code overflows
in that time. -/
theorem throttle_prompt_iff {rate burst bytes gap : ℤ} (hrate : 0 < rate) (hburst : 0 < burst)
    (h63 : burst < 2 ^ 63) (hgap : 0 < gap) :
    Prompt rate burst bytes gap ↔
      (bytes ≤ 0 ∨ bytes ≤ burst ∧ bytes * 1000000 < 2 ^ 63 ∧
        rate * (gap + 999999 / rate) < 2 ^ 63 ∧ burst + rate * gap / 1000000 < 2 ^ 63) ∧
      (burst * 1000000 ≤ rate * gap →
        rate * gap < 2 ^ 63 ∧ burst + rate * gap / 1000000 < 2 ^ 63) := by
  rw [← full_iff hrate hburst hgap]
  constructor
  · intro h
    refine ⟨?_, h.full⟩
    rcases le_or_gt bytes 0 with hneg | hbytes
    · exact Or.inl hneg
    · obtain ⟨h1, h2⟩ := h.fits_empty hrate hburst hgap hbytes
      exact Or.inr ⟨h.le_burst hrate hburst hgap hbytes, h1, h2,
        h.fits_full hrate hburst hgap h63 hbytes⟩
  · rintro ⟨hreq, hfull⟩
    refine ⟨fun s hs c hc => ?_, hfull⟩
    rcases le_or_gt bytes 0 with hneg | hbytes
    · refine ⟨0, s, ?_⟩
      rw [throttleWait]
      simp only [if_pos hneg, ite_self]
    · obtain hneg | ⟨hle, h1, h2, h3⟩ := hreq
      · exact absurd hneg (not_le.mpr hbytes)
      rw [returns_iff hs hrate hbytes]
      have ho : OnTime rate burst bytes gap s c :=
        ⟨hs, hc.first.1, Or.inl hc.first.2, hc.next, hc.unbounded⟩
      obtain ⟨j, hj⟩ := hc.unbounded (s.lastRefillUs + 1000000)
      refine ho.loopReturns hrate hbytes hle ⟨h1, h2, h3⟩ (bytes - s.tokens).toNat j (by omega) ?_
      exact le_trans (by linarith) (le_mul_of_one_le_right (by linarith) hrate)

/-- The default throttle, one megabyte and at most an hour between two readings. -/
theorem throttle_prompt_default : Prompt 104857600 10485760 1048576 3600000000 :=
  (throttle_prompt_iff (by norm_num) (by norm_num) (by norm_num) (by norm_num)).mpr
    ⟨Or.inr (by norm_num), by norm_num⟩

/-- The default throttle, its bucket full, and an object of 16 MiB: a clock that goes on by a tenth
of a second for ever does not let the wait return.  And after 26 hours without a call its empty
bucket gets no token at all, on a machine that wraps around. -/
theorem throttle_never_returns :
    (Clock 100000 0 (fun k => 100000 * (k + 1)) ∧
      ¬ Returns ⟨10485760, 104857600, 10485760, 0, true⟩ 16777216 fun k => 100000 * (k + 1)) ∧
    10485760 * 1000000 ≤ (104857600 : ℤ) * 93600000000 ∧
      (refillTokens wrapping ⟨0, 104857600, 10485760, 0, true⟩ 93600000000).map Throttle.tokens =
        some 0 := by
  refine ⟨⟨⟨by norm_num, fun k => ?_, fun t => ⟨t.toNat, ?_⟩⟩, ?_⟩, by norm_num, by decide⟩
  · push_cast
    omega
  · omega
  · have hc : Configured 104857600 10485760 ⟨10485760, 104857600, 10485760, 0, true⟩ :=
      ⟨rfl, rfl, rfl, by norm_num, le_rfl⟩
    rw [returns_iff hc (by norm_num) (by norm_num)]
    rintro ⟨n, s', hn⟩
    have := @bytes_le_of_returned _ _ _ 10485760 _ _ le_rfl rfl hn
    omega

end Buckets.TokenBucket
