/-
# Hashing a stream in blocks

A hash takes its input in blocks of one size.  What comes in pieces of any size is collected in a
buffer and handed on in blocks; what the buffer holds at the end is for the last step.  Two ways to
write this are common: EAGER, a block goes on as soon as it is full, and LAZY, a full block is held
back until something follows it.

Both are one loop (`run`), which takes a block while there are `hold` items behind it.

* `run_append` -- the loop can stop and go on anywhere;
* `run_eq` -- what it has done to the state is a fold over the blocks;
* `updates_eq`, `lazyUpdates_eq` -- so pieces are as good as the whole, eager or lazy.
-/
import Mathlib.Data.List.Basic
import Mathlib.Data.Nat.Digits.Defs

namespace BlockStream

section

variable {α σ : Type*} (size hold : ℕ) (absorb : σ → List α → σ)

/-! ## 1. The loop -/

/-- While there are `size + hold` items, absorb a block. -/
def loop : (fuel : ℕ) → σ → List α → σ × List α
  | 0, s, data => (s, data)
  | fuel + 1, s, data =>
    if size + hold ≤ data.length then loop fuel (absorb s (data.take size)) (data.drop size)
    else (s, data)

/-- The loop until it ends. -/
def run (s : σ) (data : List α) : σ × List α := loop size hold absorb data.length s data

/-- Block `i` of the data. -/
def block (data : List α) (i : ℕ) : List α := (data.drop (i * size)).take size

/-! ## 2. Pieces, eager -/

/-- One piece: fill the buffer, absorb what is full, and keep the rest. -/
def update (state : σ × List α) (data : List α) : σ × List α :=
  let (s, buf, data) :=
    if 0 < state.2.length then
      let toCopy := min (size - state.2.length) data.length
      let buf := state.2 ++ data.take toCopy
      if buf.length = size then (absorb state.1 buf, [], data.drop toCopy)
      else (state.1, buf, data.drop toCopy)
    else (state.1, state.2, data)
  let (s, data) := run size 0 absorb s data
  if 0 < data.length then (s, data) else (s, buf)

/-! ## 3. Pieces, lazy -/

/-- One piece: a block goes on only when there is more than fills it. -/
def lazyLoop : (fuel : ℕ) → σ × List α → List α → σ × List α
  | 0, state, _ => state
  | fuel + 1, (s, buf), data =>
    if 0 < data.length then
      let fill := size - buf.length
      if fill < data.length then
        lazyLoop fuel (absorb s (buf ++ data.take fill), []) (data.drop fill)
      else (s, buf ++ data)
    else (s, buf)

/-- The loop until it ends: a full buffer costs one turn that takes nothing. -/
def lazyUpdate (state : σ × List α) (data : List α) : σ × List α :=
  lazyLoop size absorb (data.length + 1) state data

end

variable {α σ : Type*} {size hold : ℕ} {absorb : σ → List α → σ} {s : σ} {data : List α}

/-! ## 4. The loop, block by block -/

theorem run_of_lt (h : data.length < size + hold) : run size hold absorb s data = (s, data) := by
  unfold run
  cases data.length with
  | zero => rfl
  | succ n => rw [loop, if_neg (Nat.not_le.mpr h)]

/-- More fuel than data makes no difference. -/
theorem loop_fuel (hsize : 0 < size) {n m : ℕ} (hn : data.length ≤ n) (hm : data.length ≤ m) :
    loop size hold absorb n s data = loop size hold absorb m s data := by
  induction n generalizing m s data with
  | zero =>
    obtain rfl := List.eq_nil_of_length_eq_zero (Nat.le_zero.mp hn)
    cases m with
    | zero => rfl
    | succ m =>
      rw [loop, loop, if_neg]
      intro h
      rw [List.length_nil] at h
      omega
  | succ n ih =>
    cases m with
    | zero =>
      rw [loop, loop, if_neg]
      omega
    | succ m =>
      rw [loop, loop]
      split
      · refine ih ?_ ?_
        · rw [List.length_drop]
          omega
        · rw [List.length_drop]
          omega
      · rfl

theorem run_of_le (hsize : 0 < size) (h : size + hold ≤ data.length) :
    run size hold absorb s data =
      run size hold absorb (absorb s (data.take size)) (data.drop size) := by
  have hlen : (data.drop size).length ≤ data.length - 1 := by
    rw [List.length_drop]
    omega
  have hsucc : data.length = data.length - 1 + 1 := by omega
  rw [run, hsucc, loop, if_pos h, run]
  exact loop_fuel hsize hlen (Nat.le_refl _)

/-- **Induction along the loop**: a block and the rest, or the end. -/
@[elab_as_elim]
theorem run_induction (hold : ℕ) (absorb : σ → List α → σ) {motive : σ → List α → Prop}
    (hsize : 0 < size) (done : ∀ s data, data.length < size + hold → motive s data)
    (turn : ∀ s data, size + hold ≤ data.length →
      motive (absorb s (data.take size)) (data.drop size) → motive s data) (s : σ) (data : List α) :
    motive s data := by
  induction hn : data.length using Nat.strong_induction_on generalizing s data with
  | _ n ih =>
    rcases Nat.lt_or_ge data.length (size + hold) with h | h
    · exact done s data h
    · refine turn s data h (ih (data.drop size).length ?_ _ _ rfl)
      rw [List.length_drop]
      omega

theorem length_run_lt (hsize : 0 < size) (s : σ) (data : List α) :
    (run size hold absorb s data).2.length < size + hold := by
  refine run_induction hold absorb hsize ?_ ?_ s data
  · intro s data h
    rwa [run_of_lt h]
  · intro s data h ih
    rwa [run_of_le hsize h]

/-- **The loop goes on where it stopped.** -/
theorem run_append (hsize : 0 < size) (s : σ) (data more : List α) :
    run size hold absorb s (data ++ more) =
      run size hold absorb (run size hold absorb s data).1
        ((run size hold absorb s data).2 ++ more) := by
  refine run_induction hold absorb hsize ?_ ?_ s data
  · intro s data h
    rw [run_of_lt h]
  · intro s data h ih
    have hlong : size + hold ≤ (data ++ more).length := by
      rw [List.length_append]
      omega
    have hsize' : size ≤ data.length := by omega
    rw [run_of_le hsize hlong, run_of_le hsize h, List.take_append_of_le_length hsize',
      List.drop_append_of_le_length hsize']
    exact ih

theorem block_succ (data : List α) (i : ℕ) :
    block size data (i + 1) = block size (data.drop size) i := by
  rw [block, block, List.drop_drop, Nat.succ_mul, Nat.add_comm]

/-- **What the loop has done**: a fold over the blocks. -/
theorem run_eq (hsize : 0 < size) (s : σ) (data : List α) :
    run size hold absorb s data =
      ((List.range ((data.length - hold) / size)).foldl
        (fun s i => absorb s (block size data i)) s,
        data.drop ((data.length - hold) / size * size)) := by
  refine run_induction hold absorb hsize ?_ ?_ s data
  · intro s data h
    have hzero : (data.length - hold) / size = 0 := Nat.div_eq_of_lt (by omega)
    rw [run_of_lt h, hzero]
    simp
  · intro s data h ih
    have hcount : (data.length - hold) / size = ((data.drop size).length - hold) / size + 1 := by
      rw [List.length_drop, ← Nat.add_div_right _ hsize]
      congr 1
      omega
    rw [run_of_le hsize h, ih, hcount, List.range_succ_eq_map, List.foldl_cons, List.foldl_map,
      List.drop_drop, Nat.succ_mul, Nat.add_comm size]
    simp only [Nat.succ_eq_add_one, block_succ]
    simp [block]

/-! ## 5. Pieces -/

/-- **An eager piece.** -/
theorem update_eq (hsize : 0 < size) {buf : List α} (hbuf : buf.length < size) (s : σ)
    (data : List α) : update size absorb (s, buf) data = run size 0 absorb s (buf ++ data) := by
  unfold update
  dsimp only
  by_cases hpos : 0 < buf.length
  · rw [if_pos hpos]
    by_cases hfull : size - buf.length ≤ data.length
    · -- the buffer is filled, and its block is the first of the whole
      have htake : (buf ++ data.take (size - buf.length)).length = size := by
        rw [List.length_append, List.length_take]
        omega
      have hlong : size + 0 ≤ (buf ++ data).length := by
        rw [List.length_append]
        omega
      have hblock : (buf ++ data).take size = buf ++ data.take (size - buf.length) := by
        rw [List.take_append, List.take_of_length_le hbuf.le]
      have hrest : (buf ++ data).drop size = data.drop (size - buf.length) := by
        rw [List.drop_append, List.drop_eq_nil_of_le hbuf.le, List.nil_append]
      rw [Nat.min_eq_left hfull, if_pos htake, run_of_le hsize hlong, hblock, hrest]
      dsimp only
      split
      · rfl
      · rename_i hnil
        rw [Nat.not_lt, Nat.le_zero, List.length_eq_zero_iff] at hnil
        rw [← hnil]
    · -- everything fits
      have hshort : ¬(buf ++ data).length = size := by
        rw [List.length_append]
        omega
      have hlt : (buf ++ data).length < size + 0 := by
        rw [List.length_append]
        omega
      have hnil : run size 0 absorb s [] = (s, []) := run_of_lt (by rw [List.length_nil]; omega)
      rw [Nat.min_eq_right (by omega), List.take_length, List.drop_length, if_neg hshort,
        run_of_lt hlt]
      dsimp only
      rw [hnil]
      rfl
  · obtain rfl : buf = [] := List.length_eq_zero_iff.mp (by omega)
    rw [if_neg hpos, List.nil_append]
    dsimp only
    split
    · rfl
    · rename_i hnil
      rw [Nat.not_lt, Nat.le_zero, List.length_eq_zero_iff] at hnil
      rw [← hnil]

/-- **Eager pieces are as good as the whole.** -/
theorem updates_eq (hsize : 0 < size) (s : σ) (chunks : List (List α)) :
    chunks.foldl (update size absorb) (s, []) = run size 0 absorb s chunks.flatten := by
  have hsteps : ∀ data : List α, chunks.foldl (update size absorb) (run size 0 absorb s data) =
      run size 0 absorb s (data ++ chunks.flatten) := by
    induction chunks with
    | nil =>
      intro data
      rw [List.foldl_nil, List.flatten_nil, List.append_nil]
    | cons chunk chunks ih =>
      intro data
      have hbuf := @length_run_lt _ _ size 0 absorb hsize s data
      have hstep : update size absorb (run size 0 absorb s data) chunk =
          run size 0 absorb s (data ++ chunk) := by
        rw [run_append hsize s data chunk]
        exact update_eq hsize hbuf _ _
      rw [List.foldl_cons, hstep, ih, List.flatten_cons, List.append_assoc]
  have hstart : run size 0 absorb s [] = (s, []) := run_of_lt (by rw [List.length_nil]; omega)
  have h := hsteps []
  rwa [hstart, List.nil_append] at h

theorem lazyLoop_eq (hsize : 0 < size) {fuel : ℕ} {buf : List α} (hbuf : buf.length ≤ size)
    (hfuel : data.length + (if buf.length = size then 1 else 0) ≤ fuel) :
    lazyLoop size absorb fuel (s, buf) data = run size 1 absorb s (buf ++ data) := by
  have hstop : run size 1 absorb s buf = (s, buf) := run_of_lt (by omega)
  induction fuel generalizing s buf data with
  | zero =>
    obtain rfl : data = [] := List.length_eq_zero_iff.mp (by omega)
    rw [List.append_nil, hstop]
    rfl
  | succ fuel ih =>
    rw [lazyLoop]
    split
    · rename_i hpos
      dsimp only
      split
      · rename_i hmore
        have hlong : size + 1 ≤ (buf ++ data).length := by
          rw [List.length_append]
          omega
        have hblock : (buf ++ data).take size = buf ++ data.take (size - buf.length) := by
          rw [List.take_append, List.take_of_length_le hbuf]
        have hrest : (buf ++ data).drop size = data.drop (size - buf.length) := by
          rw [List.drop_append, List.drop_eq_nil_of_le hbuf, List.nil_append]
        have hnil : ¬([] : List α).length = size := by
          rw [List.length_nil]
          omega
        rw [run_of_le hsize hlong, hblock, hrest]
        refine ih (Nat.zero_le _) ?_ (run_of_lt (by rw [List.length_nil]; omega))
        rw [if_neg hnil, List.length_drop]
        split at hfuel
        · omega
        · omega
      · rename_i hmore
        refine (run_of_lt ?_).symm
        rw [List.length_append]
        omega
    · rename_i hpos
      obtain rfl : data = [] := List.length_eq_zero_iff.mp (by omega)
      rw [List.append_nil, hstop]

/-- **A lazy piece.** -/
theorem lazyUpdate_eq (hsize : 0 < size) {buf : List α} (hbuf : buf.length ≤ size) (s : σ)
    (data : List α) :
    lazyUpdate size absorb (s, buf) data = run size 1 absorb s (buf ++ data) := by
  refine lazyLoop_eq hsize hbuf ?_
  split
  · exact Nat.le_refl _
  · omega

/-- **Lazy pieces are as good as the whole.** -/
theorem lazyUpdates_eq (hsize : 0 < size) (s : σ) (data : List α) (chunks : List (List α)) :
    chunks.foldl (lazyUpdate size absorb) (run size 1 absorb s data) =
      run size 1 absorb s (data ++ chunks.flatten) := by
  induction chunks generalizing data with
  | nil => rw [List.foldl_nil, List.flatten_nil, List.append_nil]
  | cons chunk chunks ih =>
    have hbuf := @length_run_lt _ _ size 1 absorb hsize s data
    have hstep : lazyUpdate size absorb (run size 1 absorb s data) chunk =
        run size 1 absorb s (data ++ chunk) := by
      rw [run_append hsize s data chunk]
      exact lazyUpdate_eq hsize (Nat.lt_succ_iff.mp hbuf) _ _
    rw [List.foldl_cons, hstep, ih, List.flatten_cons, List.append_assoc]

end BlockStream
