/-
# Text put together with `snprintf` and a running offset

    offset += snprintf(buf + offset, sizeof(buf) - offset, ..);

`snprintf` writes at most the size it is given, its `NUL` included, and RETURNS the length of the
text as if there had been room.  So the offset runs past the end of the array with the text, and
`sizeof(buf) - offset`, which is unsigned, then wraps around to a huge size.

`Line` is the array with the offset, a cell is `none` until it is written.

* `offset_appendAll` -- the offset is the length of the text, whatever was written;
* `written_appendAll` -- while the text fits the array, every cell below the offset is written;
* `holds_appendAll` -- with room for the `NUL` the cells hold the text;
* `whole_iff` -- then every call is given the space that is left, and only then.
-/
import Mathlib.Data.List.Basic
import Mathlib.Data.Nat.Digits.Defs

namespace Snprintf

/-- The memory from the start of the array on, and the running offset. -/
structure Line where
  cell : ℕ → Option UInt8
  offset : ℕ

namespace Line

def empty : Line := ⟨fun _ => none, 0⟩

/-- What `snprintf(buf + at, size, ..)` leaves in memory. -/
def print (cell : ℕ → Option UInt8) (start size : ℕ) (text : List UInt8) (i : ℕ) : Option UInt8 :=
  if size = 0 ∨ i < start ∨ start + min text.length (size - 1) < i then cell i
  else if i = start + min text.length (size - 1) then some 0
  else text[i - start]?

/-- One piece, into an array of `cap` bytes. -/
def append (cap : ℕ) (l : Line) (text : List UInt8) : Line where
  cell := print l.cell l.offset ((2 ^ 64 + cap - l.offset) % 2 ^ 64) text
  offset := l.offset + text.length

def appendAll (cap : ℕ) (l : Line) (texts : List (List UInt8)) : Line := texts.foldl (append cap) l

variable {cap : ℕ} {l : Line} {text : List UInt8} {texts : List (List UInt8)}

theorem offset_appendAll : ∀ {texts : List (List UInt8)} {l : Line},
    (l.appendAll cap texts).offset = l.offset + texts.flatten.length
  | [], l => by simp [appendAll]
  | text :: texts, l => by
    have ih : ((l.append cap text).appendAll cap texts).offset =
        (l.append cap text).offset + texts.flatten.length := offset_appendAll
    rw [appendAll, List.foldl_cons, ← appendAll, ih]
    simp [append, Nat.add_assoc]

/-- Every cell below the offset is written. -/
def Written (l : Line) : Prop := ∀ i < l.offset, l.cell i ≠ none

theorem size_eq (hcap : cap < 2 ^ 64) (h : l.offset ≤ cap) :
    (2 ^ 64 + cap - l.offset) % 2 ^ 64 = cap - l.offset := by
  rw [show 2 ^ 64 + cap - l.offset = cap - l.offset + 2 ^ 64 by omega, Nat.add_mod_right,
    Nat.mod_eq_of_lt (by omega)]

/-- A piece that fits, if only without its `NUL`. -/
theorem Written.append (hcap : cap < 2 ^ 64) (hl : l.Written)
    (h : l.offset + text.length ≤ cap) : (l.append cap text).Written := by
  intro i hi
  simp only [Line.append] at hi ⊢
  rw [size_eq hcap (by omega), print]
  split
  · exact hl i (by omega)
  · split
    · simp
    · rw [List.getElem?_eq_getElem (by omega)]
      simp

theorem written_appendAll (hcap : cap < 2 ^ 64) : ∀ {texts : List (List UInt8)} {l : Line},
    l.Written → l.offset + texts.flatten.length ≤ cap → (l.appendAll cap texts).Written
  | [], _, hl, _ => hl
  | text :: texts, l, hl, h => by
    rw [List.flatten_cons, List.length_append] at h
    have h1 : (l.append cap text).Written := hl.append hcap (by omega)
    have h2 : ((l.append cap text).appendAll cap texts).Written :=
      written_appendAll hcap h1 (by simp only [append]; omega)
    exact h2

/-- The cells below the offset hold `done`. -/
def Holds (l : Line) (done : List UInt8) : Prop :=
  l.offset = done.length ∧ ∀ i < done.length, l.cell i = done[i]?

theorem Holds.append (hcap : cap < 2 ^ 64) {done : List UInt8} (hl : l.Holds done)
    (h : l.offset + text.length < cap) : (l.append cap text).Holds (done ++ text) := by
  obtain ⟨ho, hc⟩ := hl
  refine ⟨by simp [Line.append, ho], fun i hi => ?_⟩
  rw [List.length_append] at hi
  simp only [Line.append]
  rw [size_eq hcap (by omega), print]
  split
  · rw [List.getElem?_append_left (by omega), hc i (by omega)]
  · rw [if_neg (by omega), List.getElem?_append_right (by omega), ho]

/-- **The text, if there is room for its `NUL`.** -/
theorem holds_appendAll (hcap : cap < 2 ^ 64) : ∀ {texts : List (List UInt8)} {l : Line}
    {done : List UInt8}, l.Holds done → l.offset + texts.flatten.length < cap →
      (l.appendAll cap texts).Holds (done ++ texts.flatten)
  | [], l, done, hl, _ => by simpa [appendAll] using hl
  | text :: texts, l, done, hl, h => by
    rw [List.flatten_cons, List.length_append] at h
    have h1 : (l.append cap text).Holds (done ++ text) := hl.append hcap (by omega)
    have ih : ((l.append cap text).appendAll cap texts).Holds (done ++ text ++ texts.flatten) :=
      holds_appendAll hcap h1 (by simp only [append]; omega)
    rwa [List.append_assoc, ← List.flatten_cons] at ih

/-- Nothing is written behind the array. -/
def Within (cap : ℕ) (l : Line) : Prop := ∀ i, cap ≤ i → l.cell i = none

theorem Within.append (hcap : cap < 2 ^ 64) (hl : l.Within cap) (h : l.offset ≤ cap) :
    (l.append cap text).Within cap := by
  intro i hi
  simp only [Line.append]
  rw [size_eq hcap h, print]
  split
  · exact hl i hi
  · omega

theorem within_appendAll (hcap : cap < 2 ^ 64) : ∀ {texts : List (List UInt8)} {l : Line},
    l.Within cap → l.offset + texts.flatten.length ≤ cap → (l.appendAll cap texts).Within cap
  | [], _, hl, _ => hl
  | text :: texts, l, hl, h => by
    rw [List.flatten_cons, List.length_append] at h
    have h1 : (l.append cap text).Within cap := hl.append hcap (by omega)
    have h2 : ((l.append cap text).appendAll cap texts).Within cap :=
      within_appendAll hcap h1 (by simp only [append]; omega)
    exact h2

theorem nul_append (hcap : cap < 2 ^ 64) (h : l.offset + text.length < cap) :
    (l.append cap text).cell (l.offset + text.length) = some 0 := by
  simp only [Line.append]
  rw [size_eq hcap (by omega), print, if_neg (by omega), if_pos (by omega)]

theorem nul_appendAll (hcap : cap < 2 ^ 64) (hne : texts ≠ [])
    (h : l.offset + texts.flatten.length < cap) :
    (l.appendAll cap texts).cell (l.offset + texts.flatten.length) = some 0 := by
  rcases List.eq_nil_or_concat texts with rfl | ⟨init, last, rfl⟩
  · exact absurd rfl hne
  · rw [List.concat_eq_append] at h ⊢
    have hinit : ∀ m : Line, m.appendAll cap (init ++ [last]) =
        (m.appendAll cap init).append cap last := fun m => by simp [appendAll]
    have hlen : (init ++ [last]).flatten.length = init.flatten.length + last.length := by simp
    rw [hlen] at h ⊢
    rw [hinit, ← Nat.add_assoc, ← @offset_appendAll cap init l]
    exact nul_append hcap (by rw [offset_appendAll]; omega)

/-- **Nothing is cut**: each call is given the space that is left, and in the end the array holds
the whole text and its `NUL`. -/
structure Whole (cap : ℕ) (texts : List (List UInt8)) : Prop where
  sizes : ∀ done text rest, texts = done ++ text :: rest →
    (empty.appendAll cap done).offset ≤ cap ∧
      (2 ^ 64 + cap - (empty.appendAll cap done).offset) % 2 ^ 64 =
        cap - (empty.appendAll cap done).offset
  offset : (empty.appendAll cap texts).offset ≤ cap
  text : ∀ i < texts.flatten.length, (empty.appendAll cap texts).cell i = texts.flatten[i]?
  nul : (empty.appendAll cap texts).cell texts.flatten.length = some 0

theorem whole_iff (hcap : cap < 2 ^ 64) (hne : texts ≠ []) :
    Whole cap texts ↔ texts.flatten.length < cap := by
  have hoffset : ∀ done, (empty.appendAll cap done).offset = done.flatten.length := by
    intro done
    rw [offset_appendAll, empty, Nat.zero_add]
  constructor
  · rintro ⟨-, hle, -, hnul⟩
    rw [hoffset] at hle
    refine lt_of_le_of_ne hle fun heq => ?_
    -- the last `NUL` would stand behind the array
    have hwithin := within_appendAll (l := empty) hcap (fun _ _ => rfl)
      (by rw [empty, Nat.zero_add]; exact hle)
    rw [hwithin _ heq.ge] at hnul
    cases hnul
  · intro hlt
    refine ⟨fun done text rest heq => ?_, ?_, ?_, ?_⟩
    · have hdone : (empty.appendAll cap done).offset ≤ cap := by
        rw [hoffset]
        rw [heq, List.flatten_append, List.length_append] at hlt
        omega
      exact ⟨hdone, size_eq hcap hdone⟩
    · rw [hoffset]
      exact hlt.le
    · have hempty : empty.Holds [] := ⟨rfl, by simp⟩
      have hholds := holds_appendAll hcap hempty (by rw [empty, Nat.zero_add]; exact hlt)
      rw [List.nil_append] at hholds
      exact hholds.2
    · have hnul := nul_appendAll (l := empty) hcap hne (by rw [empty, Nat.zero_add]; exact hlt)
      rwa [empty, Nat.zero_add] at hnul

end Line

end Snprintf
