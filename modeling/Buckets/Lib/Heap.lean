/-
# A heap of blocks, and trees of arrays in it

Blocks live at addresses that are never used twice.  `none` is undefined behaviour: a read or a
write of a block that is not there, a second `free`.

What a piece of code does to the heap is said by `Moves h h' F F'`: the blocks `F` that it owned
became the blocks `F'`, all that is new in `F'` was unused before, all of `F` that is not in `F'`
is freed, and nothing else changed.  Such facts compose (`Moves.trans`) and hold beside any other
blocks (`Moves.frame`), so one of them says at once that there is no leak, no write through an
alias and no block freed twice.

A tree of arrays (records that point to arrays of records, ..) is read by a `Local` reader, which
returns the value of a record and the blocks below it.  `readArray` makes the reader of an array
from that of its elements; an array that is filled one element after the other (`Copied`) and the
deep `free` (`freeArray`) are written once, for arrays of anything.
-/
import Mathlib.Data.List.Basic
import Mathlib.Data.List.Nodup
import Mathlib.Data.List.Flatten
import Mathlib.Logic.Function.Basic

/-- Blocks by address.  Addresses from `next` on have not been used. -/
structure Heap (β : Type*) where
  cell : ℕ → Option β
  next : ℕ
  fresh : ∀ a, next ≤ a → cell a = none

namespace Heap

variable {β ρ ν : Type*} {h h' h'' : Heap β}

/-! ## 1. Blocks -/

/-- `malloc` and `calloc`, with the contents the block is given. -/
def alloc (h : Heap β) (b : β) : ℕ × Heap β :=
  (h.next,
    { cell := Function.update h.cell h.next (some b)
      next := h.next + 1
      fresh := fun a ha => by
        rw [Function.update_of_ne (by omega)]
        exact h.fresh a (by omega) })

variable {a : ℕ} {F F' G G' : List ℕ} {r : ρ} {v : ν} {vs : List ν} {K : List ℕ} {recs : List ρ}
  {i n : ℕ}

theorem lt_next (ha : h.cell a ≠ none) : a < h.next := by
  by_contra hge
  exact ha (h.fresh a (by omega))

/-- Overwrites the block at `a`, with `none` to free it. -/
def put (h : Heap β) (a : ℕ) (b : Option β) (ha : h.cell a ≠ none) : Heap β where
  cell := Function.update h.cell a b
  next := h.next
  fresh := fun c hc => by
    have := lt_next ha
    rw [Function.update_of_ne (by omega)]
    exact h.fresh c hc

/-- A write to a block. -/
def store (h : Heap β) (a : ℕ) (b : β) : Option (Heap β) :=
  if ha : (h.cell a).isSome then some (h.put a (some b) (Option.isSome_iff_ne_none.mp ha)) else none

/-- `free`. -/
def free (h : Heap β) : Option ℕ → Option (Heap β)
  | none => some h
  | some a =>
    if ha : (h.cell a).isSome then some (h.put a none (Option.isSome_iff_ne_none.mp ha)) else none

theorem store_spec (ha : h.cell a ≠ none) (b : β) :
    ∃ h', h.store a b = some h' ∧ h'.cell a = some b ∧ ∀ c ≠ a, h'.cell c = h.cell c := by
  refine ⟨_, dif_pos (Option.isSome_iff_ne_none.mpr ha), Function.update_self .., ?_⟩
  exact fun c hc => Function.update_of_ne hc ..

theorem free_spec (ha : h.cell a ≠ none) :
    ∃ h', h.free (some a) = some h' ∧ h'.cell a = none ∧ ∀ c ≠ a, h'.cell c = h.cell c := by
  refine ⟨_, dif_pos (Option.isSome_iff_ne_none.mpr ha), Function.update_self .., ?_⟩
  exact fun c hc => Function.update_of_ne hc ..

/-! ## 2. What code does to the heap -/

/-- The blocks `F` became the blocks `F'`. -/
structure Moves (h h' : Heap β) (F F' : List ℕ) : Prop where
  new : ∀ a ∈ F', a ∈ F ∨ h.cell a = none
  gone : ∀ a ∈ F, a ∉ F' → h'.cell a = none
  other : ∀ a, a ∉ F → a ∉ F' → h'.cell a = h.cell a

theorem Moves.trans {F'' : List ℕ} (h1 : Moves h h' F F') (h2 : Moves h' h'' F' F'') :
    Moves h h'' F F'' where
  new a ha := by
    by_cases hF' : a ∈ F'
    · exact h1.new a hF'
    · rcases h2.new a ha with hmem | hnone
      · exact absurd hmem hF'
      · by_cases hF : a ∈ F
        · exact Or.inl hF
        · exact Or.inr (h1.other a hF hF' ▸ hnone)
  gone a ha hn := by
    by_cases hF' : a ∈ F'
    · exact h2.gone a hF' hn
    · rw [h2.other a hF' hn, h1.gone a ha hF']
  other a hF hn := by
    by_cases hF' : a ∈ F'
    · rw [h2.gone a hF' hn]
      rcases h1.new a hF' with hmem | hnone
      · exact absurd hmem hF
      · exact hnone.symm
    · rw [h2.other a hF' hn, h1.other a hF hF']

/-- What happens beside other blocks. -/
theorem Moves.frame (hm : Moves h h' F F') (G : List ℕ) :
    Moves h h' (F ++ G) (F' ++ G) where
  new a ha := by
    rcases List.mem_append.mp ha with ha | ha
    · exact (hm.new a ha).imp_left (List.mem_append_left G)
    · exact Or.inl (List.mem_append_right F ha)
  gone a ha hn := by
    rw [List.mem_append, not_or] at hn
    rcases List.mem_append.mp ha with ha | ha
    · exact hm.gone a ha hn.1
    · exact absurd ha hn.2
  other a hF hn := by
    rw [List.mem_append, not_or] at hF hn
    exact hm.other a hF.1 hn.1

/-- Only which blocks they are counts. -/
theorem Moves.congr (hm : Moves h h' F F') (hF : ∀ a, a ∈ G ↔ a ∈ F)
    (hF' : ∀ a, a ∈ G' ↔ a ∈ F') : Moves h h' G G' where
  new a ha := (hm.new a ((hF' a).mp ha)).imp_left (hF a).mpr
  gone a ha hn := hm.gone a ((hF a).mp ha) (mt (hF' a).mpr hn)
  other a ha hn := hm.other a (mt (hF a).mpr ha) (mt (hF' a).mpr hn)

/-- Live blocks of others are neither changed nor taken. -/
theorem Moves.keeps (hm : Moves h h' F F') (hlive : h.cell a ≠ none)
    (ha : a ∉ F) : a ∉ F' ∧ h'.cell a = h.cell a := by
  have ha' : a ∉ F' := fun hmem => (hm.new a hmem).elim ha hlive
  exact ⟨ha', hm.other a ha ha'⟩

theorem alloc_moves (h : Heap β) (b : β) :
    h.cell (h.alloc b).1 = none ∧ (h.alloc b).2.cell (h.alloc b).1 = some b ∧
      Moves h (h.alloc b).2 [] [(h.alloc b).1] := by
  refine ⟨h.fresh _ (Nat.le_refl _), Function.update_self .., ?_, ?_, ?_⟩
  · intro a ha
    rw [List.mem_singleton.mp ha]
    exact Or.inr (h.fresh _ (Nat.le_refl _))
  · simp
  · intro a _ ha
    exact Function.update_of_ne (fun heq => ha (List.mem_singleton.mpr heq)) ..

theorem moves_of_other (hother : ∀ c ≠ a, h'.cell c = h.cell c) : Moves h h' [a] [a] where
  new _ hc := Or.inl hc
  gone _ hc hn := absurd hc hn
  other c hc _ := hother c fun heq => hc (List.mem_singleton.mpr heq)

theorem moves_of_free (hnone : h'.cell a = none)
    (hother : ∀ c ≠ a, h'.cell c = h.cell c) : Moves h h' [a] [] where
  new _ hc := absurd hc List.not_mem_nil
  gone _ hc _ := List.mem_singleton.mp hc ▸ hnone
  other c hc _ := hother c fun heq => hc (List.mem_singleton.mpr heq)

/-! ## 3. Readers -/

/-- Reads the value of a record, and the blocks below it. -/
abbrev Reader (β ρ ν : Type*) := Heap β → ρ → Option (ν × List ℕ)

/-- A reader that depends on the blocks it returns, which are live. -/
structure Local (read : Reader β ρ ν) : Prop where
  live : ∀ {h r v F}, read h r = some (v, F) → ∀ a ∈ F, h.cell a ≠ none
  congr : ∀ {h h' r v F}, read h r = some (v, F) → (∀ a ∈ F, h'.cell a = h.cell a) →
    read h' r = some (v, F)

/-- What is read beside the blocks that move stays. -/
theorem Local.keeps {read : Reader β ρ ν} (hread : Local read)
    (hr : read h r = some (v, G)) (hm : Moves h h' F F') (hdisj : ∀ a ∈ G, a ∉ F) :
    read h' r = some (v, G) ∧ ∀ a ∈ G, a ∉ F' := by
  have hkeep : ∀ a ∈ G, a ∉ F' ∧ h'.cell a = h.cell a :=
    fun a ha => hm.keeps (hread.live hr a ha) (hdisj a ha)
  exact ⟨hread.congr hr fun a ha => (hkeep a ha).2, fun a ha => (hkeep a ha).1⟩

section Field

variable {σ μ : Type*} {ptr : ρ → σ} {make : ρ → μ → ν}

/-- The reader of a record with a pointer to what another reader reads. -/
def Reader.field (read : Reader β σ μ) (ptr : ρ → σ) (make : ρ → μ → ν) : Reader β ρ ν :=
  fun h r => (read h (ptr r)).map fun out => (make r out.1, out.2)

theorem Reader.field_some {read : Reader β σ μ} {r : ρ} {v : ν} {F : List ℕ} :
    read.field ptr make h r = some (v, F) ↔ ∃ u, read h (ptr r) = some (u, F) ∧ make r u = v := by
  simp [Reader.field]

theorem Local.field {read : Reader β σ μ} (hread : Local read) : Local (read.field ptr make) where
  live hr := by
    obtain ⟨u, hu, -⟩ := Reader.field_some.mp hr
    exact hread.live hu
  congr hr hagree := by
    obtain ⟨u, hu, rfl⟩ := Reader.field_some.mp hr
    exact Reader.field_some.mpr ⟨u, hread.congr hu hagree, rfl⟩

end Field

/-- How an array of records is kept in a block. -/
structure Layout (β ρ : Type*) where
  wrap : List ρ → β
  unwrap : β → Option (List ρ)
  unwrap_wrap : ∀ l, unwrap (wrap l) = some l

namespace Layout

variable (L : Layout β ρ)

/-- The array at an address. -/
def load (h : Heap β) (a : ℕ) : Option (List ρ) := (h.cell a).bind L.unwrap

/-- `arr[i]`. -/
def get (h : Heap β) (a i : ℕ) : Option ρ := (L.load h a).bind (·[i]?)

/-- `arr[i] = r`. -/
def set (h : Heap β) (a i : ℕ) (r : ρ) : Option (Heap β) :=
  (L.load h a).bind fun l => if i < l.length then h.store a (L.wrap (l.set i r)) else none

variable {L}

variable {a : ℕ}

theorem load_live {l : List ρ} (ha : L.load h a = some l) : h.cell a ≠ none := by
  intro hnone
  simp [load, hnone] at ha

theorem load_congr (ha : h'.cell a = h.cell a) : L.load h' a = L.load h a := by
  rw [load, load, ha]

theorem load_wrap {l : List ρ} (ha : h.cell a = some (L.wrap l)) : L.load h a = some l := by
  rw [load, ha, Option.bind_some, L.unwrap_wrap]

theorem set_spec {i : ℕ} {l : List ρ} (ha : L.load h a = some l) (hi : i < l.length) (r : ρ) :
    ∃ h', L.set h a i r = some h' ∧ L.load h' a = some (l.set i r) ∧
      ∀ c ≠ a, h'.cell c = h.cell c := by
  obtain ⟨h', hstore, hcell, hother⟩ := store_spec (load_live ha) (L.wrap (l.set i r))
  refine ⟨h', ?_, load_wrap hcell, hother⟩
  rw [set, ha, Option.bind_some, if_pos hi, hstore]

end Layout

/-! ## 4. Arrays -/

variable {L : Layout β ρ} {read : Reader β ρ ν}

/-- Reads the records of a list, one after the other. -/
def readList (read : Reader β ρ ν) : Reader β (List ρ) (List ν)
  | _, [] => some ([], [])
  | h, r :: recs =>
    (read h r).bind fun out =>
      (readList read h recs).bind fun outs => some (out.1 :: outs.1, out.2 ++ outs.2)

theorem readList_nil :
    readList read h [] = some (vs, F) ↔ vs = [] ∧ F = [] := by
  simp [readList, eq_comm]

theorem readList_cons {ws : List ν} :
    readList read h (r :: recs) = some (ws, K) ↔
      ∃ v F vs G, read h r = some (v, F) ∧ readList read h recs = some (vs, G) ∧
        ws = v :: vs ∧ K = F ++ G := by
  simp only [readList, Option.bind_eq_some_iff, Option.some.injEq, Prod.mk.injEq]
  constructor
  · rintro ⟨⟨v, F⟩, hr, ⟨vs, G⟩, hrecs, rfl, rfl⟩
    exact ⟨v, F, vs, G, hr, hrecs, rfl, rfl⟩
  · rintro ⟨v, F, vs, G, hr, hrecs, rfl, rfl⟩
    exact ⟨(v, F), hr, (vs, G), hrecs, rfl, rfl⟩

theorem readList_append : ∀ {recs recs' : List ρ} {ws : List ν} {K : List ℕ},
    readList read h (recs ++ recs') = some (ws, K) ↔
      ∃ vs F vs' F', readList read h recs = some (vs, F) ∧ readList read h recs' = some (vs', F') ∧
        ws = vs ++ vs' ∧ K = F ++ F'
  | [], recs', ws, K => by
    constructor
    · intro hr
      exact ⟨[], [], ws, K, rfl, hr, rfl, rfl⟩
    · rintro ⟨vs, F, vs', F', hnil, hr, rfl, rfl⟩
      obtain ⟨rfl, rfl⟩ := readList_nil.mp hnil
      exact hr
  | r :: recs, recs', ws, K => by
    rw [List.cons_append, readList_cons]
    constructor
    · rintro ⟨v, F, vs, G, hr, hrecs, rfl, rfl⟩
      obtain ⟨us, G', us', G'', h1, h2, rfl, rfl⟩ := readList_append.mp hrecs
      exact ⟨v :: us, F ++ G', us', G'', readList_cons.mpr ⟨v, F, us, G', hr, h1, rfl, rfl⟩, h2,
        rfl, (List.append_assoc ..).symm⟩
    · rintro ⟨vs, F, vs', F', h1, h2, rfl, rfl⟩
      obtain ⟨v, F, us, G, hr, hrecs, rfl, rfl⟩ := readList_cons.mp h1
      exact ⟨v, F, us ++ vs', G ++ F', hr,
        readList_append.mpr ⟨us, G, vs', F', hrecs, h2, rfl, rfl⟩, rfl, List.append_assoc ..⟩

theorem readList_length : ∀ {recs : List ρ} {vs : List ν} {F : List ℕ},
    readList read h recs = some (vs, F) → vs.length = recs.length
  | [], vs, F, hr => by rw [(readList_nil.mp hr).1]; rfl
  | r :: recs, vs, F, hr => by
    obtain ⟨v, F, us, G, -, hrecs, rfl, rfl⟩ := readList_cons.mp hr
    rw [List.length_cons, List.length_cons, readList_length hrecs]

theorem readList_local (hread : Local read) : Local (readList read) where
  live := by
    intro h recs
    induction recs with
    | nil =>
      intro vs F hr a ha
      rw [(readList_nil.mp hr).2] at ha
      exact absurd ha List.not_mem_nil
    | cons r recs ih =>
      intro vs F hr a ha
      obtain ⟨v, F, us, G, hhead, hrecs, rfl, rfl⟩ := readList_cons.mp hr
      rcases List.mem_append.mp ha with ha | ha
      · exact hread.live hhead a ha
      · exact ih hrecs a ha
  congr := by
    intro h h' recs
    induction recs with
    | nil =>
      intro vs F hr _
      exact readList_nil.mpr (readList_nil.mp hr)
    | cons r recs ih =>
      intro vs F hr hagree
      obtain ⟨v, F, us, G, hhead, hrecs, rfl, rfl⟩ := readList_cons.mp hr
      refine readList_cons.mpr ⟨v, F, us, G, hread.congr hhead ?_, ih hrecs ?_, rfl, rfl⟩
      · exact fun a ha => hagree a (List.mem_append_left G ha)
      · exact fun a ha => hagree a (List.mem_append_right F ha)

/-- Reads an array, given by its address (or `NULL`) and its length. -/
def readArray (L : Layout β ρ) (read : Reader β ρ ν) : Reader β (Option ℕ × ℕ) (List ν)
  | _, (none, n) => if n = 0 then some ([], []) else none
  | h, (some a, n) =>
    (L.load h a).bind fun recs =>
      if recs.length = n then (readList read h recs).map fun out => (out.1, a :: out.2) else none

theorem readArray_none :
    readArray L read h (none, n) = some (vs, F) ↔ n = 0 ∧ vs = [] ∧ F = [] := by
  by_cases hn : n = 0 <;> simp [readArray, hn, eq_comm]

theorem readArray_some :
    readArray L read h (some a, n) = some (vs, K) ↔
      ∃ recs F, L.load h a = some recs ∧ recs.length = n ∧ readList read h recs = some (vs, F) ∧
        K = a :: F := by
  simp only [readArray, Option.bind_eq_some_iff]
  constructor
  · rintro ⟨recs, hload, hr⟩
    split at hr
    · rename_i hlen
      obtain ⟨⟨us, F⟩, hrecs, heq⟩ := Option.map_eq_some_iff.mp hr
      obtain ⟨rfl, rfl⟩ := Prod.mk.inj heq
      exact ⟨recs, F, hload, hlen, hrecs, rfl⟩
    · exact absurd hr (by simp)
  · rintro ⟨recs, F, hload, rfl, hrecs, rfl⟩
    exact ⟨recs, hload, by rw [if_pos rfl, hrecs, Option.map_some]⟩

theorem readArray_length {p : Option ℕ × ℕ}
    (hr : readArray L read h p = some (vs, F)) : vs.length = p.2 := by
  obtain ⟨_ | a, n⟩ := p
  · obtain ⟨rfl, rfl, -⟩ := readArray_none.mp hr
    rfl
  · obtain ⟨recs, G, -, rfl, hrecs, -⟩ := readArray_some.mp hr
    exact readList_length hrecs

/-- **The reader of an array is local if that of its elements is.** -/
theorem readArray_local (hread : Local read) : Local (readArray L read) where
  live := by
    rintro h ⟨_ | a, n⟩ vs F hr c hc
    · obtain ⟨-, -, rfl⟩ := readArray_none.mp hr
      exact absurd hc List.not_mem_nil
    · obtain ⟨recs, G, hload, -, hrecs, rfl⟩ := readArray_some.mp hr
      rcases List.mem_cons.mp hc with rfl | hc
      · exact Layout.load_live hload
      · exact (readList_local hread).live hrecs c hc
  congr := by
    rintro h h' ⟨_ | a, n⟩ vs F hr hagree
    · exact readArray_none.mpr (readArray_none.mp hr)
    · obtain ⟨recs, G, hload, hlen, hrecs, rfl⟩ := readArray_some.mp hr
      refine readArray_some.mpr ⟨recs, G, ?_, hlen, (readList_local hread).congr hrecs ?_, rfl⟩
      · exact (Layout.load_congr (hagree a List.mem_cons_self)).trans hload
      · exact fun c hc => hagree c (List.mem_cons_of_mem a hc)

/-! ## 5. Filling an array -/

/-- After `i` rounds `dst` has `i` copies and zeros. -/
structure Copied (L : Layout β ρ) (read : Reader β ρ ν) (h g : Heap β) (dst n i : ℕ) (zero : ρ)
    (vs : List ν) (recs : List ρ) (F : List ℕ) : Prop where
  load : L.load g dst = some (recs ++ List.replicate (n - i) zero)
  length : recs.length = i
  reads : readList read g recs = some (vs.take i, F)
  nodup : (dst :: F).Nodup
  moves : Moves h g [] (dst :: F)

/-- An array of zeros is the start of a copy, as if it had been allocated last. -/
theorem Copied.start (read : Reader β ρ ν) (vs : List ν) {g : Heap β} {dst : ℕ} {zero : ρ}
    (hload : L.load g dst = some (List.replicate n zero)) :
    ∃ h, Copied L read h g dst n 0 zero vs [] [] ∧ Moves g h [dst] [] := by
  obtain ⟨h, -, hnone, hother⟩ := free_spec (Layout.load_live hload)
  refine ⟨h, ⟨hload, rfl, rfl, List.nodup_singleton _, ?_, ?_, ?_⟩, moves_of_free hnone hother⟩
  · intro a ha
    exact Or.inr (List.mem_singleton.mp ha ▸ hnone)
  · simp
  · intro a _ ha
    exact (hother a fun heq => ha (List.mem_singleton.mpr heq)).symm

/-- One more copy: `dst[i]` was written, and the blocks of the copy were unused. -/
theorem Copied.extend (hread : Local read) {g g' : Heap β} {dst : ℕ} {zero : ρ} {E : List ℕ}
    (hc : Copied L read h g dst n i zero vs recs F) (hi : i < n) (hv : vs[i]? = some v)
    (hload : L.load g' dst = some ((recs ++ List.replicate (n - i) zero).set i r))
    (hr : read g' r = some (v, E)) (hE : (dst :: E).Nodup) (hm : Moves g g' [dst] (dst :: E)) :
    Copied L read h g' dst n (i + 1) zero vs (recs ++ [r]) (F ++ E) := by
  obtain ⟨hdstF, -⟩ := List.nodup_cons.mp hc.nodup
  obtain ⟨hdstE, hnodupE⟩ := List.nodup_cons.mp hE
  obtain ⟨hrecs, hFE⟩ := (readList_local hread).keeps hc.reads hm (by
    rintro a ha hmem
    exact hdstF (List.mem_singleton.mp hmem ▸ ha))
  refine ⟨?_, ?_, ?_, ?_, ?_⟩
  · rw [hload, List.set_append_right _ _ (Nat.le_of_eq hc.length), hc.length, Nat.sub_self,
      show n - i = n - (i + 1) + 1 by omega, List.replicate_succ, List.set_cons_zero,
      List.append_assoc, List.singleton_append]
  · rw [List.length_append, hc.length, List.length_singleton]
  · refine readList_append.mpr ⟨_, F, [v], E, hrecs, ?_, ?_, rfl⟩
    · exact readList_cons.mpr ⟨v, E, [], [], hr, rfl, rfl, (List.append_nil _).symm⟩
    · rw [List.take_add_one, hv]
      rfl
  · rw [← List.cons_append]
    refine List.Nodup.append hc.nodup hnodupE fun a ha hmem => ?_
    rcases List.mem_cons.mp ha with rfl | ha
    · exact hdstE hmem
    · exact hFE a ha (List.mem_cons_of_mem _ hmem)
  · refine hc.moves.trans ((hm.frame F).congr (fun a => Iff.rfl) ?_)
    intro a
    simp only [List.mem_append, List.mem_cons]
    tauto

/-- A copy that was made is put at its place. -/
theorem Copied.put (hread : Local read) {g g1 : Heap β} {dst : ℕ} {zero : ρ} {E : List ℕ}
    (hc : Copied L read h g dst n i zero vs recs F) (hi : i < n) (hv : vs[i]? = some v)
    (hr : read g1 r = some (v, E)) (hE : E.Nodup) (hm : Moves g g1 [] E) :
    ∃ g', L.set g1 dst i r = some g' ∧
      Copied L read h g' dst n (i + 1) zero vs (recs ++ [r]) (F ++ E) := by
  obtain ⟨hdstE, hdst1⟩ := hm.keeps (Layout.load_live hc.load) (by simp)
  have hload1 : L.load g1 dst = some (recs ++ List.replicate (n - i) zero) :=
    (Layout.load_congr hdst1).trans hc.load
  obtain ⟨g2, hset, hload2, hother⟩ := Layout.set_spec hload1 (i := i) (by
    rw [List.length_append, List.length_replicate, hc.length]
    omega) r
  have hm2 := moves_of_other hother
  have hr2 : read g2 r = some (v, E) :=
    (hread.keeps hr hm2 (by
      rintro a ha hmem
      exact hdstE (List.mem_singleton.mp hmem ▸ ha))).1
  refine ⟨g2, hset, hc.extend hread hi hv hload2 hr2 (List.nodup_cons.mpr ⟨hdstE, hE⟩) ?_⟩
  have hm1 : Moves g g1 [dst] (dst :: E) := (hm.frame [dst]).congr (by simp) (by simp [or_comm])
  exact hm1.trans (hm2.frame E)

theorem Copied.done {g : Heap β} {dst : ℕ} {zero : ρ}
    (hc : Copied L read h g dst n n zero vs recs F) (hlen : vs.length = n) :
    readArray L read g (some dst, n) = some (vs, dst :: F) := by
  refine readArray_some.mpr ⟨recs, F, ?_, hc.length, ?_, rfl⟩
  · rw [hc.load, Nat.sub_self, List.replicate_zero, List.append_nil]
  · rw [hc.reads, List.take_of_length_le (Nat.le_of_eq hlen)]

/-! ## 6. Deep free -/

/-- Frees the elements of an array, and then the array. -/
def freeArray (L : Layout β ρ) (free : Heap β → ρ → Option (Heap β)) (h : Heap β)
    (p : Option ℕ × ℕ) : Option (Heap β) :=
  match p.1 with
  | none => some h
  | some a =>
    ((List.range p.2).foldlM (fun h i => (L.get h a i).bind (free h)) h).bind
      fun h => h.free (some a)

end Heap
