/-
# `s3/s3_xml.c`: text in an XML answer

`xml_escape` copies a string into a buffer, character by character, with an entity for each of the
five characters that XML reserves.  The loop looks AHEAD: it goes on while six more bytes and the
terminator have room, so that the next `strcpy` is inside whatever it copies, and no entity is cut.
The bound is `max_len - 6` on a `size_t`, so it is one only for a buffer of six bytes or more.

* `Escapes.turn`: what the output holds at the head of the loop, and how a turn keeps it;
* `unescape_flatMap`: the entities are read back;
* `xmlEscape_whole`: the output, for EVERY string and buffer from seven bytes on.
-/
import Buckets.Json
import Buckets.Lib.MemoryLoop

namespace Buckets.XmlEscape

open CStr MemoryLoop

/-! ## 1. The function -/

/-- The variables of the loop. -/
structure Escaping where
  i : ℕ
  outPos : ℕ
  output : Bytes

/-- `strcpy(output + out_pos, entity)` and `out_pos += n`. -/
def Escaping.copyEntity (s : Escaping) (entity : CString) (n : ℕ) : Option Escaping :=
  (MemoryLoop.write s.output s.outPos (entity ++ [0])).map fun output =>
    { s with outPos := s.outPos + n, output := output }

/-- The `switch`. -/
def Escaping.copyChar (s : Escaping) (c : UInt8) : Option Escaping :=
  match c with
  | 60 => s.copyEntity (cstr "&lt;") 4
  | 62 => s.copyEntity (cstr "&gt;") 4
  | 38 => s.copyEntity (cstr "&amp;") 5
  | 34 => s.copyEntity (cstr "&quot;") 6
  | 39 => s.copyEntity (cstr "&apos;") 6
  | c => (MemoryLoop.write s.output s.outPos [c]).map fun output =>
    { s with outPos := s.outPos + 1, output := output }

/-- One turn of the loop. -/
def turn (input : Bytes) (maxLen : UInt64) (s : Escaping) : Option (Turn Escaping) :=
  match input[s.i]? with
  | none => none
  | some c =>
    if c ≠ 0 ∧ s.outPos < (maxLen - 6).toNat then
      (s.copyChar c).map fun s => .again { s with i := s.i + 1 }
    else some .over

/-- `xml_escape`: what `output` holds afterwards; `none` if it is left, or `input`. -/
def xmlEscape (input output : Bytes) (maxLen : UInt64) : Option Bytes :=
  (MemoryLoop.run (turn input maxLen) (input.length + 1) ⟨0, 0, output⟩).bind fun s =>
    MemoryLoop.write s.output s.outPos [0]

/-! ## 2. Entities -/

/-- The characters that stand for themselves nowhere in a text: `<`, `>`, `&` and the quotes. -/
def reserved : List UInt8 := [60, 62, 38, 34, 39]

def entities : List CString :=
  [cstr "&lt;", cstr "&gt;", cstr "&amp;", cstr "&quot;", cstr "&apos;"]

/-- What a character becomes. -/
def escaped (c : UInt8) : CString :=
  match c with
  | 60 => cstr "&lt;"
  | 62 => cstr "&gt;"
  | 38 => cstr "&amp;"
  | 34 => cstr "&quot;"
  | 39 => cstr "&apos;"
  | c => [c]

/-- The text that entities and other characters stand for; `none` if a reserved character is in it
that begins no entity. -/
def unescape : Bytes → Option Bytes
  | [] => some []
  | 38 :: 108 :: 116 :: 59 :: s => (unescape s).map (60 :: ·)
  | 38 :: 103 :: 116 :: 59 :: s => (unescape s).map (62 :: ·)
  | 38 :: 97 :: 109 :: 112 :: 59 :: s => (unescape s).map (38 :: ·)
  | 38 :: 113 :: 117 :: 111 :: 116 :: 59 :: s => (unescape s).map (34 :: ·)
  | 38 :: 97 :: 112 :: 111 :: 115 :: 59 :: s => (unescape s).map (39 :: ·)
  | c :: s => if c ∈ reserved then none else (unescape s).map (c :: ·)

/-- A character becomes an entity, or it is not reserved and stays. -/
theorem escaped_cases (c : UInt8) :
    (c ∈ reserved ∧ escaped c ∈ entities) ∨ (c ∉ reserved ∧ escaped c = [c]) := by
  by_cases h : c ∈ reserved
  · refine .inl ⟨h, ?_⟩
    simp only [reserved, List.mem_cons, List.not_mem_nil, or_false] at h
    rcases h with rfl | rfl | rfl | rfl | rfl <;> decide
  · refine .inr ⟨h, ?_⟩
    unfold escaped
    split
    case h_6 => rfl
    all_goals exact absurd (by decide) h

theorem length_escaped_le (c : UInt8) : (escaped c).length ≤ 6 := by
  rcases escaped_cases c with ⟨-, h⟩ | ⟨-, h⟩
  · have hall : ∀ entity ∈ entities, entity.length ≤ 6 := by decide
    exact hall _ h
  · rw [h, List.length_singleton]
    decide

theorem zero_notMem_escaped {c : UInt8} (hc : c ≠ 0) : 0 ∉ escaped c := by
  rcases escaped_cases c with ⟨-, h⟩ | ⟨-, h⟩
  · have hall : ∀ entity ∈ entities, (0 : UInt8) ∉ entity := by decide
    exact hall _ h
  · rw [h, List.mem_singleton]
    exact Ne.symm hc

theorem zero_notMem_flatMap {str : CString} (h : 0 ∉ str) : 0 ∉ str.flatMap escaped := by
  intro hmem
  obtain ⟨c, hc, hzero⟩ := List.mem_flatMap.mp hmem
  exact zero_notMem_escaped (fun h0 => h (h0 ▸ hc)) hzero

theorem unescape_cons {c : UInt8} (h : c ∉ reserved) (s : Bytes) :
    unescape (c :: s) = (unescape s).map (c :: ·) := by
  have hamp : c ≠ 38 := fun hc => h (hc ▸ by decide)
  rw [unescape, if_neg h]
  all_goals
    intro _ hc
    exact absurd hc hamp

theorem unescape_escaped (c : UInt8) (s : Bytes) :
    unescape (escaped c ++ s) = (unescape s).map (c :: ·) := by
  by_cases h : c ∈ reserved
  · simp only [reserved, List.mem_cons, List.not_mem_nil, or_false] at h
    rcases h with rfl | rfl | rfl | rfl | rfl
    · exact unescape.eq_2 s
    · exact unescape.eq_3 s
    · exact unescape.eq_4 s
    · exact unescape.eq_5 s
    · exact unescape.eq_6 s
  · rcases escaped_cases c with ⟨hc, -⟩ | ⟨-, hc⟩
    · exact absurd hc h
    · rw [hc]
      exact unescape_cons h s

/-- **Entities are read back.** -/
theorem unescape_flatMap (str : CString) : unescape (str.flatMap escaped) = some str := by
  induction str with
  | nil => rfl
  | cons c str ih => rw [List.flatMap_cons, unescape_escaped, ih, Option.map_some]

/-! ## 3. The loop -/

section Loop

variable {front back entity : Bytes} {i : ℕ}

/-- An entity is copied behind what is there, with the terminator of `strcpy` behind it. -/
theorem copyEntity_eq (h : entity.length < back.length) :
    Escaping.copyEntity ⟨i, front.length, front ++ back⟩ entity entity.length =
      some ⟨i, (front ++ entity).length,
        (front ++ entity) ++ 0 :: back.drop (entity.length + 1)⟩ := by
  have hroom : (entity ++ [0]).length ≤ back.length := by
    rw [List.length_append]
    exact h
  rw [Escaping.copyEntity, MemoryLoop.write_append hroom, Option.map_some, List.length_append]
  simp

/-- A character is copied, or the entity for it. -/
theorem copyChar_eq (c : UInt8) (h : 7 ≤ back.length) :
    ∃ back', Escaping.copyChar ⟨i, front.length, front ++ back⟩ c =
        some ⟨i, (front ++ escaped c).length, (front ++ escaped c) ++ back'⟩ ∧
      ((front ++ escaped c) ++ back').length = (front ++ back).length := by
  have hentity : ∀ entity : CString, entity.length ≤ 6 →
      ((front ++ entity) ++ 0 :: back.drop (entity.length + 1)).length =
        (front ++ back).length := by
    intro entity hlength
    simp only [List.length_append, List.length_cons, List.length_drop]
    omega
  have hlt : ∀ entity : CString, entity.length ≤ 6 → entity.length < back.length :=
    fun entity hlength => Nat.lt_of_le_of_lt hlength h
  unfold Escaping.copyChar escaped
  split
  · exact ⟨_, copyEntity_eq (hlt (cstr "&lt;") (by decide)), hentity _ (by decide)⟩
  · exact ⟨_, copyEntity_eq (hlt (cstr "&gt;") (by decide)), hentity _ (by decide)⟩
  · exact ⟨_, copyEntity_eq (hlt (cstr "&amp;") (by decide)), hentity _ (by decide)⟩
  · exact ⟨_, copyEntity_eq (hlt (cstr "&quot;") (by decide)), hentity _ (by decide)⟩
  · exact ⟨_, copyEntity_eq (hlt (cstr "&apos;") (by decide)), hentity _ (by decide)⟩
  · have hroom : [c].length ≤ back.length := Nat.le_trans (by decide : 1 ≤ 7) h
    refine ⟨back.drop 1, ?_, ?_⟩
    · rw [MemoryLoop.write_append hroom, Option.map_some]
      simp
    · simp only [List.length_append, List.length_cons, List.length_nil, List.length_drop]
      omega

end Loop

/-- At the head of the loop, `str` being the input and `size` the size of the output: the characters
up to `i` are escaped in the output, up to `outPos`, and there is room for the terminator. -/
structure Escapes (str : CString) (size : ℕ) (s : Escaping) : Prop where
  i_le : s.i ≤ str.length
  outPos : s.outPos = ((str.take s.i).flatMap escaped).length
  output : ∃ back, s.output = (str.take s.i).flatMap escaped ++ back
  length : s.output.length = size
  room : s.outPos < size

section Turns

variable {str : CString} {behind output : Bytes} {maxLen : UInt64} {s : Escaping}

theorem escapes_start (h : output.length = maxLen.toNat) (hsize : 7 ≤ maxLen.toNat) :
    Escapes str maxLen.toNat ⟨0, 0, output⟩ where
  i_le := Nat.zero_le _
  outPos := rfl
  output := ⟨output, rfl⟩
  length := h
  room := Nat.lt_of_lt_of_le (Nat.zero_lt_succ 6) hsize

/-- The bound of the loop. -/
theorem toNat_bound (hsize : 7 ≤ maxLen.toNat) : (maxLen - 6).toNat = maxLen.toNat - 6 := by
  have hle : (6 : UInt64) ≤ maxLen := UInt64.le_iff_toNat_le.mpr (Nat.le_of_succ_le hsize)
  exact UInt64.toNat_sub_of_le _ _ hle

/-- A character of the input is escaped. -/
theorem Escapes.copyChar (h : Escapes str maxLen.toNat s) (hi : s.i < str.length)
    (hbound : s.outPos < maxLen.toNat - 6) :
    ∃ s', (s.copyChar str[s.i]).map (fun s => { s with i := s.i + 1 }) = some s' ∧
      s'.i = s.i + 1 ∧ Escapes str maxLen.toNat s' := by
  obtain ⟨i, outPos, output⟩ := s
  obtain ⟨-, hpos, ⟨back, hout⟩, hlength, -⟩ := h
  dsimp only at hi hpos hout hlength hbound ⊢
  subst hpos hout
  have hback : 7 ≤ back.length := by
    rw [List.length_append] at hlength
    omega
  obtain ⟨back', hcopy, hlength'⟩ :=
    @copyChar_eq ((str.take i).flatMap escaped) back i str[i] hback
  have htake : (str.take (i + 1)).flatMap escaped =
      (str.take i).flatMap escaped ++ escaped str[i] := by
    rw [List.take_succ_eq_append_getElem hi, List.flatMap_append, List.flatMap_singleton]
  have hescaped := length_escaped_le str[i]
  rw [hcopy, Option.map_some]
  refine ⟨_, rfl, rfl, hi, ?_, ⟨back', ?_⟩, ?_, ?_⟩
  · dsimp only
    rw [htake]
  · dsimp only
    rw [htake]
  · exact hlength'.trans hlength
  · dsimp only
    rw [List.length_append]
    omega

/-- **A turn of the loop**: it is over at the end of the input or if six bytes might not have room,
and else escapes a character. -/
theorem Escapes.turn (h : Escapes str maxLen.toNat s) (hstr : 0 ∉ str)
    (hsize : 7 ≤ maxLen.toNat) :
    (turn (str ++ 0 :: behind) maxLen s = some .over ∧
        (s.i = str.length ∨ maxLen.toNat - 6 ≤ s.outPos)) ∨
      ∃ s', XmlEscape.turn (str ++ 0 :: behind) maxLen s = some (.again s') ∧
        s.i < str.length ∧ s'.i = s.i + 1 ∧ Escapes str maxLen.toNat s' := by
  unfold XmlEscape.turn
  rw [toNat_bound hsize]
  rcases Nat.eq_or_lt_of_le h.i_le with hi | hi
  · have hread : (str ++ 0 :: behind)[s.i]? = some 0 := by
      rw [hi, List.getElem?_append_right (Nat.le_refl _), Nat.sub_self]
      rfl
    rw [hread]
    exact .inl ⟨if_neg fun hand => hand.1 rfl, .inl hi⟩
  · have hread : (str ++ 0 :: behind)[s.i]? = some str[s.i] := by
      rw [List.getElem?_append_left hi, List.getElem?_eq_getElem hi]
    have hne : str[s.i] ≠ 0 := fun h0 => hstr (h0 ▸ List.getElem_mem hi)
    rw [hread]
    dsimp only
    by_cases hbound : s.outPos < maxLen.toNat - 6
    · obtain ⟨s', hcopy, hi', h'⟩ := h.copyChar hi hbound
      obtain ⟨s₁, hs₁, rfl⟩ := Option.map_eq_some_iff.mp hcopy
      refine .inr ⟨_, ?_, hi, hi', h'⟩
      rw [if_pos ⟨hne, hbound⟩, hs₁, Option.map_some]
    · exact .inl ⟨if_neg fun hand => hbound hand.2, .inr (Nat.le_of_not_lt hbound)⟩

/-- **The loop ends** with the escaped characters in the output. -/
theorem exists_escapes (hstr : 0 ∉ str) (houtput : output.length = maxLen.toNat)
    (hsize : 7 ≤ maxLen.toNat) :
    ∃ s, MemoryLoop.run (turn (str ++ 0 :: behind) maxLen) ((str ++ 0 :: behind).length + 1)
        ⟨0, 0, output⟩ = some s ∧ Escapes str maxLen.toNat s ∧
      (s.i = str.length ∨ maxLen.toNat - 6 ≤ s.outPos) := by
  have hfuel : str.length - 0 < (str ++ 0 :: behind).length + 1 := by
    rw [List.length_append]
    omega
  refine MemoryLoop.exists_run (fun s => str.length - s.i) ?_ (escapes_start houtput hsize) hfuel
  intro s h
  rcases h.turn hstr hsize with hover | ⟨s', hagain, hi, hi', h'⟩
  · exact .inl hover
  · exact .inr ⟨s', hagain, by omega, h'⟩

/-- What the buffer holds afterwards: a part of the input, escaped, and the terminator. -/
theorem exists_xmlEscape (hstr : 0 ∉ str) (houtput : output.length = maxLen.toNat)
    (hsize : 7 ≤ maxLen.toNat) :
    ∃ n back, xmlEscape (str ++ 0 :: behind) output maxLen =
        some ((str.take n).flatMap escaped ++ 0 :: back) ∧
      ((str.take n).flatMap escaped ++ 0 :: back).length = output.length ∧
      (n = str.length ∨ maxLen.toNat - 6 ≤ ((str.take n).flatMap escaped).length) := by
  obtain ⟨s, hrun, h, hend⟩ := @exists_escapes str behind output maxLen hstr houtput hsize
  obtain ⟨back, hback⟩ := h.output
  have hlength := h.length
  have hroom := h.room
  rw [hback, List.length_append, ← h.outPos] at hlength
  have hterminator : [(0 : UInt8)].length ≤ back.length := by
    rw [List.length_singleton]
    omega
  refine ⟨s.i, back.drop 1, ?_, ?_, h.outPos ▸ hend⟩
  · rw [xmlEscape, hrun, Option.bind_some, h.outPos, hback, MemoryLoop.write_append hterminator]
    rfl
  · rw [houtput, List.length_append, List.length_cons, List.length_drop, ← h.outPos]
    omega

end Turns

/-! ## 4. The output -/

/-- The text is made of entities and of characters that are not reserved. -/
def Whole (s : Bytes) : Prop :=
  ∃ pieces : List Bytes, s = pieces.flatten ∧
    ∀ piece ∈ pieces, piece ∈ entities ∨ ∃ c, c ∉ reserved ∧ piece = [c]

theorem whole_flatMap (str : CString) : Whole (str.flatMap escaped) := by
  refine ⟨str.map escaped, List.flatMap_def .., ?_⟩
  intro piece hpiece
  obtain ⟨c, -, rfl⟩ := List.mem_map.mp hpiece
  rcases escaped_cases c with ⟨-, h⟩ | ⟨hc, h⟩
  · exact .inl h
  · exact .inr ⟨c, hc, h⟩

/-- If not all of the input is in the output, the escaped text reaches the bound. -/
theorem take_eq_of_length_lt {str : CString} {n bound : ℕ}
    (hend : n = str.length ∨ bound ≤ ((str.take n).flatMap escaped).length)
    (h : (str.flatMap escaped).length < bound) : str.take n = str := by
  rcases hend with rfl | hbound
  · exact List.take_length
  · have hsplit : (str.take n).flatMap escaped ++ (str.drop n).flatMap escaped =
        str.flatMap escaped := by
      rw [← List.flatMap_append, List.take_append_drop]
    rw [← hsplit, List.length_append] at h
    omega

/-- **The output of `xml_escape`**, for a buffer of seven bytes or more: no write is outside of it,
it is terminated, it has no part of an entity, and what it stands for is the beginning of the input,
all of it if the escaped text stays below the bound. -/
theorem xmlEscape_whole {input output : Bytes} {maxLen : UInt64} (hinput : 0 ∈ input)
    (houtput : output.length = maxLen.toNat) (hsize : 7 ≤ maxLen.toNat) :
    ∃ out, xmlEscape input output maxLen = some out ∧ out.length = output.length ∧ 0 ∈ out ∧
      Whole (text out) ∧
      ∃ front, unescape (text out) = some front ∧ front <+: text input ∧
        (((text input).flatMap escaped).length < maxLen.toNat - 6 → front = text input) := by
  obtain ⟨behind, hin⟩ := exists_text_append hinput
  have hstr := zero_notMem_text input
  generalize text input = str at hin hstr ⊢
  subst hin
  obtain ⟨n, back, hescape, hlength, hend⟩ :=
    @exists_xmlEscape str behind output maxLen hstr houtput hsize
  have hzero : 0 ∉ (str.take n).flatMap escaped :=
    zero_notMem_flatMap fun h => hstr (List.mem_of_mem_take h)
  have htext : text ((str.take n).flatMap escaped ++ 0 :: back) =
      (str.take n).flatMap escaped := before_append hzero back
  refine ⟨_, hescape, hlength, ?_, ?_, str.take n, ?_, List.take_prefix n str, ?_⟩
  · exact List.mem_append_right _ List.mem_cons_self
  · rw [htext]
    exact whole_flatMap (str.take n)
  · rw [htext]
    exact unescape_flatMap (str.take n)
  · exact take_eq_of_length_lt hend

theorem xmlEscape_whole_note :
    (0 ∈ cstr "R&D <\"x\">" ++ [0] ∧ (List.replicate 64 (255 : UInt8)).length = UInt64.toNat 64 ∧
        7 ≤ UInt64.toNat 64) ∧
      ∃ out, xmlEscape (cstr "R&D <\"x\">" ++ [0]) (List.replicate 64 255) 64 = some out ∧
        out.length = (List.replicate 64 (255 : UInt8)).length ∧ 0 ∈ out ∧ Whole (text out) ∧
        ∃ front, unescape (text out) = some front ∧
          front <+: text (cstr "R&D <\"x\">" ++ [0]) ∧
          (((text (cstr "R&D <\"x\">" ++ [0])).flatMap escaped).length < UInt64.toNat 64 - 6 →
            front = text (cstr "R&D <\"x\">" ++ [0])) :=
  ⟨⟨by decide, by decide, by decide⟩, xmlEscape_whole (by decide) (by decide) (by decide)⟩

/-- A buffer of eight bytes has room for one entity. -/
example : xmlEscape (cstr "<a>" ++ [0]) (List.replicate 8 255) 8 =
    some (cstr "&lt;" ++ [0, 255, 255, 255]) := by
  decide

end Buckets.XmlEscape
