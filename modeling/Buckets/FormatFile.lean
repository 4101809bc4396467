/-
# `cluster/format.c`: `format.json` and copies of a format

A format names the deployment, the disk and the disks of every erasure set.  In C it is a tree of
blocks: the record, the array of sets, an array of disks per set and a string per disk.
`format_to_json` walks the tree and `format_from_json` builds a NEW one, so a clone is a deep copy
and so is a format that was saved and loaded.  Strings that fit their arrays are not cut on the way,
and the count of disks per set, which the file does not have, is that of its first set.

* `parseSet_spec`, `parseSets_spec` -- the two loops fill arrays of `NULL`s from left to right;
* `formatFromJson_formatToJson` -- the tree that is built has the value of the format, in blocks
  that were unused.
-/
import Buckets.Lib.Heap
import Buckets.Json

namespace Buckets.FormatFile

open Heap

/-! ## 1. The record and its blocks -/

/-- The character arrays of `buckets_format_t`. -/
structure Fields where
  version : CString
  formatType : CString
  deploymentId : CString
  erasureVersion : CString
  thisDisk : CString
  distributionAlgo : CString
deriving DecidableEq

/-- Strings that fit their arrays. -/
structure Fields.Fit (f : Fields) : Prop where
  version : f.version.length < 16
  formatType : f.formatType.length < 16
  deploymentId : f.deploymentId.length < 37
  erasureVersion : f.erasureVersion.length < 16
  thisDisk : f.thisDisk.length < 37
  distributionAlgo : f.distributionAlgo.length < 32

/-- A format as a value; `set_count` is the length of `sets`. -/
structure Format extends Fields where
  sets : List (List CString)
  disksPerSet : ℕ
deriving DecidableEq

/-- `buckets_format_t`. -/
structure FormatRec extends Fields where
  sets : Option ℕ
  setCount : ℕ
  disksPerSet : ℕ

inductive FormatBlock where
  | format (r : FormatRec)
  | pointers (l : List (Option ℕ))
  | text (s : CString)

/-- Arrays of pointers: `char ***` and `char **`. -/
def pointers : Layout FormatBlock (Option ℕ) where
  wrap := .pointers
  unwrap | .pointers l => some l | _ => none
  unwrap_wrap _ := rfl

def loadFormat (h : Heap FormatBlock) (p : ℕ) : Option FormatRec :=
  match h.cell p with
  | some (.format r) => some r
  | _ => none

def loadText (h : Heap FormatBlock) (a : ℕ) : Option CString :=
  match h.cell a with
  | some (.text s) => some s
  | _ => none

def readText : Reader FormatBlock (Option ℕ) CString := fun h t =>
  t.bind fun a => (loadText h a).map fun s => (s, [a])

def readSet (disksPerSet : ℕ) : Reader FormatBlock (Option ℕ) (List CString) :=
  (readArray pointers readText).field (fun set => (set, disksPerSet)) fun _ disks => disks

def FormatRec.value (r : FormatRec) (sets : List (List CString)) : Format :=
  ⟨r.toFields, sets, r.disksPerSet⟩

/-- The format at a pointer, as `format_to_json` walks it, and the blocks of the tree. -/
def readFormat : Reader FormatBlock ℕ Format := fun h p =>
  (loadFormat h p).bind fun r =>
    (readArray pointers (readSet r.disksPerSet) h (r.sets, r.setCount)).map fun out =>
      (r.value out.1, p :: out.2)

variable {h g : Heap FormatBlock} {p a n i d : ℕ} {f : Format} {F K : List ℕ}

theorem loadFormat_some {r : FormatRec} :
    loadFormat h p = some r ↔ h.cell p = some (.format r) := by
  unfold loadFormat
  split <;> simp_all

theorem readText_some {t : Option ℕ} {s : CString} :
    readText h t = some (s, F) ↔ ∃ a, t = some a ∧ h.cell a = some (.text s) ∧ F = [a] := by
  have hload : ∀ a, loadText h a = some s ↔ h.cell a = some (.text s) := by
    intro a
    unfold loadText
    split <;> simp_all
  simp only [readText, Option.bind_eq_some_iff, Option.map_eq_some_iff, Prod.mk.injEq]
  constructor
  · rintro ⟨a, rfl, s', hs, rfl, rfl⟩
    exact ⟨a, rfl, (hload a).mp hs, rfl⟩
  · rintro ⟨a, rfl, hs, rfl⟩
    exact ⟨a, rfl, s, (hload a).mpr hs, rfl, rfl⟩

theorem readText_local : Local readText where
  live := by
    intro h t s F hr a ha
    obtain ⟨b, -, hcell, rfl⟩ := readText_some.mp hr
    rw [List.mem_singleton.mp ha, hcell]
    simp
  congr := by
    intro h h' t s F hr hagree
    obtain ⟨b, rfl, hcell, rfl⟩ := readText_some.mp hr
    exact readText_some.mpr ⟨b, rfl, by rw [hagree b (by simp), hcell], rfl⟩

theorem readSet_local (d : ℕ) : Local (readSet d) := (readArray_local readText_local).field

theorem readFormat_some :
    readFormat h p = some (f, K) ↔
      ∃ r sets F, h.cell p = some (.format r) ∧
        readArray pointers (readSet r.disksPerSet) h (r.sets, r.setCount) = some (sets, F) ∧
        f = r.value sets ∧ K = p :: F := by
  simp only [readFormat, Option.bind_eq_some_iff, loadFormat_some, Option.map_eq_some_iff,
    Prod.mk.injEq, Prod.exists]
  constructor
  · rintro ⟨r, hcell, sets, F, hsets, rfl, rfl⟩
    exact ⟨r, sets, F, hcell, hsets, rfl, rfl⟩
  · rintro ⟨r, sets, F, hcell, hsets, rfl, rfl⟩
    exact ⟨r, hcell, sets, F, hsets, rfl, rfl⟩

theorem readFormat_local : Local readFormat where
  live := by
    intro h p f K hr a ha
    obtain ⟨r, sets, F, hcell, hsets, rfl, rfl⟩ := readFormat_some.mp hr
    rcases List.mem_cons.mp ha with rfl | ha
    · simp [hcell]
    · exact (readArray_local (readSet_local _)).live hsets a ha
  congr := by
    intro h h' p f K hr hagree
    obtain ⟨r, sets, F, hcell, hsets, rfl, rfl⟩ := readFormat_some.mp hr
    refine readFormat_some.mpr ⟨r, sets, F, ?_, ?_, rfl, rfl⟩
    · rw [hagree p List.mem_cons_self, hcell]
    · exact (readArray_local (readSet_local _)).congr hsets fun a ha =>
        hagree a (List.mem_cons_of_mem p ha)

/-- Every set has `disks_per_set` disks. -/
theorem readFormat_lengths (hr : readFormat h p = some (f, K)) :
    ∀ set ∈ f.sets, set.length = f.disksPerSet := by
  obtain ⟨r, sets, F, -, hsets, rfl, -⟩ := readFormat_some.mp hr
  have hlist : ∀ {l : List (Option ℕ)} {sets : List (List CString)} {F : List ℕ},
      readList (readSet r.disksPerSet) h l = some (sets, F) →
        ∀ set ∈ sets, set.length = r.disksPerSet := by
    intro l
    induction l with
    | nil => simp [readList]
    | cons q l ih =>
      intro sets F hl set hset
      obtain ⟨v, E, vs, G, hq, hrest, rfl, rfl⟩ := readList_cons.mp hl
      rcases List.mem_cons.mp hset with rfl | hset
      · obtain ⟨u, hu, rfl⟩ := Reader.field_some.mp hq
        exact readArray_length hu
      · exact ih hrest set hset
  rcases hrs : (r.sets, r.setCount) with ⟨_ | b, m⟩
  · rw [hrs] at hsets
    obtain ⟨-, rfl, -⟩ := readArray_none.mp hsets
    simp [FormatRec.value]
  · rw [hrs] at hsets
    obtain ⟨recs, G, -, -, hrecs, -⟩ := readArray_some.mp hsets
    exact hlist hrecs

/-! ## 2. The functions -/

def setToJson (set : List CString) : Json := .array (set.map .string)

def erasureToJson (f : Format) : Json := .object
  [(cstr "version", .string f.erasureVersion),
   (cstr "this", .string f.thisDisk),
   (cstr "distributionAlgo", .string f.distributionAlgo),
   (cstr "sets", .array (f.sets.map setToJson))]

/-- `format_to_json`. -/
def formatToJson (f : Format) : Json := .object
  [(cstr "version", .string f.version),
   (cstr "format", .string f.formatType),
   (cstr "id", .string f.deploymentId),
   (cstr "xl", erasureToJson f)]

/-- `buckets_json_get_object`. -/
def getObject (j : Json) (name : CString) : Option Json :=
  (j.getObjectItemCaseSensitive name).bind fun item =>
    match item with
    | .object ms => some (.object ms)
    | _ => none

/-- The strings of the record: its `strncpy`s into zeroed arrays, with the defaults. -/
def parseFields (json erasure : Json) (id : CString) : Fields where
  version := charArray 16 ((json.getString (cstr "version") (some (cstr "1"))).getD [])
  formatType := charArray 16 ((json.getString (cstr "format") (some (cstr "erasure"))).getD [])
  deploymentId := charArray 37 id
  erasureVersion := charArray 16 ((erasure.getString (cstr "version") (some (cstr "3"))).getD [])
  thisDisk := charArray 37 ((erasure.getString (cstr "this") (some [])).getD [])
  distributionAlgo := charArray 32
    ((erasure.getString (cstr "distributionAlgo") (some (cstr "SIPMOD+PARITY"))).getD [])

/-- The rest of a parse whose first part may have been refused (`false`). -/
def andThen (x : Option (Bool × Heap FormatBlock))
    (rest : Heap FormatBlock → Option (Bool × Heap FormatBlock)) :
    Option (Bool × Heap FormatBlock) :=
  x.bind fun out => if out.1 then rest out.2 else some (false, out.2)

/-- The loop over the disks of the set whose array is at `set`. -/
def parseDisks (set : ℕ) : Heap FormatBlock → ℕ → List Json → Option (Bool × Heap FormatBlock)
  | h, _, [] => some (true, h)
  | h, diskIdx, disk :: rest =>
    match disk.asString with
    | none => some (false, h)
    | some uuid =>
      let text := h.alloc (.text uuid)
      (pointers.set text.2 set diskIdx (some text.1)).bind fun h =>
        parseDisks set h (diskIdx + 1) rest

/-- One set: its array is in place before its disks are read. -/
def parseSet (sets : ℕ) (h : Heap FormatBlock) (setIdx : ℕ) (disks : List Json) :
    Option (Bool × Heap FormatBlock) :=
  let set := h.alloc (.pointers (List.replicate disks.length none))
  (pointers.set set.2 sets setIdx (some set.1)).bind fun h => parseDisks set.1 h 0 disks

/-- The count of disks: the first set's is kept in the record, the others are compared to it. -/
def checkDisks (h : Heap FormatBlock) (format setIdx disksInSet : ℕ) :
    Option (Bool × Heap FormatBlock) :=
  (loadFormat h format).bind fun r =>
    if setIdx = 0 then
      (h.store format (.format { r with disksPerSet := disksInSet })).map fun h => (true, h)
    else some (disksInSet = r.disksPerSet, h)

/-- The loop over the sets. -/
def parseSets (format sets : ℕ) :
    Heap FormatBlock → ℕ → List Json → Option (Bool × Heap FormatBlock)
  | h, _, [] => some (true, h)
  | h, setIdx, set :: rest =>
    match set.asArray with
    | none => some (false, h)
    | some disks =>
      andThen (checkDisks h format setIdx disks.length) fun h =>
        andThen (parseSet sets h setIdx disks) fun h => parseSets format sets h (setIdx + 1) rest

/-- `buckets_format_free`. -/
def formatFree (h : Heap FormatBlock) (format : ℕ) : Option (Heap FormatBlock) :=
  (loadFormat h format).bind fun r =>
    (freeArray pointers (fun h set => freeArray pointers free h (set, r.disksPerSet)) h
      (r.sets, r.setCount)).bind fun h => h.free (some format)

/-- `format_from_json`: the new format, or `NULL`. -/
def formatFromJson (h : Heap FormatBlock) (json : Json) :
    Option (Option ℕ × Heap FormatBlock) :=
  let format := h.alloc (.format ⟨⟨[], [], [], [], [], []⟩, none, 0, 0⟩)
  let parts := do
    let id ← json.getString (cstr "id") none
    let erasure ← getObject json (cstr "xl")
    let items ← erasure.getArray (cstr "sets")
    if items.length = 0 then none else some (parseFields json erasure id, items)
  match parts with
  -- an error before there is an array of sets
  | none => (format.2.free (some format.1)).map fun h => (none, h)
  | some (fields, items) =>
    let sets := format.2.alloc (.pointers (List.replicate items.length none))
    (sets.2.store format.1 (.format ⟨fields, some sets.1, items.length, 0⟩)).bind fun h =>
      (parseSets format.1 sets.1 h 0 items).bind fun out =>
        if out.1 then some (some format.1, out.2)
        else (formatFree out.2 format.1).map fun h => (none, h)

/-- `buckets_format_clone`. -/
def formatClone (h : Heap FormatBlock) (format : ℕ) : Option (Option ℕ × Heap FormatBlock) :=
  (readFormat h format).bind fun out => formatFromJson h (formatToJson out.1)

/-- The file after `buckets_format_save`, which was `old` before. -/
def formatSave (cjson : CJson) (r : AtomicWrite) (h : Heap FormatBlock) (format : ℕ)
    (old : Option cjson.Text) : Option (Option cjson.Text) :=
  (readFormat h format).map fun out => jsonSave cjson r old (formatToJson out.1)

/-- `buckets_format_load`. -/
def formatLoad (cjson : CJson) (h : Heap FormatBlock) (file : Option cjson.Text) :
    Option (Option ℕ × Heap FormatBlock) :=
  match jsonLoad cjson file with
  | none => some (none, h)
  | some json => formatFromJson h json

/-! ## 3. The loops -/

theorem parseDisks_spec {disks : List CString} : ∀ (rest done : List CString)
    {g : Heap FormatBlock} {recs : List (Option ℕ)} {F : List ℕ}, disks = done ++ rest →
      Copied pointers readText h g a disks.length done.length none disks recs F →
      ∃ g' recs' F', parseDisks a g done.length (rest.map .string) = some (true, g') ∧
        Copied pointers readText h g' a disks.length disks.length none disks recs' F'
  | [], done, g, recs, F, hd, hc => by
    rw [List.append_nil] at hd
    subst hd
    exact ⟨g, recs, F, rfl, hc⟩
  | s :: rest, done, g, recs, F, hd, hc => by
    obtain ⟨-, hcell, hm⟩ := alloc_moves g (FormatBlock.text s)
    have hi : done.length < disks.length := by simp [hd]
    have hv : disks[done.length]? = some s := by simp [hd]
    have hread : readText (g.alloc (.text s)).2 (some (g.alloc (.text s)).1) =
        some (s, [(g.alloc (.text s)).1]) := readText_some.mpr ⟨_, rfl, hcell, rfl⟩
    obtain ⟨g1, hset, hc1⟩ := hc.put readText_local hi hv hread (List.nodup_singleton _) hm
    have hd' : disks = done ++ [s] ++ rest := by simp [hd]
    rw [← List.length_singleton (a := s), ← List.length_append] at hc1
    obtain ⟨g', recs', F', hrest, hc'⟩ := parseDisks_spec rest (done ++ [s]) hd' hc1
    refine ⟨g', recs', F', ?_, hc'⟩
    rw [List.length_append, List.length_singleton] at hrest
    simp only [List.map_cons, parseDisks, Json.asString, hset, Option.bind_some, hrest]

theorem parseSet_spec {sets : List (List CString)} {set : List CString} {recs : List (Option ℕ)}
    (hc : Copied pointers (readSet d) h g a n i none sets recs F) (hi : i < n)
    (hv : sets[i]? = some set) (hd : set.length = d) :
    ∃ g' recs' F', parseSet a g i (set.map .string) = some (true, g') ∧
      Copied pointers (readSet d) h g' a n (i + 1) none sets recs' F' := by
  obtain ⟨hunused, hcell, hm1⟩ :=
    alloc_moves g (FormatBlock.pointers (List.replicate set.length none))
  generalize hs : g.alloc (.pointers (List.replicate set.length none)) = s at hunused hcell hm1
  have hlive : g.cell a ≠ none := Layout.load_live hc.load
  have hne : a ≠ s.1 := fun heq => hlive (heq ▸ hunused)
  -- the array of the set is put into its place, and filled there
  obtain ⟨-, ha1⟩ := hm1.keeps hlive (by simp)
  obtain ⟨g2, hset, hload2, hother2⟩ :=
    Layout.set_spec ((Layout.load_congr ha1).trans hc.load) (i := i) (by
      rw [List.length_append, List.length_replicate, hc.length]
      omega) (some s.1)
  have hs2 : pointers.load g2 s.1 = some (List.replicate set.length none) :=
    Layout.load_wrap (by rw [hother2 s.1 hne.symm, hcell]; rfl)
  obtain ⟨h0, hc0, hm0⟩ := Copied.start readText set hs2
  obtain ⟨g3, recs3, F3, hdisks, hc3⟩ := parseDisks_spec set [] rfl hc0
  have hm3 : Moves g2 g3 [s.1] (s.1 :: F3) := hm0.trans hc3.moves
  obtain ⟨haF, ha3⟩ := hm3.keeps (Layout.load_live hload2) (by simpa using hne)
  have hread : readSet d g3 (some s.1) = some (set, s.1 :: F3) :=
    Reader.field_some.mpr ⟨set, by rw [← hd]; exact hc3.done rfl, rfl⟩
  have hmoves : Moves g g3 [a] (a :: s.1 :: F3) := by
    have h1 : Moves g s.2 [a] [a, s.1] := (hm1.frame [a]).congr (by simp) (by simp [or_comm])
    have h2 : Moves s.2 g2 [a, s.1] [a, s.1] := (moves_of_other hother2).frame [s.1]
    have h3 : Moves g2 g3 [a, s.1] (a :: s.1 :: F3) :=
      (hm3.frame [a]).congr (by simp [or_comm]) (by
        intro c
        simp only [List.mem_append, List.mem_cons]
        tauto)
    exact (h1.trans h2).trans h3
  refine ⟨g3, _, _, ?_, hc.extend (readSet_local d) hi hv ?_ hread
    (List.nodup_cons.mpr ⟨haF, hc3.nodup⟩) hmoves⟩
  · simp only [parseSet, List.length_map, hs, hset, Option.bind_some]
    exact hdisks
  · rw [Layout.load_congr ha3, hload2]

/-- The loop after its first round: the record keeps the count of disks. -/
theorem parseSets_spec {r : FormatRec} (hp : h.cell p = some (.format r))
    {sets : List (List CString)} (hlen : ∀ set ∈ sets, set.length = r.disksPerSet) :
    ∀ (rest done : List (List CString)) {g : Heap FormatBlock} {recs : List (Option ℕ)}
      {F : List ℕ}, sets = done ++ rest → done ≠ [] →
      Copied pointers (readSet r.disksPerSet) h g a sets.length done.length none sets recs F →
      ∃ g' recs' F', parseSets p a g done.length (rest.map setToJson) = some (true, g') ∧
        Copied pointers (readSet r.disksPerSet) h g' a sets.length sets.length none sets recs' F'
  | [], done, g, recs, F, hd, _, hc => by
    rw [List.append_nil] at hd
    subst hd
    exact ⟨g, recs, F, rfl, hc⟩
  | set :: rest, done, g, recs, F, hd, hne, hc => by
    have hset : set.length = r.disksPerSet := hlen set (by simp [hd])
    have hpos : done.length ≠ 0 := by simpa using hne
    obtain ⟨-, hpg⟩ := hc.moves.keeps (a := p) (by simp [hp]) (by simp)
    obtain ⟨g1, recs1, F1, hparse, hc1⟩ := parseSet_spec hc (by simp [hd]) (by simp [hd]) hset
    obtain ⟨g', recs', F', hrest, hc'⟩ :=
      parseSets_spec hp hlen rest (done ++ [set]) (by simp [hd]) (by simp)
        (by rw [List.length_append, List.length_singleton]; exact hc1)
    rw [List.length_append, List.length_singleton] at hrest
    refine ⟨g', recs', F', ?_, hc'⟩
    simp only [List.map_cons, parseSets, setToJson, Json.asArray, checkDisks,
      loadFormat_some.mpr (hpg.trans hp), Option.bind_some, if_neg hpos, List.length_map, hset,
      andThen, decide_true, if_true, hparse]
    exact hrest

/-! ## 4. Round trips -/

section Items

variable (f : Format)

theorem erasureToJson_nodup : ([cstr "version", cstr "this", cstr "distributionAlgo",
    cstr "sets"] : List CString).Nodup := by decide

theorem formatToJson_nodup : ([cstr "version", cstr "format", cstr "id", cstr "xl"] :
    List CString).Nodup := by decide

theorem getArray_erasureToJson :
    (erasureToJson f).getArray (cstr "sets") = some (f.sets.map setToJson) :=
  Json.getArray_eq (Json.getObjectItemCaseSensitive_object erasureToJson_nodup (by simp))

theorem getObject_formatToJson :
    getObject (formatToJson f) (cstr "xl") = some (erasureToJson f) := by
  have h : (formatToJson f).getObjectItemCaseSensitive (cstr "xl") = some (erasureToJson f) :=
    Json.getObjectItemCaseSensitive_object formatToJson_nodup (by simp)
  rw [getObject, h]
  rfl

theorem getString_formatToJson :
    (formatToJson f).getString (cstr "id") none = some f.deploymentId :=
  Json.getString_eq (Json.getObjectItemCaseSensitive_object formatToJson_nodup (by simp))

theorem parseFields_formatToJson (hf : f.Fit) :
    parseFields (formatToJson f) (erasureToJson f) f.deploymentId = f.toFields := by
  have h1 : (formatToJson f).getString (cstr "version") (some (cstr "1")) = some f.version :=
    Json.getString_eq (Json.getObjectItemCaseSensitive_object formatToJson_nodup (by simp))
  have h2 : (formatToJson f).getString (cstr "format") (some (cstr "erasure")) =
      some f.formatType :=
    Json.getString_eq (Json.getObjectItemCaseSensitive_object formatToJson_nodup (by simp))
  have h3 : (erasureToJson f).getString (cstr "version") (some (cstr "3")) =
      some f.erasureVersion :=
    Json.getString_eq (Json.getObjectItemCaseSensitive_object erasureToJson_nodup (by simp))
  have h4 : (erasureToJson f).getString (cstr "this") (some []) = some f.thisDisk :=
    Json.getString_eq (Json.getObjectItemCaseSensitive_object erasureToJson_nodup (by simp))
  have h5 : (erasureToJson f).getString (cstr "distributionAlgo") (some (cstr "SIPMOD+PARITY")) =
      some f.distributionAlgo :=
    Json.getString_eq (Json.getObjectItemCaseSensitive_object erasureToJson_nodup (by simp))
  simp only [parseFields, h1, h2, h3, h4, h5, Option.getD_some, charArray_of_lt hf.version,
    charArray_of_lt hf.formatType, charArray_of_lt hf.deploymentId,
    charArray_of_lt hf.erasureVersion, charArray_of_lt hf.thisDisk,
    charArray_of_lt hf.distributionAlgo]

end Items

/-- The first round of the loop stores the count of disks; the others follow. -/
theorem parseSets_zero {fields : Fields} {sets : List (List CString)} (hne : sets ≠ [])
    (hlen : ∀ set ∈ sets, set.length = d) (hpa : p ≠ a)
    (hp : g.cell p = some (.format ⟨fields, some a, sets.length, 0⟩))
    (ha : pointers.load g a = some (List.replicate sets.length none)) :
    ∃ g' F, parseSets p a g 0 (sets.map setToJson) = some (true, g') ∧
      readFormat g' p = some (⟨fields, sets, d⟩, p :: a :: F) ∧ (p :: a :: F).Nodup ∧
      Moves g g' [p, a] (p :: a :: F) := by
  obtain ⟨set, rest, rfl⟩ := List.exists_cons_of_ne_nil hne
  have hset : set.length = d := hlen set (by simp)
  obtain ⟨g1, hstore, hp1, hother1⟩ := store_spec (h := g) (a := p) (by simp [hp])
    (.format ⟨fields, some a, (set :: rest).length, d⟩)
  have ha1 := (Layout.load_congr (hother1 a hpa.symm)).trans ha
  obtain ⟨h0, hc0, hm0⟩ := Copied.start (readSet d) (set :: rest) ha1
  obtain ⟨-, hp0⟩ := hm0.keeps (a := p) (by simp [hp1]) (by simpa using hpa)
  obtain ⟨g2, recs2, F2, hparse, hc2⟩ := parseSet_spec hc0 (by simp) rfl hset
  obtain ⟨g', recs', F', hrest, hc'⟩ :=
    parseSets_spec (hp0.trans hp1) hlen rest [set] rfl (by simp) hc2
  have hm2 : Moves g1 g' [a] (a :: F') := hm0.trans hc'.moves
  obtain ⟨hpF, hp'⟩ := hm2.keeps (a := p) (by simp [hp1]) (by simpa using hpa)
  refine ⟨g', F', ?_, ?_, List.nodup_cons.mpr ⟨hpF, hc'.nodup⟩, ?_⟩
  · simp only [List.map_cons, parseSets, setToJson, Json.asArray, checkDisks,
      loadFormat_some.mpr hp, Option.bind_some, if_pos, List.length_map, hset, andThen, hstore,
      Option.map_some, hparse]
    exact hrest
  · exact readFormat_some.mpr ⟨_, set :: rest, a :: F', hp'.trans hp1, hc'.done rfl, rfl, rfl⟩
  · have h1 : Moves g g1 [p, a] [p, a] := (moves_of_other hother1).frame [a]
    have h2 : Moves g1 g' [p, a] (p :: a :: F') := (hm2.frame [p]).congr (by simp [or_comm]) (by
      intro c
      simp only [List.mem_append, List.mem_cons]
      tauto)
    exact h1.trans h2

/-- A call returned a format of the value `f`, in blocks that were unused; nothing else changed. -/
def Makes (h : Heap FormatBlock) (f : Format) (out : Option (Option ℕ × Heap FormatBlock)) : Prop :=
  ∃ q h' K, out = some (some q, h') ∧ readFormat h' q = some (f, K) ∧ K.Nodup ∧ Moves h h' [] K

/-- **`format_from_json` of `format_to_json`** builds the format anew. -/
theorem formatFromJson_formatToJson (hf : f.Fit) (hne : f.sets ≠ [])
    (hlen : ∀ set ∈ f.sets, set.length = f.disksPerSet) (h : Heap FormatBlock) :
    Makes h f (formatFromJson h (formatToJson f)) := by
  obtain ⟨hunused, hcell, hm1⟩ :=
    alloc_moves h (FormatBlock.format ⟨⟨[], [], [], [], [], []⟩, none, 0, 0⟩)
  generalize hq : h.alloc (.format ⟨⟨[], [], [], [], [], []⟩, none, 0, 0⟩) = q at hunused hcell hm1
  obtain ⟨hunused2, hcell2, hm2⟩ :=
    alloc_moves q.2 (FormatBlock.pointers (List.replicate f.sets.length none))
  generalize hs : q.2.alloc (.pointers (List.replicate f.sets.length none)) = s
    at hunused2 hcell2 hm2
  have hqs : q.1 ≠ s.1 := by
    intro heq
    rw [← heq, hcell] at hunused2
    cases hunused2
  obtain ⟨-, hq2⟩ := hm2.keeps (a := q.1) (by simp [hcell]) (by simp)
  obtain ⟨g, hstore, hq3, hother3⟩ := store_spec (h := s.2) (a := q.1) (by simp [hq2, hcell])
    (.format ⟨f.toFields, some s.1, f.sets.length, 0⟩)
  obtain ⟨g', F, hparse, hread, hnodup, hm4⟩ := parseSets_zero hne hlen hqs hq3
    (Layout.load_wrap (by rw [hother3 s.1 hqs.symm, hcell2]; rfl))
  refine ⟨q.1, g', _, ?_, hread, hnodup, ?_⟩
  · have hpos : f.sets.length ≠ 0 := by simpa using hne
    simp only [formatFromJson, hq, getString_formatToJson, getObject_formatToJson,
      getArray_erasureToJson, parseFields_formatToJson f hf, List.length_map, if_neg hpos, hs,
      Option.bind_eq_bind, Option.bind_some, hstore, hparse, if_true]
  · have h2 : Moves q.2 s.2 [q.1] [q.1, s.1] :=
      (hm2.frame [q.1]).congr (by simp) (by simp [or_comm])
    exact ((hm1.trans h2).trans ((moves_of_other hother3).frame [s.1])).trans hm4

/-- The new format and one that was there share no block, and the old one is as it was. -/
theorem Makes.apart {out : Option (Option ℕ × Heap FormatBlock)} (hmake : Makes h f out)
    {f' : Format} (hr : readFormat h p = some (f', F)) :
    ∃ q h' K, out = some (some q, h') ∧ readFormat h' q = some (f, K) ∧
      readFormat h' p = some (f', F) ∧ F.Disjoint K := by
  obtain ⟨q, h', K, hout, hread, -, hm⟩ := hmake
  obtain ⟨hr', hdisj⟩ := readFormat_local.keeps hr hm (by simp)
  exact ⟨q, h', K, hout, hread, hr', hdisj⟩

/-- The call returned a format of the value `f` that shares no block with the format at `p`,
which is still there. -/
def CopyOf (p : ℕ) (f : Format) (out : Option (Option ℕ × Heap FormatBlock)) : Prop :=
  ∃ q h' K F, out = some (some q, h') ∧ readFormat h' q = some (f, K) ∧
    readFormat h' p = some (f, F) ∧ F.Disjoint K

/-- **Copies of a format.**  Made through its JSON, cloned, or saved and loaded later, with the
format still there, a format comes back with every field, in blocks of its own. -/
theorem format_copies (cjson : CJson) (hr : readFormat h p = some (f, F)) (hf : f.Fit)
    (hne : f.sets ≠ []) :
    CopyOf p f (formatFromJson h (formatToJson f)) ∧ CopyOf p f (formatClone h p) ∧
      ∀ (r : AtomicWrite) (old : Option cjson.Text), r.isOk = true →
        ∃ file, formatSave cjson r h p old = some file ∧
          ∀ g K, readFormat g p = some (f, K) → CopyOf p f (formatLoad cjson g file) := by
  have hmake := formatFromJson_formatToJson hf hne (readFormat_lengths hr)
  have hcopy : ∀ g K, readFormat g p = some (f, K) →
      CopyOf p f (formatFromJson g (formatToJson f)) := by
    intro g K hg
    obtain ⟨q, h', K', h1, h2, h3, h4⟩ := (hmake g).apart hg
    exact ⟨q, h', K', K, h1, h2, h3, h4⟩
  refine ⟨hcopy h F hr, ?_, ?_⟩
  · rw [formatClone, hr, Option.bind_some]
    exact hcopy h F hr
  · intro r old hok
    refine ⟨some (cjson.print (formatToJson f)), ?_, ?_⟩
    · rw [formatSave, hr, Option.map_some, jsonSave, if_pos (AtomicWrite.installs_of_isOk hok)]
    · intro g K hg
      rw [formatLoad, jsonLoad, Option.bind_some, cjson.parse_print]
      exact hcopy g K hg

/-! A format of two sets with one disk each. -/

def twoSets : Format where
  version := cstr "1"
  formatType := cstr "erasure"
  deploymentId := cstr "d"
  erasureVersion := cstr "3"
  thisDisk := []
  distributionAlgo := cstr "SIPMOD+PARITY"
  sets := [[cstr "a"], [cstr "b"]]
  disksPerSet := 1

theorem twoSets_makes : Makes ⟨fun _ => none, 0, fun _ _ => rfl⟩ twoSets
    (formatFromJson ⟨fun _ => none, 0, fun _ _ => rfl⟩ (formatToJson twoSets)) :=
  formatFromJson_formatToJson ⟨by decide, by decide, by decide, by decide, by decide, by decide⟩
    (by decide) (by decide) _

theorem format_copies_twoSets : ∃ h p F, readFormat h p = some (twoSets, F) ∧
    CopyOf p twoSets (formatClone h p) := by
  obtain ⟨q, h, K, -, hr, -⟩ := twoSets_makes
  refine ⟨h, q, K, hr, (format_copies CJson.reference hr ?_ (by decide)).2.1⟩
  exact ⟨by decide, by decide, by decide, by decide, by decide, by decide⟩

end Buckets.FormatFile
