/-
# `xl.meta` on a set of disks: `multidisk.c`

A write goes to every disk of the set that is online and succeeds when more than half of the disks
took it.  A read needs as many readable copies, but does not COMPARE them ("TODO: validate
consistency"): it returns the copy of the first disk that has one.  Healing takes that same copy as
the healthy one and writes it over every other copy with another size or time.  And the read frees
the record it returns, unless that record is the one of disk 0.

So the first disk alone decides:

* `read_of_diskZero`, `diskZero_of_read`: a read returns the record of a write, with its strings,
  only from disk 0;
* `copyZero_run`: what disk 0 has after more writes;
* `freshAfter_iff`: what a quorum is for holds after a successful write EXACTLY IF disk 0 is online
  and has the write.
-/
import Mathlib.Data.List.Count
import Buckets.Lib.PointLoop
import Buckets.Object

namespace Buckets

/-! ## 1. The code -/

section Model

variable (cjson : CJson)

/-- The `xl.meta` files of one object, by the index of the disk in the set. -/
abbrev XlFiles := ℕ → Option cjson.Text

/-- The disk is online and has a path. -/
def usable (set : List MultiDisk) (i : ℕ) : Bool := ((set[i]?).bind MultiDisk.onlinePath).isSome

/-- `(set->disk_count / 2) + 1`. -/
def requiredQuorum (set : List MultiDisk) : ℕ := set.length / 2 + 1

/-- `buckets_read_xl_meta` from a disk of the set. -/
def readCopy (files : XlFiles cjson) (i : ℕ) : Option XlMeta :=
  (jsonLoad cjson (files i)).map xlMetaFromJson

/-- One round of `buckets_multidisk_write_xl_meta`: the files and the successes. -/
def writeCopy (set : List MultiDisk) (io : ℕ → AtomicWrite) (xl : XlMeta) (s : XlFiles cjson × ℕ)
    (i : ℕ) : XlFiles cjson × ℕ :=
  if usable set i then
    (Function.update s.1 i (jsonSave cjson (io i) (s.1 i) (xlMetaToJson xl)),
      if (io i).isOk then s.2 + 1 else s.2)
  else s

/-- `buckets_multidisk_write_xl_meta`. -/
def multidiskWriteXlMeta (set : List MultiDisk) (io : ℕ → AtomicWrite) (xl : XlMeta)
    (files : XlFiles cjson) : XlFiles cjson × Bool :=
  let s := (List.range set.length).foldl (writeCopy cjson set io xl) (files, 0)
  (s.1, decide (requiredQuorum set ≤ s.2))

/-- The copies that could be read, each with its disk. -/
def readCopies (set : List MultiDisk) (files : XlFiles cjson) : List (ℕ × XlMeta) :=
  (List.range set.length).filterMap fun i =>
    if usable set i then (readCopy cjson files i).map fun xl => (i, xl) else none

/-- A record, and whether what its pointers point to has been freed. -/
structure ReturnedMeta where
  xl : XlMeta
  freed : Bool
deriving DecidableEq

/-- `buckets_multidisk_read_xl_meta`: the loop that frees "the remaining metadata" leaves out disk
0, whichever record was returned. -/
def multidiskReadXlMeta (set : List MultiDisk) (files : XlFiles cjson) : Option ReturnedMeta :=
  let copies := readCopies cjson set files
  if copies.length < requiredQuorum set then none
  else copies.head?.map fun copy => ⟨copy.2, decide (0 < copy.1)⟩

/-- One round of `buckets_multidisk_heal_xl_meta`: the files and the disks healed. -/
def healCopy (set : List MultiDisk) (io : ℕ → AtomicWrite) (reference : XlMeta)
    (s : XlFiles cjson × ℕ) (i : ℕ) : XlFiles cjson × ℕ :=
  if usable set i then
    if (readCopy cjson s.1 i).any fun current =>
        current.stat.size = reference.stat.size ∧
        current.stat.modTime = reference.stat.modTime then s
    else
      (Function.update s.1 i (jsonSave cjson (io i) (s.1 i) (xlMetaToJson reference)),
        if (io i).isOk then s.2 + 1 else s.2)
  else s

/-- `buckets_multidisk_heal_xl_meta`; `none` is -1.  `afterFree` is what a freed record reads as. -/
def multidiskHealXlMeta (afterFree : XlMeta → XlMeta) (set : List MultiDisk) (io : ℕ → AtomicWrite)
    (files : XlFiles cjson) : XlFiles cjson × Option ℕ :=
  match multidiskReadXlMeta cjson set files with
  | none => (files, none)
  | some returned =>
    let reference := if returned.freed then afterFree returned.xl else returned.xl
    let s := (List.range set.length).foldl (healCopy cjson set io reference) (files, 0)
    (s.1, some s.2)

/-- A quorum write, with the outcomes on the disks. -/
structure QuorumWrite where
  xl : XlMeta
  io : ℕ → AtomicWrite

/-- The files after some writes. -/
def writesRun (set : List MultiDisk) (files : XlFiles cjson) (writes : List QuorumWrite) :
    XlFiles cjson :=
  writes.foldl (fun files w => (multidiskWriteXlMeta cjson set w.io w.xl files).1) files

end Model

/-! ## 2. Writes -/

variable {cjson : CJson} {set : List MultiDisk} {io : ℕ → AtomicWrite} {xl : XlMeta}
  {files : XlFiles cjson} {i : ℕ}

theorem writeCopy_updates (set : List MultiDisk) (io : ℕ → AtomicWrite) (xl : XlMeta) :
    PointLoop.Updates (fun s : XlFiles cjson × ℕ => s.1) (writeCopy cjson set io xl) id
      (fun i old => if usable set i then jsonSave cjson (io i) old (xlMetaToJson xl) else old) where
  own s i := by
    rw [writeCopy]
    split
    · exact Function.update_self ..
    · rfl
  other s i c hc := by
    rw [writeCopy]
    split
    · exact Function.update_of_ne hc ..
    · rfl

/-- The files after a write. -/
theorem multidiskWrite_file (hi : i < set.length) :
    (multidiskWriteXlMeta cjson set io xl files).1 i =
      if usable set i then jsonSave cjson (io i) (files i) (xlMetaToJson xl) else files i :=
  (writeCopy_updates set io xl).get_foldl_own Function.injective_id.injOn hi (files, 0)

/-- A record as its text gives it back. -/
def stored (xl : XlMeta) : XlMeta := xlMetaFromJson (xlMetaToJson xl)

theorem jsonSave_cases (r : AtomicWrite) (old : Option cjson.Text) (j : Json) :
    (r.installs = true ∧ jsonSave cjson r old j = some (cjson.print j)) ∨
      (r.installs = false ∧ jsonSave cjson r old j = old) := by
  cases hr : r.installs with
  | true => exact .inl ⟨rfl, if_pos hr⟩
  | false => exact .inr ⟨rfl, by simp [jsonSave, hr]⟩

theorem readCopy_print (hfile : files i = some (cjson.print (xlMetaToJson xl))) :
    readCopy cjson files i = some (stored xl) := by
  rw [readCopy, jsonLoad, hfile, Option.bind_some, cjson.parse_print]
  rfl

/-- What a disk reads as after a write. -/
theorem readCopy_write (hi : i < set.length) (husable : usable set i = true) :
    readCopy cjson (multidiskWriteXlMeta cjson set io xl files).1 i =
      if (io i).installs then some (stored xl) else readCopy cjson files i := by
  have hfile := @multidiskWrite_file cjson set io xl files i hi
  rw [if_pos husable] at hfile
  rcases jsonSave_cases (io i) (files i) (xlMetaToJson xl) with ⟨hr, hsave⟩ | ⟨hr, hsave⟩
  · rw [if_pos hr]
    exact readCopy_print (hfile.trans hsave)
  · rw [hsave] at hfile
    simp [readCopy, hfile, hr]

theorem lt_length_of_usable (h : usable set i = true) : i < set.length := by
  by_contra hge
  simp [usable, List.getElem?_eq_none (Nat.le_of_not_lt hge)] at h

theorem foldl_writeCopy_snd (files : XlFiles cjson) (n : ℕ) :
    ((List.range n).foldl (writeCopy cjson set io xl) (files, 0)).2 =
      (List.range n).countP fun i => usable set i && (io i).isOk := by
  induction n with
  | zero => rfl
  | succ n ih =>
    rw [List.range_succ, List.foldl_append, List.countP_append, ← ih]
    cases husable : usable set n <;> cases hok : (io n).isOk <;> simp [writeCopy, husable, hok]

/-! ## 3. Reads -/

theorem length_readCopies (files : XlFiles cjson) :
    (readCopies cjson set files).length =
      (List.range set.length).countP fun i => usable set i && (readCopy cjson files i).isSome := by
  rw [readCopies, List.length_filterMap_eq_countP]
  refine List.countP_congr fun i _ => ?_
  cases husable : usable set i <;> simp

/-- After a successful write there are copies enough. -/
theorem quorum_of_write (hok : (multidiskWriteXlMeta cjson set io xl files).2 = true) :
    requiredQuorum set ≤
      (readCopies cjson set (multidiskWriteXlMeta cjson set io xl files).1).length := by
  have hcount := of_decide_eq_true hok
  rw [foldl_writeCopy_snd] at hcount
  refine hcount.trans ?_
  rw [length_readCopies]
  refine List.countP_mono_left fun i hi hwritten => ?_
  rw [Bool.and_eq_true] at hwritten ⊢
  obtain ⟨husable, hisOk⟩ := hwritten
  refine ⟨husable, ?_⟩
  rw [readCopy_write (List.mem_range.mp hi) husable, if_pos (AtomicWrite.installs_of_isOk hisOk)]
  rfl

/-- **Disk 0 is the one that is returned**, if it has a copy. -/
theorem read_of_diskZero (husable : usable set 0 = true)
    (hcopy : readCopy cjson files 0 = some xl) :
    multidiskReadXlMeta cjson set files = none ∨
      multidiskReadXlMeta cjson set files = some ⟨xl, false⟩ := by
  have hpos := lt_length_of_usable husable
  have hhead : (readCopies cjson set files).head? = some (0, xl) := by
    obtain ⟨n, hn⟩ := Nat.exists_eq_succ_of_ne_zero (Nat.ne_of_gt hpos)
    rw [readCopies, hn, List.range_succ_eq_map, List.filterMap_cons_some (b := (0, xl))]
    · rfl
    · rw [if_pos husable, hcopy, Option.map_some]
  rw [multidiskReadXlMeta]
  split
  · exact .inl rfl
  · rw [hhead]
    exact .inr rfl

/-- After a successful write the copy of disk 0 is returned, if it has one. -/
theorem read_of_write {xl' : XlMeta} (hok : (multidiskWriteXlMeta cjson set io xl files).2 = true)
    (husable : usable set 0 = true)
    (hcopy : readCopy cjson (multidiskWriteXlMeta cjson set io xl files).1 0 = some xl') :
    multidiskReadXlMeta cjson set (multidiskWriteXlMeta cjson set io xl files).1 =
      some ⟨xl', false⟩ := by
  have hquorum := quorum_of_write hok
  rcases read_of_diskZero husable hcopy with hnone | hsome
  · rw [multidiskReadXlMeta, if_neg (by omega), Option.map_eq_none_iff,
      List.head?_eq_none_iff] at hnone
    rw [hnone, requiredQuorum, List.length_nil] at hquorum
    omega
  · exact hsome

/-- **A record whose strings are there** is the one of disk 0. -/
theorem diskZero_of_read (h : multidiskReadXlMeta cjson set files = some ⟨xl, false⟩) :
    usable set 0 = true ∧ readCopy cjson files 0 = some xl := by
  rw [multidiskReadXlMeta] at h
  split at h
  · cases h
  · obtain ⟨⟨i, xl'⟩, hhead, hreturned⟩ := Option.map_eq_some_iff.mp h
    obtain ⟨rfl, hzero⟩ := ReturnedMeta.mk.inj hreturned
    obtain rfl : i = 0 := by simpa using hzero
    have hmem : (0, xl') ∈ readCopies cjson set files := List.mem_of_mem_head? hhead
    obtain ⟨i, -, hi⟩ := List.mem_filterMap.mp hmem
    split at hi
    · rename_i husable
      obtain ⟨xl, hcopy, hpair⟩ := Option.map_eq_some_iff.mp hi
      obtain ⟨rfl, rfl⟩ := Prod.mk.inj hpair
      exact ⟨husable, hcopy⟩
    · cases hi

/-! ## 4. More writes, and healing -/

/-- **What disk 0 has after more writes**: what it had, or what one of them wrote. -/
theorem copyZero_run (husable : usable set 0 = true) (writes : List QuorumWrite)
    (files : XlFiles cjson) :
    readCopy cjson (writesRun cjson set files writes) 0 = readCopy cjson files 0 ∨
      ∃ w ∈ writes, readCopy cjson (writesRun cjson set files writes) 0 = some (stored w.xl) := by
  induction writes generalizing files with
  | nil => exact .inl rfl
  | cons w writes ih =>
    rw [writesRun, List.foldl_cons]
    rcases ih (multidiskWriteXlMeta cjson set w.io w.xl files).1 with hsame | ⟨w', hw', hcopy⟩
    · rw [writesRun] at hsame
      rw [hsame, readCopy_write (lt_length_of_usable husable) husable]
      split
      · exact .inr ⟨w, List.mem_cons_self, rfl⟩
      · exact .inl rfl
    · exact .inr ⟨w', List.mem_cons_of_mem _ hw', hcopy⟩

theorem healCopy_updates (set : List MultiDisk) (io : ℕ → AtomicWrite) (reference : XlMeta) :
    PointLoop.Updates (fun s : XlFiles cjson × ℕ => s.1) (healCopy cjson set io reference) id
      (fun i old => if usable set i then
        if ((jsonLoad cjson old).map xlMetaFromJson).any fun current =>
          current.stat.size = reference.stat.size ∧ current.stat.modTime = reference.stat.modTime
        then old else jsonSave cjson (io i) old (xlMetaToJson reference) else old) where
  own s i := by
    dsimp only [id]
    rw [healCopy, readCopy]
    split
    · split
      · rfl
      · exact Function.update_self ..
    · rfl
  other s i c hc := by
    rw [healCopy]
    split
    · split
      · rfl
      · exact Function.update_of_ne hc ..
    · rfl

/-- Healing with a reference leaves a file, or writes the reference over a copy that differs
from it. -/
theorem foldl_healCopy_cases (set : List MultiDisk) (io : ℕ → AtomicWrite) (reference : XlMeta)
    (files : XlFiles cjson) (i : ℕ) :
    ((List.range set.length).foldl (healCopy cjson set io reference) (files, 0)).1 i = files i ∨
    ((List.range set.length).foldl (healCopy cjson set io reference) (files, 0)).1 i =
        some (cjson.print (xlMetaToJson reference)) ∧
      readCopy cjson files i ≠ some reference := by
  by_cases hi : i < set.length
  · have hown := (@healCopy_updates cjson set io reference).get_foldl_own
      Function.injective_id.injOn hi (files, 0)
    dsimp only [id] at hown
    rw [hown]
    split
    · split
      · exact .inl rfl
      · rename_i hdiffers
        rcases jsonSave_cases (io i) (files i) (xlMetaToJson reference) with
          ⟨-, hsave⟩ | ⟨-, hsave⟩
        · refine .inr ⟨hsave, fun hcopy => hdiffers ?_⟩
          rw [readCopy] at hcopy
          simp [hcopy]
        · exact .inl hsave
    · exact .inl rfl
  · have hother : ∀ j < set.length, i ≠ id j := by
      rintro j hj rfl
      exact hi hj
    exact .inl ((healCopy_updates set io reference).get_foldl_other hother (files, 0))

/-! ## 5. What the quorum is for -/

/-- What should hold from a successful write `w` to the next one, with failed writes `later` in
between: a read directly after `w` returns its record, and healing leaves a copy of it or replaces
it with the copy of a later write. -/
def FreshAfter (cjson : CJson) (afterFree : XlMeta → XlMeta) (set : List MultiDisk)
    (files : XlFiles cjson) (w : QuorumWrite) : Prop :=
  ∀ later : List QuorumWrite,
    (∀ w' ∈ later, ∀ files, (multidiskWriteXlMeta cjson set w'.io w'.xl files).2 = false) →
    ∀ files', files' = writesRun cjson set (multidiskWriteXlMeta cjson set w.io w.xl files).1
      later → (later = [] → multidiskReadXlMeta cjson set files' = some ⟨w.xl, false⟩) ∧
      ∀ io i, readCopy cjson files' i = some w.xl →
        readCopy cjson (multidiskHealXlMeta cjson afterFree set io files').1 i = some w.xl ∨
        ∃ w' ∈ later, (multidiskHealXlMeta cjson afterFree set io files').1 i =
          some (cjson.print (xlMetaToJson (stored w'.xl)))

/-- **A quorum write and its copies.**  After a successful write, on any files that earlier writes
have left, reads and healing do what they are for exactly if disk 0 is online and took the write
(and its text gives the record back), or failed and had the record already. -/
theorem freshAfter_iff (cjson : CJson) (afterFree : XlMeta → XlMeta) {set : List MultiDisk}
    {files : XlFiles cjson} {w : QuorumWrite}
    (hok : (multidiskWriteXlMeta cjson set w.io w.xl files).2 = true) :
    FreshAfter cjson afterFree set files w ↔ usable set 0 = true ∧
      ((w.io 0).installs = true → stored w.xl = w.xl) ∧
      ((w.io 0).installs = false → readCopy cjson files 0 = some w.xl) := by
  have hzero : usable set 0 = true →
      (readCopy cjson (multidiskWriteXlMeta cjson set w.io w.xl files).1 0 = some w.xl ↔
        ((w.io 0).installs = true → stored w.xl = w.xl) ∧
        ((w.io 0).installs = false → readCopy cjson files 0 = some w.xl)) := by
    intro husable
    rw [readCopy_write (lt_length_of_usable husable) husable]
    cases (w.io 0).installs <;> simp
  constructor
  · intro hfresh
    have hread := (hfresh [] (by simp) _ rfl).1 rfl
    obtain ⟨husable, hcopy⟩ := diskZero_of_read hread
    exact ⟨husable, (hzero husable).mp hcopy⟩
  · rintro ⟨husable, hcond⟩ later - files' hfiles'
    have hcopy := (hzero husable).mpr hcond
    constructor
    · rintro rfl
      obtain rfl : files' = (multidiskWriteXlMeta cjson set w.io w.xl files).1 := hfiles'
      exact read_of_write hok husable hcopy
    · intro io i hi
      have hlater := copyZero_run husable later (multidiskWriteXlMeta cjson set w.io w.xl files).1
      rw [← hfiles', hcopy] at hlater
      -- the reference is the copy of disk 0
      have hheal : ∀ reference, readCopy cjson files' 0 = some reference →
          (multidiskHealXlMeta cjson afterFree set io files').1 i = files' i ∨
          (multidiskHealXlMeta cjson afterFree set io files').1 i =
              some (cjson.print (xlMetaToJson reference)) ∧ w.xl ≠ reference := by
        intro reference hreference
        rw [multidiskHealXlMeta]
        rcases read_of_diskZero husable hreference with hnone | hsome
        · rw [hnone]
          exact .inl rfl
        · rw [hsome]
          rcases foldl_healCopy_cases set io reference files' i with hsame | ⟨hnew, hne⟩
          · exact .inl hsame
          · refine .inr ⟨hnew, fun heq => hne ?_⟩
            rw [hi, heq]
      have hsame : (multidiskHealXlMeta cjson afterFree set io files').1 i = files' i →
          readCopy cjson (multidiskHealXlMeta cjson afterFree set io files').1 i = some w.xl := by
        intro hfile
        rw [readCopy, hfile]
        exact hi
      rcases hlater with hreference | ⟨w', hw', hreference⟩
      · rcases hheal w.xl hreference with hfile | ⟨-, hne⟩
        · exact .inl (hsame hfile)
        · exact absurd rfl hne
      · rcases hheal (stored w'.xl) hreference with hfile | ⟨hnew, -⟩
        · exact .inl (hsame hfile)
        · exact .inr ⟨w', hw', hnew⟩

/-- Three disks that are online. -/
def quorumDisks : List MultiDisk :=
  [⟨some (cstr "/d0"), true⟩, ⟨some (cstr "/d1"), true⟩, ⟨some (cstr "/d2"), true⟩]

def oldMeta : XlMeta := inlineMeta ⟨cstr "photos", cstr "cat", [7], none,
    cstr "2026-01-01T00:00:00Z", 0⟩

def newMeta : XlMeta :=
  inlineMeta ⟨cstr "photos", cstr "cat", [8, 9], none, cstr "2026-01-02T00:00:00Z", 0⟩

/-- The files after a write of `oldMeta` to every disk. -/
def oldFiles : XlFiles CJson.reference :=
  (multidiskWriteXlMeta CJson.reference quorumDisks (fun _ => .ok) oldMeta fun _ => none).1

theorem stored_oldMeta : stored oldMeta = oldMeta :=
  xlMetaFromJson_xlMetaToJson (inlineMeta_storable (by decide))

theorem stored_newMeta : stored newMeta = newMeta :=
  xlMetaFromJson_xlMetaToJson (inlineMeta_storable (by decide))

/-- A write that fails on disk 1. -/
theorem freshAfter_diskZero_written :
    (multidiskWriteXlMeta CJson.reference quorumDisks
      (fun i => if i = 1 then .failed false else .ok) newMeta oldFiles).2 = true ∧
    FreshAfter CJson.reference id quorumDisks oldFiles
      ⟨newMeta, fun i => if i = 1 then .failed false else .ok⟩ := by
  have hok : (multidiskWriteXlMeta CJson.reference quorumDisks
      (fun i => if i = 1 then .failed false else .ok) newMeta oldFiles).2 = true := by decide
  refine ⟨hok, (freshAfter_iff CJson.reference id hok).mpr ⟨by decide, fun _ => stored_newMeta, ?_⟩⟩
  intro hnot
  cases hnot

/-- A write that fails on disk 0 and is successful: the copy that is read is the old one, and
healing writes the old one over the new one. -/
theorem freshAfter_diskZero_missed :
    (multidiskWriteXlMeta CJson.reference quorumDisks
      (fun i => if i = 0 then .failed false else .ok) newMeta oldFiles).2 = true ∧
    multidiskReadXlMeta CJson.reference quorumDisks
      (multidiskWriteXlMeta CJson.reference quorumDisks
        (fun i => if i = 0 then .failed false else .ok) newMeta oldFiles).1 =
      some ⟨oldMeta, false⟩ ∧
    (multidiskHealXlMeta CJson.reference id quorumDisks (fun _ => .ok)
      (multidiskWriteXlMeta CJson.reference quorumDisks
        (fun i => if i = 0 then .failed false else .ok) newMeta oldFiles).1).1 1 =
      some (CJson.reference.print (xlMetaToJson oldMeta)) ∧
    ¬ FreshAfter CJson.reference id quorumDisks oldFiles
      ⟨newMeta, fun i => if i = 0 then .failed false else .ok⟩ := by
  have hok : (multidiskWriteXlMeta CJson.reference quorumDisks
      (fun i => if i = 0 then .failed false else .ok) newMeta oldFiles).2 = true := by decide
  have hold : readCopy CJson.reference oldFiles 0 = some oldMeta := by
    rw [oldFiles, readCopy_write (by decide) (by decide), stored_oldMeta]
    rfl
  have hzero : readCopy CJson.reference (multidiskWriteXlMeta CJson.reference quorumDisks
      (fun i => if i = 0 then .failed false else .ok) newMeta oldFiles).1 0 = some oldMeta := by
    rw [readCopy_write (by decide) (by decide)]
    exact hold
  have hone : readCopy CJson.reference (multidiskWriteXlMeta CJson.reference quorumDisks
      (fun i => if i = 0 then .failed false else .ok) newMeta oldFiles).1 1 = some newMeta := by
    rw [readCopy_write (by decide) (by decide), stored_newMeta]
    rfl
  have hread := read_of_write hok (by decide) hzero
  refine ⟨hok, hread, ?_, fun hfresh => ?_⟩
  · have hown :=
      (@healCopy_updates CJson.reference quorumDisks (fun _ => .ok) oldMeta).get_foldl_own
      Function.injective_id.injOn (show 1 < quorumDisks.length by decide)
      ((multidiskWriteXlMeta CJson.reference quorumDisks
        (fun i => if i = 0 then .failed false else .ok) newMeta oldFiles).1, 0)
    rw [multidiskHealXlMeta, hread]
    refine hown.trans ?_
    rw [readCopy] at hone
    dsimp only [id]
    have hdiffers : ¬ (some newMeta).any (fun current => decide
        (current.stat.size = oldMeta.stat.size ∧ current.stat.modTime = oldMeta.stat.modTime)) =
          true := by decide
    rw [if_pos (by decide)]
    refine if_neg ?_
    rw [hone]
    exact hdiffers
  · have hnew := (hfresh [] (by simp) _ rfl).1 rfl
    have hsame := congrArg ReturnedMeta.xl (Option.some.inj (hread.symm.trans hnew))
    exact absurd (congrArg (fun xl => xl.stat.size) hsame) (by decide)

end Buckets
