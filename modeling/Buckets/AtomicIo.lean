/-
# `buckets_atomic_write` of `cluster/atomic_io.c`

The data is written to a temporary file beside the target, `<path>.tmp.<pid>`, and synced; then the
file is renamed to the target and the directory is synced.  On an error the temporary file is
unlinked.

The function is a program of system calls.  What makes it safe is the ORDER of its calls, which is a
protocol (`tempFile`): the target's name is not touched before the temporary file is complete and
synced.

* `follows_atomicWrite`: the function keeps to the protocol, for every answer of every call;
* `Mode.Holds`: what the files are in each mode, and `holds_perform`: every permitted call keeps it;
* `atomicWrite_old_or_new`: so at every point of a call, and after a crash at any point, the target
  is as before or has all of the new data;
* `atomicWrite_new_directory_lost`: the names of the directories that the call makes are not synced.
-/
import Buckets.Lib.FileSystem
import Buckets.Lib.Prog
import Buckets.Lib.Strtoull
import Buckets.Json

namespace Buckets

open FileSystem

/-! ## 1. The function -/

/-- The components of a path, the last one first.  The root and the working directory are `[]`. -/
abbrev Path := List CString

/-- What the functions of `atomic_io.c` return. -/
inductive IoRet where
  | ok
  | invalidArg
  | io
  | exists
deriving DecidableEq

/-- A program of system calls. -/
abbrev Sys (α : Type) := Prog (Call Path) Answer α

/-- The end of `buckets_ensure_directory`. -/
def makeDirectory (path : Path) : Sys IoRet := do
  match ← .ask (.mkdir path) with
  | .done | .exists => return .ok
  | _ => return .io

/-- `buckets_ensure_directory`. -/
def ensureDirectory : Path → Sys IoRet
  | [] => do
    match ← .ask (.stat []) with
    | .kind true => return .ok
    | .kind false => return .exists
    | _ => makeDirectory []
  | name :: parent => do
    match ← .ask (.stat (name :: parent)) with
    | .kind true => return .ok
    | .kind false => return .exists
    | _ =>
      if parent = [] then makeDirectory (name :: parent)
      else
        let ret ← ensureDirectory parent
        if ret ≠ .ok then return ret
        makeDirectory (name :: parent)

/-- `buckets_sync_directory`. -/
def syncDirectory (path : Path) : Sys IoRet := do
  match ← .ask (.openDir path) with
  | .done =>
    match ← .ask (.fsyncDir path) with
    | .done => do
      let _ ← .ask (.closeDir path)
      return .ok
    | _ => do
      let _ ← .ask (.closeDir path)
      return .io
  | _ => return .io

/-- How standard I/O gets bytes to a file: it writes on until all are written or a write fails, and
returns those that are left. -/
def writeAll (fd : ℕ) : ℕ → Bytes → Sys Bytes
  | _, [] => return []
  | 0, bytes => return bytes
  | fuel + 1, bytes => do
    match ← .ask (.write fd bytes) with
    | .count n => writeAll fd fuel (bytes.drop n)
    | _ => return bytes

/-- `fclose` with these bytes still in the buffer, and `unlink`. -/
def discard (fd : ℕ) (buffered : Bytes) (temp : Path) : Sys IoRet := do
  let _ ← writeAll fd buffered.length buffered
  let _ ← .ask (.close fd)
  let _ ← .ask (.unlink temp)
  return .io

/-- The temporary file: `<path>.tmp.<pid>`. -/
def tempName (name : CString) (pid : ℕ) : CString := name ++ cstr ".tmp." ++ Strtoull.printDec pid

/-- The end of `buckets_atomic_write`: the file is complete and synced. -/
def installTemp (temp path dir : Path) : Sys IoRet := do
  match ← .ask (.rename temp path) with
  | .done => syncDirectory dir
  | _ => do
    let _ ← .ask (.unlink temp)
    return .io

/-- `buckets_atomic_write` of a file in a directory, by the process `pid`.  Of the data `fwrite`
leaves the last `kept` bytes, however many, in the buffer for `fflush`. -/
def atomicWriteFile (pid kept : ℕ) (dir : Path) (name : CString) (data : Bytes) : Sys IoRet := do
  let temp := tempName name pid :: dir
  let ret ← ensureDirectory dir
  if ret ≠ .ok then return ret
  match ← .ask (.openTrunc temp) with
  | .fd fd =>
    let direct := data.take (data.length - kept)
    let buffered := data.drop (data.length - kept)
    let left ← writeAll fd direct.length direct
    if left ≠ [] then discard fd buffered temp
    else
      let left ← writeAll fd buffered.length buffered
      if left ≠ [] then discard fd left temp
      else
        match ← .ask (.fsync fd) with
        | .done => do
          let _ ← .ask (.close fd)
          installTemp temp (name :: dir) dir
        | _ => discard fd [] temp
  | _ => return .io

/-- `buckets_atomic_write`; `none` is `NULL`. -/
def atomicWrite (pid kept : ℕ) (path : Option (Path × CString)) (data : Option Bytes) : Sys IoRet :=
  match path, data with
  | some (dir, name), some data => atomicWriteFile pid kept dir name data
  | _, _ => return .invalidArg

/-! ## 2. The protocol -/

/-- How far a writer of a temporary file is. -/
inductive Mode where
  | idle
  /-- The file is open, with the first `n` bytes. -/
  | writing (fd n : ℕ)
  /-- A call failed, and the file is still open. -/
  | spoiled (fd : ℕ)
  | synced (fd : ℕ)
  | closed
  | abandoned
  | unlinked
  | renamed
  | durable
deriving DecidableEq

/-- The writer of `data` to `path` through `temp`. -/
def tempFile (temp path : Path) (data : Bytes) : Protocol (Call Path) Answer Mode where
  permits
    | .idle, .stat _ => True
    | .idle, .mkdir p => p ≠ path ∧ p ≠ temp
    | .idle, .openTrunc p => p = temp
    | .writing fd n, .write fd' bytes => fd' = fd ∧ bytes ≠ [] ∧ bytes <+: data.drop n
    | .writing fd n, .fsync fd' => fd' = fd ∧ n = data.length
    | .spoiled fd, .write fd' _ => fd' = fd
    | .spoiled fd, .close fd' => fd' = fd
    | .synced fd, .close fd' => fd' = fd
    | .closed, .rename p q => p = temp ∧ q = path
    | .abandoned, .unlink p => p = temp
    | .renamed, .openDir _ => True
    | .renamed, .fsyncDir p => p = path.tail
    | .renamed, .closeDir _ => True
    | .durable, .closeDir _ => True
    | _, _ => False
  answers
    | .write _ bytes, .count n => 0 < n ∧ n ≤ bytes.length
    | _, _ => True
  next
    | .idle, .openTrunc _, .fd fd => .writing fd 0
    | .writing fd n, .write _ _, .count k => .writing fd (n + k)
    | .writing fd _, .write _ _, _ => .spoiled fd
    | .writing fd _, .fsync _, .done => .synced fd
    | .writing fd _, .fsync _, _ => .spoiled fd
    | .spoiled _, .close _, _ => .abandoned
    | .synced _, .close _, _ => .closed
    | .closed, .rename _ _, .done => .renamed
    | .closed, .rename _ _, _ => .abandoned
    | .abandoned, .unlink _, _ => .unlinked
    | .renamed, .fsyncDir _, .done => .durable
    | mode, _, _ => mode

section Follows

variable {temp path : Path} {data bytes : Bytes} {fd n fuel : ℕ}

/-- A writer that reports success is at the end. -/
def Mode.Reports (mode : Mode) (ret : IoRet) : Prop := ret = .ok → mode = .durable

theorem follows_makeDirectory {dir : Path} (hpath : dir ≠ path) (htemp : dir ≠ temp) :
    (tempFile temp path data).Follows (fun mode _ => mode = .idle) .idle (makeDirectory dir) := by
  rw [makeDirectory, Protocol.follows_ask]
  refine ⟨⟨hpath, htemp⟩, fun answer _ => ?_⟩
  cases answer <;> exact rfl

/-- The directories are shorter paths than the files. -/
theorem follows_ensureDirectory {dir : Path} (hpath : dir.length < path.length)
    (htemp : dir.length < temp.length) :
    (tempFile temp path data).Follows (fun mode _ => mode = .idle) .idle (ensureDirectory dir) := by
  have hne : ∀ {d e : Path}, d.length < e.length → d ≠ e := fun hlt heq =>
    Nat.lt_irrefl _ (heq ▸ hlt)
  induction dir with
  | nil =>
    rw [ensureDirectory, Protocol.follows_ask]
    refine ⟨trivial, fun answer _ => ?_⟩
    have hmake := @follows_makeDirectory temp path data _ (hne hpath) (hne htemp)
    cases answer with
    | kind isDir => cases isDir <;> exact rfl
    | failed | done | «exists» | fd | count => exact hmake
  | cons name parent ih =>
    rw [ensureDirectory, Protocol.follows_ask]
    refine ⟨trivial, fun answer _ => ?_⟩
    have hmake := @follows_makeDirectory temp path data _ (hne hpath) (hne htemp)
    have hrest : (tempFile temp path data).Follows (fun mode _ => mode = .idle) .idle
        (if parent = [] then makeDirectory (name :: parent)
        else do
          let ret ← ensureDirectory parent
          if ret ≠ .ok then return ret
          makeDirectory (name :: parent)) := by
      split
      · exact hmake
      · rw [Protocol.follows_bind]
        refine (ih (Nat.lt_of_succ_lt hpath) (Nat.lt_of_succ_lt htemp)).mono ?_
        rintro mode ret rfl
        split
        · exact rfl
        · exact hmake
    cases answer with
    | kind isDir => cases isDir <;> exact rfl
    | failed | done | «exists» | fd | count => exact hrest

theorem follows_writeAll (hfuel : bytes.length ≤ fuel) (hbytes : bytes <+: data.drop n) :
    (tempFile temp path data).Follows
      (fun mode left => left = [] ∧ mode = .writing fd (n + bytes.length) ∨
        left ≠ [] ∧ mode = .spoiled fd) (.writing fd n) (writeAll fd fuel bytes) := by
  induction fuel generalizing bytes n with
  | zero =>
    obtain rfl := List.length_eq_zero_iff.mp (Nat.le_zero.mp hfuel)
    exact Or.inl ⟨rfl, rfl⟩
  | succ fuel ih =>
    cases bytes with
    | nil => exact Or.inl ⟨rfl, rfl⟩
    | cons b rest =>
      rw [writeAll, Protocol.follows_ask]
      · refine ⟨⟨rfl, List.cons_ne_nil b rest, hbytes⟩, fun answer hanswer => ?_⟩
        cases answer with
        | count k =>
          obtain ⟨hpos, hle⟩ := hanswer
          have hlength : ((b :: rest).drop k).length = (b :: rest).length - k := List.length_drop
          have hdrop : (b :: rest).drop k <+: data.drop (n + k) := by
            rw [← List.drop_drop]
            exact hbytes.drop k
          have hnext := @ih ((b :: rest).drop k) (n + k) (by omega) hdrop
          rw [hlength, Nat.add_assoc, Nat.add_sub_cancel' hle] at hnext
          exact hnext
        | failed | done | «exists» | kind | fd =>
          exact Or.inr ⟨List.cons_ne_nil b rest, rfl⟩
      · exact fun h => List.cons_ne_nil b rest h

theorem follows_writeAll_spoiled :
    (tempFile temp path data).Follows (fun mode _ => mode = .spoiled fd) (.spoiled fd)
      (writeAll fd fuel bytes) := by
  induction fuel generalizing bytes with
  | zero => cases bytes <;> exact rfl
  | succ fuel ih =>
    cases bytes with
    | nil => exact rfl
    | cons b rest =>
      rw [writeAll, Protocol.follows_ask]
      · refine ⟨rfl, fun answer _ => ?_⟩
        cases answer with
        | count k => exact ih
        | failed | done | «exists» | kind | fd => exact rfl
      · exact fun h => List.cons_ne_nil b rest h

theorem follows_discard :
    (tempFile temp path data).Follows Mode.Reports (.spoiled fd) (discard fd bytes temp) := by
  rw [discard, Protocol.follows_bind]
  refine follows_writeAll_spoiled.mono ?_
  rintro mode left rfl
  rw [Protocol.follows_ask]
  refine ⟨rfl, fun _ _ => ?_⟩
  rw [Protocol.follows_ask]
  exact ⟨rfl, fun _ _ => nofun⟩

theorem follows_syncDirectory {dir : Path} (hdir : dir = path.tail) :
    (tempFile temp path data).Follows Mode.Reports .renamed (syncDirectory dir) := by
  rw [syncDirectory, Protocol.follows_ask]
  refine ⟨trivial, fun answer _ => ?_⟩
  cases answer with
  | done =>
    change Protocol.Follows _ _ _ (Prog.ask _ >>= _)
    rw [Protocol.follows_ask]
    refine ⟨hdir, fun answer _ => ?_⟩
    cases answer with
    | done => exact ⟨trivial, fun _ _ _ => rfl⟩
    | failed | «exists» | kind | fd | count => exact ⟨trivial, fun _ _ => nofun⟩
  | failed | «exists» | kind | fd | count => exact nofun

theorem follows_installTemp {dir : Path} (hdir : dir = path.tail) :
    (tempFile temp path data).Follows Mode.Reports .closed (installTemp temp path dir) := by
  rw [installTemp, Protocol.follows_ask]
  refine ⟨⟨rfl, rfl⟩, fun answer _ => ?_⟩
  cases answer with
  | done => exact follows_syncDirectory hdir
  | failed | «exists» | kind | fd | count => exact ⟨rfl, fun _ _ => nofun⟩

/-- From the complete file on. -/
theorem follows_fsync {dir : Path} (hdir : dir = path.tail) (hn : n = data.length) :
    (tempFile temp path data).Follows Mode.Reports (.writing fd n) (do
      match ← .ask (.fsync fd) with
      | .done => do
        let _ ← .ask (.close fd)
        installTemp temp path dir
      | _ => discard fd [] temp) := by
  rw [Protocol.follows_ask]
  refine ⟨⟨rfl, hn⟩, fun answer _ => ?_⟩
  cases answer with
  | done => exact ⟨rfl, fun _ _ => follows_installTemp hdir⟩
  | failed | «exists» | kind | fd | count => exact follows_discard

/-- **The function keeps to the protocol.** -/
theorem follows_atomicWriteFile (pid kept : ℕ) (dir : Path) (name : CString) (data : Bytes) :
    (tempFile (tempName name pid :: dir) (name :: dir) data).Follows Mode.Reports .idle
      (atomicWriteFile pid kept dir name data) := by
  have hlt : ∀ c : CString, dir.length < (c :: dir).length := fun _ => Nat.lt_succ_self _
  rw [atomicWriteFile, Protocol.follows_bind]
  refine (follows_ensureDirectory (hlt name) (hlt (tempName name pid))).mono ?_
  rintro mode ret rfl
  split
  · rename_i hret
    exact fun hok => absurd hok hret
  rw [Protocol.follows_ask]
  refine ⟨rfl, fun answer _ => ?_⟩
  cases answer with
  | fd fd =>
    have hlength : (data.take (data.length - kept)).length = data.length - kept :=
      List.length_take_of_le (Nat.sub_le ..)
    dsimp only
    rw [Protocol.follows_bind]
    refine (follows_writeAll (Nat.le_refl _) (List.take_prefix _ data)).mono ?_
    rintro mode left (⟨rfl, rfl⟩ | ⟨hleft, rfl⟩)
    · have hbuffered : data.drop (data.length - kept) <+:
          data.drop (0 + (data.take (data.length - kept)).length) := by
        rw [hlength, Nat.zero_add]
      rw [if_neg (not_not.mpr rfl), Protocol.follows_bind]
      refine (follows_writeAll (Nat.le_refl _) hbuffered).mono ?_
      rintro mode left (⟨rfl, rfl⟩ | ⟨hleft, rfl⟩)
      · rw [if_neg (not_not.mpr rfl)]
        refine follows_fsync rfl ?_
        rw [hlength, List.length_drop, Nat.zero_add]
        exact Nat.add_sub_of_le (Nat.sub_le ..)
      · rw [if_pos hleft]
        exact follows_discard
    · rw [if_pos hleft]
      exact follows_discard
  | failed | done | «exists» | kind | count => exact nofun

theorem tempName_ne (name : CString) (pid : ℕ) : tempName name pid ≠ name := by
  intro h
  have hlength := congrArg List.length h
  rw [tempName, List.length_append, List.length_append] at hlength
  have htmp : (cstr ".tmp.").length = 5 := by decide
  omega

end Follows

/-! ## 3. Every point of a call -/

/-- The file that the target was before the call is on the disk as it was. -/
def FileKept (before fs : Fs CString) (path : Path) : Prop :=
  ∀ i, before.names path = some (.file i) → fs.synced i = true ∧ fs.data i = before.data i

/-- The target is as it was before the call, also on the disk. -/
structure Kept (before fs : Fs CString) (path : Path) : Prop where
  fixed : fs.Fixed path (before.names path)
  file : FileKept before fs path

/-- A file that is not the target. -/
def Spare (before : Fs CString) (path : Path) (i : ℕ) : Prop := before.names path ≠ some (.file i)

section Kept

variable {before fs fs' : Fs CString} {path : Path} {op : NameOp CString} {i fd : ℕ} {bytes : Bytes}

theorem FileKept.content_eq (h : FileKept before fs path)
    (hnames : fs'.names path = before.names path)
    (hdata : ∀ i, fs.synced i = true → fs'.data i = fs.data i) :
    fs'.content path = before.content path := by
  rw [Fs.content, Fs.content, hnames]
  cases hnode : before.names path with
  | none => rfl
  | some node =>
    cases node with
    | dir => rfl
    | file i =>
      obtain ⟨hsynced, heq⟩ := h i hnode
      exact congrArg some ((hdata i hsynced).trans heq)

theorem Kept.content_eq (h : Kept before fs path) : fs.content path = before.content path :=
  h.file.content_eq h.fixed.names_eq fun _ _ => rfl

theorem Kept.changed (h : Kept before fs path) (hchanged : Fs.Changed fs fs' op)
    (hop : ¬ op.Touches path) : Kept before fs' path := by
  refine ⟨h.fixed.change hchanged hop, ?_⟩
  rw [FileKept, hchanged.synced, hchanged.data]
  exact h.file

theorem Kept.setFd (h : Kept before fs path) (entry : Option (ℕ × ℕ)) :
    Kept before (fs.setFd fd entry) path :=
  ⟨h.fixed, h.file⟩

theorem Kept.setData (h : Kept before fs path) (hi : Spare before path i) :
    Kept before (fs.setData i bytes) path := by
  refine ⟨h.fixed, fun j hj => ?_⟩
  have hji : j ≠ i := fun hji => hi (hji ▸ hj)
  obtain ⟨hsynced, hdata⟩ := h.file j hj
  exact ⟨(Function.update_of_ne hji ..).trans hsynced, (Function.update_of_ne hji ..).trans hdata⟩

theorem Kept.setSynced (h : Kept before fs path) : Kept before (fs.setSynced i) path := by
  refine ⟨h.fixed, fun j hj => ⟨?_, (h.file j hj).2⟩⟩
  rcases eq_or_ne j i with rfl | hji
  · exact Function.update_self ..
  · exact (Function.update_of_ne hji ..).trans (h.file j hj).1

/-- A file that did not exist is not the target. -/
theorem Kept.spare_next (h : Kept before fs path) : Spare before path fs.next := by
  intro heq
  exact Nat.lt_irrefl _ (fs.names_lt (h.fixed.names_eq.trans heq))

end Kept

/-- The temporary name stands for a file of its own with these bytes. -/
structure HasTemp (before fs : Fs CString) (temp path : Path) (i : ℕ) (bytes : Bytes) : Prop where
  named : fs.names temp = some (.file i)
  spare : Spare before path i
  data : fs.data i = bytes

/-- What the files are in each mode. -/
def Mode.Holds (before : Fs CString) (temp path : Path) (data : Bytes) (fs : Fs CString) :
    Mode → Prop
  | .idle => Kept before fs path ∧ ∀ i, fs.names temp = some (.file i) → Spare before path i
  | .writing fd n => Kept before fs path ∧ n ≤ data.length ∧
      ∃ i, fs.fds fd = some (i, n) ∧ HasTemp before fs temp path i (data.take n)
  | .spoiled fd => Kept before fs path ∧ ∃ i pos, fs.fds fd = some (i, pos) ∧ Spare before path i
  | .synced _ => Kept before fs path ∧ ∃ i, HasTemp before fs temp path i data ∧ fs.synced i = true
  | .closed => Kept before fs path ∧ ∃ i, HasTemp before fs temp path i data ∧ fs.synced i = true
  | .abandoned | .unlinked => Kept before fs path
  | .renamed => ∃ fs₀ old new dir i, path = new :: dir ∧ Fs.Changed fs₀ fs (.move dir old new i) ∧
      Kept before fs₀ path ∧ fs₀.synced i = true ∧ fs₀.data i = data
  | .durable => ∃ i, fs.Fixed path (some (.file i)) ∧ fs.synced i = true ∧ fs.data i = data

section Modes

variable {before fs fs' : Fs CString} {temp path : Path} {data : Bytes} {mode : Mode}
  {op : Call Path}
  {answer : Answer} {fd n : ℕ}

theorem holds_mkdir {p : Path} (h : Mode.idle.Holds before temp path data fs) (hpath : p ≠ path)
    (htemp : p ≠ temp) (hperform : fs.perform (.mkdir p) answer = some fs') :
    Mode.idle.Holds before temp path data fs' := by
  rcases Fs.perform_mkdir hperform with rfl | ⟨name, dir, rfl, hchanged⟩
  · exact h
  · refine ⟨h.1.changed hchanged hpath, fun i hi => h.2 i ?_⟩
    rwa [hchanged.names_of_not_touches htemp] at hi

theorem holds_open (h : Mode.idle.Holds before temp path data fs) (hne : temp ≠ path)
    (hperform : fs.perform (.openTrunc temp) answer = some fs') :
    ((tempFile temp path data).next .idle (.openTrunc temp) answer).Holds before temp path
      data fs' := by
  rcases Fs.perform_openTrunc hperform with
    ⟨rfl, rfl⟩ | ⟨fd, rfl, ⟨name, dir, fs₁, rfl, hchanged, rfl⟩ | ⟨i, hi, rfl⟩⟩
  · exact h
  · have hspare := h.1.spare_next
    refine ⟨((h.1.setData hspare).changed hchanged hne).setFd _, Nat.zero_le _, fs.next,
      Function.update_self .., ?_, hspare, ?_⟩
    · rw [Fs.names_setFd, hchanged.names_eq]
      exact Function.update_self ..
    · exact (congrFun hchanged.data fs.next).trans (Function.update_self ..)
  · have hspare := h.2 i hi
    exact ⟨(h.1.setData hspare).setFd _, Nat.zero_le _, i, Function.update_self .., hi, hspare,
      Function.update_self ..⟩

/-- The next bytes of the data are written behind the first `n`. -/
theorem writeAt_take {bytes : Bytes} {k : ℕ} (hn : n ≤ data.length) (hbytes : bytes <+: data.drop n)
    (hle : k ≤ bytes.length) :
    n + k ≤ data.length ∧ writeAt (data.take n) n (bytes.take k) = data.take (n + k) := by
  have hlength := hbytes.length_le
  rw [List.length_drop] at hlength
  constructor
  · omega
  · have htake : data.take n ++ bytes.take k = data.take (n + k) := by
      rw [List.take_add, List.prefix_iff_eq_take.mp hbytes, List.take_take, Nat.min_eq_left hle]
    have hwrite := writeAt_length (data.take n) (bytes.take k)
    rwa [List.length_take_of_le hn, htake] at hwrite

theorem holds_write {bytes : Bytes} (h : (Mode.writing fd n).Holds before temp path data fs)
    (hbytes : bytes <+: data.drop n) (hperform : fs.perform (.write fd bytes) answer = some fs') :
    ((tempFile temp path data).next (.writing fd n) (.write fd bytes) answer).Holds before temp path
      data fs' := by
  obtain ⟨hkept, hn, i, hfd, htemp⟩ := h
  rcases Fs.perform_write hperform with ⟨rfl, rfl⟩ | ⟨k, j, pos, rfl, hpos, hle, hfd', rfl⟩
  · exact ⟨hkept, i, n, hfd, htemp.spare⟩
  · obtain ⟨rfl, rfl⟩ := Prod.mk.inj (Option.some.inj (hfd.symm.trans hfd'))
    obtain ⟨hlength, happend⟩ := writeAt_take hn hbytes hle
    refine ⟨(hkept.setData htemp.spare).setFd _, hlength, i, Function.update_self .., htemp.named,
      htemp.spare, ?_⟩
    refine (Function.update_self ..).trans ?_
    rw [htemp.data]
    exact happend

theorem holds_fsync (h : (Mode.writing fd data.length).Holds before temp path data fs)
    (hperform : fs.perform (.fsync fd) answer = some fs') :
    ((tempFile temp path data).next (.writing fd data.length) (.fsync fd) answer).Holds
      before temp path data fs' := by
  obtain ⟨hkept, -, i, hfd, htemp⟩ := h
  rcases Fs.perform_fsync hperform with ⟨rfl, rfl⟩ | ⟨j, pos, rfl, hfd', rfl⟩
  · exact ⟨hkept, i, _, hfd, htemp.spare⟩
  · obtain ⟨rfl, -⟩ := Prod.mk.inj (Option.some.inj (hfd.symm.trans hfd'))
    have hdata := htemp.data
    rw [List.take_length] at hdata
    exact ⟨hkept.setSynced, i, ⟨htemp.named, htemp.spare, hdata⟩, Function.update_self ..⟩

theorem holds_write_spoiled {bytes : Bytes} (h : (Mode.spoiled fd).Holds before temp path data fs)
    (hperform : fs.perform (.write fd bytes) answer = some fs') :
    (Mode.spoiled fd).Holds before temp path data fs' := by
  obtain ⟨hkept, i, pos, hfd, hspare⟩ := h
  rcases Fs.perform_write hperform with ⟨rfl, rfl⟩ | ⟨k, j, pos', rfl, -, -, hfd', rfl⟩
  · exact ⟨hkept, i, pos, hfd, hspare⟩
  · obtain ⟨rfl, rfl⟩ := Prod.mk.inj (Option.some.inj (hfd.symm.trans hfd'))
    exact ⟨(hkept.setData hspare).setFd _, i, _, Function.update_self .., hspare⟩

theorem holds_rename (h : Mode.closed.Holds before temp path data fs)
    (hperform : fs.perform (.rename temp path) answer = some fs') :
    ((tempFile temp path data).next .closed (.rename temp path) answer).Holds before temp path data
      fs' := by
  obtain ⟨hkept, i, htemp, hsynced⟩ := h
  rcases Fs.perform_rename hperform with
    ⟨rfl, rfl⟩ | ⟨old, new, dir, j, rfl, rfl, rfl, hj, hchanged⟩
  · exact hkept
  · obtain rfl := Node.file.inj (Option.some.inj (htemp.named.symm.trans hj))
    exact ⟨fs, old, new, dir, i, rfl, hchanged, hkept, hsynced, htemp.data⟩

theorem names_of_move {old new : CString} {dir : Path} {i : ℕ}
    (hchanged : Fs.Changed fs fs' (.move dir old new i)) :
    fs'.names (new :: dir) = some (.file i) := by
  rw [hchanged.names_eq]
  exact Function.update_self ..

theorem holds_fsyncDir (h : Mode.renamed.Holds before temp path data fs)
    (hperform : fs.perform (.fsyncDir path.tail) answer = some fs') :
    ((tempFile temp path data).next .renamed (.fsyncDir path.tail) answer).Holds before
      temp path data fs' := by
  rcases Fs.perform_fsyncDir hperform with ⟨rfl, rfl⟩ | ⟨rfl, rfl⟩
  · exact h
  · obtain ⟨fs₀, old, new, dir, i, rfl, hchanged, -, hsynced, hdata⟩ := h
    refine ⟨i, ?_, (congrFun hchanged.synced i).trans hsynced,
      (congrFun hchanged.data i).trans hdata⟩
    rw [← names_of_move hchanged]
    exact fs.fixed_syncDir new dir

theorem holds_unlink (h : Mode.abandoned.Holds before temp path data fs) (hne : temp ≠ path)
    (hperform : fs.perform (.unlink temp) answer = some fs') :
    Mode.unlinked.Holds before temp path data fs' := by
  rcases Fs.perform_unlink hperform with rfl | ⟨name, dir, rfl, hchanged⟩
  · exact h
  · exact Kept.changed h hchanged hne

/-- **Every permitted call** leaves the files as the next mode says. -/
theorem holds_perform (hne : temp ≠ path) (h : mode.Holds before temp path data fs)
    (hpermits : (tempFile temp path data).permits mode op)
    (hperform : fs.perform op answer = some fs') :
    ((tempFile temp path data).next mode op answer).Holds before temp path data fs' := by
  cases mode with
  | idle =>
    cases op with
    | stat p => exact Fs.perform_stat hperform ▸ h
    | mkdir p => exact holds_mkdir h hpermits.1 hpermits.2 hperform
    | openTrunc p =>
      obtain rfl := hpermits
      exact holds_open h hne hperform
    | _ => exact False.elim hpermits
  | writing fd n =>
    cases op with
    | write fd' bytes =>
      obtain ⟨rfl, -, hbytes⟩ := hpermits
      exact holds_write h hbytes hperform
    | fsync fd' =>
      obtain ⟨rfl, rfl⟩ := hpermits
      exact holds_fsync h hperform
    | _ => exact False.elim hpermits
  | spoiled fd =>
    cases op with
    | write fd' bytes =>
      obtain rfl := hpermits
      exact holds_write_spoiled h hperform
    | close fd' =>
      rw [Fs.perform_close hperform]
      exact h.1.setFd _
    | _ => exact False.elim hpermits
  | synced fd =>
    cases op with
    | close fd' =>
      obtain ⟨hkept, i, htemp, hsynced⟩ := h
      rw [Fs.perform_close hperform]
      exact ⟨hkept.setFd _, i, ⟨htemp.named, htemp.spare, htemp.data⟩, hsynced⟩
    | _ => exact False.elim hpermits
  | closed =>
    cases op with
    | rename p q =>
      obtain ⟨rfl, rfl⟩ := hpermits
      exact holds_rename h hperform
    | _ => exact False.elim hpermits
  | abandoned =>
    cases op with
    | unlink p =>
      obtain rfl := hpermits
      exact holds_unlink h hne hperform
    | _ => exact False.elim hpermits
  | unlinked => cases op <;> exact False.elim hpermits
  | renamed =>
    cases op with
    | openDir p => exact Fs.perform_openDir hperform ▸ h
    | fsyncDir p =>
      obtain rfl := hpermits
      exact holds_fsyncDir h hperform
    | closeDir p => exact Fs.perform_closeDir hperform ▸ h
    | _ => exact False.elim hpermits
  | durable =>
    cases op with
    | closeDir p => exact Fs.perform_closeDir hperform ▸ h
    | _ => exact False.elim hpermits

/-- The answers of the file system are those the protocol counts on. -/
theorem answers_perform (hperform : fs.perform op answer = some fs') :
    (tempFile temp path data).answers op answer := by
  cases op with
  | write fd bytes =>
    rcases Fs.perform_write hperform with ⟨rfl, -⟩ | ⟨k, -, -, rfl, hpos, hle, -⟩
    · trivial
    · exact ⟨hpos, hle⟩
  | _ => trivial

/-- In every mode the target has its old or the new content. -/
theorem holds_content (h : mode.Holds before temp path data fs) :
    fs.content path = before.content path ∨ fs.content path = some data := by
  cases mode with
  | idle | writing | spoiled | synced | closed => exact Or.inl h.1.content_eq
  | abandoned | unlinked => exact Or.inl (Kept.content_eq h)
  | renamed =>
    obtain ⟨fs₀, old, new, dir, i, rfl, hchanged, -, -, hdata⟩ := h
    rw [Fs.content_eq_of_file (names_of_move hchanged), hchanged.data, hdata]
    exact Or.inr rfl
  | durable =>
    obtain ⟨i, hfixed, -, rfl⟩ := h
    exact Or.inr (Fs.content_eq_of_file hfixed.names_eq)

end Modes

/-! ## 4. Crashes -/

/-- The directories on the way to a file in `dir` are on the disk. -/
def DirsOnDisk (fs : Fs CString) (dir : Path) : Prop := ∀ d, d <:+ dir → fs.Fixed d (some .dir)

section Crashes

variable {before fs crashed : Fs CString} {temp dir : Path} {name : CString} {data : Bytes}
  {mode : Mode}
  {survivors : Path → Option Node}

theorem DirsOnDisk.reach_eq (h : DirsOnDisk fs dir) (hdisk : fs.OnDisk survivors) :
    reach survivors (name :: dir) = survivors (name :: dir) :=
  reach_of_dirs fun d hd => (h d hd).onDisk hdisk

/-- The target's name is what it is on the disk; or a directory is lost, and then the target is
absent as it was before. -/
theorem crash_names (hdirs : before.names (name :: dir) ≠ none → DirsOnDisk fs dir)
    (hdisk : fs.OnDisk survivors) (hcrashed : crashed.names = reach survivors) :
    crashed.names (name :: dir) = survivors (name :: dir) ∨
      crashed.content (name :: dir) = before.content (name :: dir) := by
  rw [hcrashed]
  rcases reach_eq_or survivors (name :: dir) with hreach | hlost
  · exact Or.inl hreach
  · by_cases hbefore : before.names (name :: dir) = none
    · refine Or.inr ?_
      rw [Fs.content, Fs.content, hcrashed, hlost, hbefore]
    · exact Or.inl ((hdirs hbefore).reach_eq hdisk)

theorem Kept.crash (h : Kept before fs (name :: dir))
    (hdirs : before.names (name :: dir) ≠ none → DirsOnDisk fs dir) (hcrash : fs.Crash crashed) :
    crashed.content (name :: dir) = before.content (name :: dir) := by
  obtain ⟨survivors, hdisk, hcrashed, hdata⟩ := hcrash
  rcases crash_names hdirs hdisk hcrashed with hnames | hsame
  · exact h.file.content_eq (hnames.trans (h.fixed.onDisk hdisk)) hdata
  · exact hsame

/-- After a crash in any mode too. -/
theorem holds_crash (h : mode.Holds before temp (name :: dir) data fs)
    (hdirs : before.names (name :: dir) ≠ none → DirsOnDisk fs dir) (hcrash : fs.Crash crashed) :
    crashed.content (name :: dir) = before.content (name :: dir) ∨
      crashed.content (name :: dir) = some data := by
  cases mode with
  | idle | writing | spoiled | synced | closed => exact Or.inl (h.1.crash hdirs hcrash)
  | abandoned | unlinked => exact Or.inl (Kept.crash h hdirs hcrash)
  | renamed =>
    obtain ⟨fs₀, old, new, dir, i, hpath, hchanged, hkept, hsynced, rfl⟩ := h
    obtain ⟨rfl, rfl⟩ := List.cons.inj hpath
    obtain ⟨survivors, hdisk, hcrashed, hdata⟩ := hcrash
    rw [hchanged.synced, hchanged.data] at hdata
    rcases crash_names hdirs hdisk hcrashed with hnames | hsame
    · rcases Fs.onDisk_after_move hkept.fixed hchanged hdisk with hold | hnew
      · exact Or.inl (hkept.file.content_eq (hnames.trans hold) hdata)
      · refine Or.inr ?_
        rw [Fs.content_eq_of_file (hnames.trans hnew), hdata i hsynced]
    · exact Or.inl hsame
  | durable =>
    obtain ⟨i, hfixed, hsynced, rfl⟩ := h
    obtain ⟨survivors, hdisk, hcrashed, hdata⟩ := hcrash
    rcases crash_names hdirs hdisk hcrashed with hnames | hsame
    · refine Or.inr ?_
      rw [Fs.content_eq_of_file (hnames.trans (hfixed.onDisk hdisk)), hdata i hsynced]
    · exact Or.inl hsame

theorem holds_durable (h : Mode.durable.Holds before temp (name :: dir) data fs) :
    fs.content (name :: dir) = some data ∧
      (DirsOnDisk fs dir → ∀ crashed, fs.Crash crashed →
        crashed.content (name :: dir) = some data) := by
  obtain ⟨i, hfixed, hsynced, rfl⟩ := h
  refine ⟨Fs.content_eq_of_file hfixed.names_eq, fun hdirs crashed hcrash => ?_⟩
  obtain ⟨survivors, hdisk, hcrashed, hdata⟩ := hcrash
  have hnames : crashed.names (name :: dir) = some (.file i) := by
    rw [hcrashed, hdirs.reach_eq hdisk]
    exact hfixed.onDisk hdisk
  rw [Fs.content_eq_of_file hnames, hdata i hsynced]

end Crashes

/-- Before a call: the target is on the disk as it is, with its directories if it is there, and the
temporary name, if there is one already, is not another name of the target's file. -/
structure Settled (fs : Fs CString) (temp : CString) (dir : Path) (name : CString) : Prop where
  fixed : fs.Fixed (name :: dir) (fs.names (name :: dir))
  synced : ∀ i, fs.names (name :: dir) = some (.file i) → fs.synced i = true
  dirs : fs.names (name :: dir) ≠ none → DirsOnDisk fs dir
  apart : ∀ i, fs.names (temp :: dir) = some (.file i) → fs.names (name :: dir) ≠ some (.file i)

/-- **Old or new.**  At every point between the system calls of `buckets_atomic_write`, whatever
they answer, and after a crash there, the target has its content from before the call or all of the
data.  When the call has returned OK it has the data, and has it after a later crash too if the
directories on the way to it were on the disk before the call. -/
theorem atomicWrite_old_or_new (pid kept : ℕ) (dir : Path) (name : CString) (data : Option Bytes)
    {fs fs' : Fs CString} {rest : Sys IoRet} (hsettled : Settled fs (tempName name pid) dir name)
    (hreaches : Prog.Reaches Fs.perform fs (atomicWrite pid kept (some (dir, name)) data)
      fs' rest) :
    (fs'.content (name :: dir) = fs.content (name :: dir) ∨
      data ≠ none ∧ fs'.content (name :: dir) = data) ∧
    (∀ crashed, fs'.Crash crashed → crashed.content (name :: dir) = fs.content (name :: dir) ∨
      data ≠ none ∧ crashed.content (name :: dir) = data) ∧
    (rest = .pure .ok → data ≠ none ∧ fs'.content (name :: dir) = data ∧
      (DirsOnDisk fs dir → ∀ crashed, fs'.Crash crashed →
        crashed.content (name :: dir) = data)) := by
  have hkept : Kept fs fs (name :: dir) := ⟨hsettled.fixed, fun i hi => ⟨hsettled.synced i hi, rfl⟩⟩
  cases data with
  | none =>
    cases hreaches with
    | here => exact ⟨Or.inl rfl, fun crashed hcrash => Or.inl (hkept.crash hsettled.dirs hcrash),
        nofun⟩
  | some data =>
    have hne : tempName name pid :: dir ≠ name :: dir := fun h =>
      tempName_ne name pid (List.cons.inj h).1
    obtain ⟨mode, ⟨hholds, hstays⟩, hfollows⟩ := Protocol.Follows.invariant
      (I := fun mode fs' => mode.Holds fs (tempName name pid :: dir) (name :: dir) data fs' ∧
        ∀ d, fs.Fixed d (some .dir) → fs'.Fixed d (some .dir))
      (fun mode s op answer s' h hpermits hperform =>
        ⟨answers_perform hperform, holds_perform hne h.1 hpermits hperform,
          fun d hd => (h.2 d hd).perform hperform⟩)
      (follows_atomicWriteFile pid kept dir name data) ⟨⟨hkept, hsettled.apart⟩, fun _ hd => hd⟩
      hreaches
    refine ⟨?_, fun crashed hcrash => ?_, fun hrest => ⟨nofun, ?_⟩⟩
    · exact (holds_content hholds).imp_right fun h => ⟨nofun, h⟩
    · have hdirs := fun hthere d hd => hstays d (hsettled.dirs hthere d hd)
      exact (holds_crash hholds hdirs hcrash).imp_right fun h => ⟨nofun, h⟩
    · rw [hrest] at hfollows
      obtain rfl : mode = .durable := hfollows rfl
      obtain ⟨hnow, hlater⟩ := holds_durable hholds
      exact ⟨hnow, fun hdirs => hlater fun d hd => hstays d (hdirs d hd)⟩

/-- A file system with nothing but its root. -/
def emptyFs : Fs CString where
  disk p := if p = [] then some .dir else none
  pending := []
  data _ := []
  synced _ := true
  fds _ := none
  next := 0
  disk_lt p i h := by
    split at h
    · exact absurd (Option.some.inj h) nofun
    · exact absurd h nofun
  pending_lt _ hop := absurd hop List.not_mem_nil
  attached name dir h := by
    rw [List.foldl_nil, if_neg (List.cons_ne_nil name dir)] at h
    exact absurd rfl h

theorem names_emptyFs (name : CString) (dir : Path) : emptyFs.names (name :: dir) = none := by
  simp [emptyFs, Fs.names]

theorem dirsOnDisk_emptyFs : DirsOnDisk emptyFs [] := by
  intro d hd
  rw [List.suffix_nil.mp hd]
  exact ⟨rfl, fun _ hop => absurd hop List.not_mem_nil⟩

theorem settled_emptyFs (temp name : CString) (dir : Path) : Settled emptyFs temp dir name := by
  have hnone := names_emptyFs
  refine ⟨⟨?_, fun _ hop => absurd hop List.not_mem_nil⟩, fun i hi => ?_, fun h => ?_,
    fun i hi => ?_⟩
  · exact rfl
  · exact absurd ((hnone name dir).symm.trans hi) nofun
  · exact absurd (hnone name dir) h
  · exact absurd ((hnone temp dir).symm.trans hi) nofun

/-- A call in which every system call succeeds, with the last byte left for `fflush`. -/
theorem atomicWrite_old_or_new_two_bytes :
    ∃ fs' rest,
      Prog.Reaches Fs.perform emptyFs (atomicWrite 7 1 (some ([], cstr "a")) (some [1, 2])) fs'
        rest ∧ rest = .pure .ok ∧ fs'.content [cstr "a"] = some [1, 2] ∧
        ∀ crashed, fs'.Crash crashed → crashed.content [cstr "a"] = some [1, 2] := by
  have hexec : (Prog.exec Fs.perform emptyFs (atomicWrite 7 1 (some ([], cstr "a")) (some [1, 2]))
      [.kind true, .fd 3, .count 1, .count 1, .done, .done, .done, .done, .done, .done]).any
        fun x => x.2.result = some .ok := by
    decide +kernel
  obtain ⟨⟨fs', rest⟩, hrun, hresult⟩ := (Option.any_eq_true _ _).mp hexec
  have hreaches := Prog.reaches_of_exec hrun
  have hrest := Prog.eq_pure_of_result (of_decide_eq_true hresult)
  obtain ⟨-, hnow, hlater⟩ :=
    (atomicWrite_old_or_new 7 1 [] (cstr "a") (some [1, 2]) (settled_emptyFs ..) hreaches).2.2 hrest
  exact ⟨fs', rest, hreaches, hrest, hnow, hlater dirsOnDisk_emptyFs⟩

/-- **A new directory is not synced.**  The call makes the directory of the target and syncs the
names in it, but not the directory's own name: it returns OK, and a crash leaves neither. -/
theorem atomicWrite_new_directory_lost :
    Settled emptyFs (tempName (cstr "a") 7) [cstr "d"] (cstr "a") ∧
    ∃ fs' rest crashed, Prog.Reaches Fs.perform emptyFs
        (atomicWrite 7 0 (some ([cstr "d"], cstr "a")) (some [1, 2])) fs' rest ∧ rest = .pure .ok ∧
      fs'.content [cstr "a", cstr "d"] = some [1, 2] ∧ fs'.Crash crashed ∧
      crashed.content [cstr "a", cstr "d"] = none := by
  have hexec : (Prog.exec Fs.perform emptyFs
      (atomicWrite 7 0 (some ([cstr "d"], cstr "a")) (some [1, 2]))
      [.failed, .done, .fd 3, .count 2, .done, .done, .done, .done, .done, .done]).any
        fun x => x.2.result = some .ok ∧ x.1.content [cstr "a", cstr "d"] = some [1, 2] ∧
          x.1.disk [cstr "d"] = none := by
    decide +kernel
  obtain ⟨⟨fs', rest⟩, hrun, hend⟩ := (Option.any_eq_true _ _).mp hexec
  obtain ⟨hresult, hcontent, hdisk⟩ := of_decide_eq_true hend
  refine ⟨settled_emptyFs .., fs', rest, fs'.lost, Prog.reaches_of_exec hrun,
    Prog.eq_pure_of_result hresult, hcontent, fs'.crash_lost, ?_⟩
  have hlost : fs'.lost.names [cstr "a", cstr "d"] = none :=
    reach_of_not_dir (hdisk.trans_ne nofun)
  rw [Fs.content, hlost]

end Buckets
