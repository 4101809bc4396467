/-
# A file system that can crash

Files are INODES with bytes; names lead to inodes, and a descriptor is open on an inode, not on a
name.  So a file that is renamed or replaced while it is open is still written by who has it open.
A path is the list of its names with the last one first, so its directory is its tail.

What survives a crash is what was synced.  Of a file that was not synced since it was last written
nothing is known.  A sync of a directory is for the names IN it, not for its own name.  Changes of
names that no sync of their directory came after (`pending`) may have reached the disk or not, each
of them for itself; a rename is one change, within a directory.  A name on the disk whose directory
was lost is lost with it (`reach`).

Every call can fail.  `perform` says what a call does with a given answer, and has no state for an
answer that is not possible.

* `Fixed` -- a name that stands for the same thing whatever of the pending changes survives, with
  the calls that keep it; a directory that is fixed stays so (`Fixed.perform`);
* `Fixed.onDisk`, `onDisk_after_move` -- what a name stands for on the disk after a crash.
-/
import Mathlib.Data.List.Basic
import Mathlib.Data.List.Infix
import Mathlib.Logic.Function.Basic

namespace FileSystem

variable {C : Type}

/-! ## 1. Names -/

/-- What a name stands for. -/
inductive Node where
  | dir
  | file (inode : ℕ)
deriving DecidableEq

/-- A change of the names of a directory. -/
inductive NameOp (C : Type) where
  | make (dir : List C) (name : C) (node : Node)
  | move (dir : List C) (old new : C) (inode : ℕ)
  | drop (dir : List C) (name : C)

/-- Every name is in a directory. -/
def Attached (names : List C → Option Node) : Prop :=
  ∀ name dir, names (name :: dir) ≠ none → names dir = some .dir

/-- What a path leads to if each name on its way is a directory. -/
def reach (names : List C → Option Node) : List C → Option Node
  | [] => names []
  | name :: dir => if reach names dir = some .dir then names (name :: dir) else none

section Reach

variable {names : List C → Option Node} {name : C} {dir : List C}

theorem reach_eq_or (names : List C → Option Node) (p : List C) :
    reach names p = names p ∨ reach names p = none := by
  cases p with
  | nil => exact Or.inl rfl
  | cons name dir =>
    rw [reach]
    split
    · exact Or.inl rfl
    · exact Or.inr rfl

theorem attached_reach (names : List C → Option Node) : Attached (reach names) := by
  intro name dir h
  by_contra hdir
  rw [reach, if_neg hdir] at h
  exact h rfl

theorem reach_dir (h : ∀ d, d <:+ dir → names d = some .dir) : reach names dir = some .dir := by
  induction dir with
  | nil => exact h [] List.suffix_rfl
  | cons name dir ih =>
    rw [reach, if_pos (ih fun d hd => h d (hd.trans (List.suffix_cons name dir)))]
    exact h _ List.suffix_rfl

/-- All directories on the way are there. -/
theorem reach_of_dirs (h : ∀ d, d <:+ dir → names d = some .dir) :
    reach names (name :: dir) = names (name :: dir) := by
  rw [reach, if_pos (reach_dir h)]

/-- The directory is not there. -/
theorem reach_of_not_dir (h : names dir ≠ some .dir) : reach names (name :: dir) = none := by
  rw [reach, if_neg]
  intro hdir
  rcases reach_eq_or names dir with heq | hnone
  · exact h (heq.symm.trans hdir)
  · exact Option.some_ne_none _ (hdir.symm.trans hnone)

end Reach

namespace NameOp

/-- The directory of the names. -/
def dir : NameOp C → List C
  | make dir _ _ | move dir _ _ _ | drop dir _ => dir

/-- The change is of this name. -/
def Touches : NameOp C → List C → Prop
  | make dir name _, r => name :: dir = r
  | move dir old new _, r => old :: dir = r ∨ new :: dir = r
  | drop dir name, r => name :: dir = r

/-- The file a name stands for after the change. -/
def inode : NameOp C → Option ℕ
  | make _ _ (.file i) => some i
  | move _ _ _ i => some i
  | _ => none

/-- A name is made where there is none, in a directory; files only are renamed or dropped. -/
def Allowed (names : List C → Option Node) : NameOp C → Prop
  | make dir name _ => names dir = some .dir ∧ names (name :: dir) = none
  | move dir old new i => names (old :: dir) = some (.file i) ∧ names (new :: dir) ≠ some .dir
  | drop dir name => names (name :: dir) ≠ none ∧ names (name :: dir) ≠ some .dir

instance (names : List C → Option Node) (op : NameOp C) : Decidable (op.Allowed names) :=
  match op with
  | make .. | move .. | drop .. => inferInstanceAs (Decidable (_ ∧ _))

variable {names names' : List C → Option Node} {op : NameOp C} {ops : List (NameOp C)} {r : List C}

theorem Touches.dir_eq (h : op.Touches r) : op.dir = r.tail := by
  cases op with
  | make | drop =>
    obtain rfl := h
    rfl
  | move =>
    rcases h with rfl | rfl
    · rfl
    · rfl

/-- Directories are neither renamed nor dropped. -/
theorem Allowed.not_touches (h : op.Allowed names) (hdir : names r = some .dir) :
    ¬ op.Touches r := by
  intro htouches
  cases op with
  | make =>
    obtain rfl := htouches
    exact Option.some_ne_none _ (hdir.symm.trans h.2)
  | move =>
    rcases htouches with rfl | rfl
    · exact absurd (h.1.symm.trans hdir) nofun
    · exact h.2 hdir
  | drop =>
    obtain rfl := htouches
    exact h.2 hdir

variable [DecidableEq C]

def apply (names : List C → Option Node) : NameOp C → List C → Option Node
  | make dir name node => Function.update names (name :: dir) (some node)
  | move dir old new inode =>
    Function.update (Function.update names (old :: dir) none) (new :: dir) (some (.file inode))
  | drop dir name => Function.update names (name :: dir) none

theorem apply_of_not_touches (h : ¬ op.Touches r) : op.apply names r = names r := by
  cases op with
  | make | drop => exact Function.update_of_ne (fun hr => h hr.symm) ..
  | move dir old new i =>
    refine (Function.update_of_ne (fun hr => h (Or.inr hr.symm)) ..).trans ?_
    exact Function.update_of_ne (fun hr => h (Or.inl hr.symm)) ..

theorem foldl_apply_of_not_touches (h : ∀ op ∈ ops, ¬ op.Touches r) :
    ops.foldl apply names r = names r := by
  induction ops generalizing names with
  | nil => rfl
  | cons op ops ih =>
    rw [List.foldl_cons, ih fun op hop => h op (List.mem_cons_of_mem _ hop)]
    exact apply_of_not_touches (h op List.mem_cons_self)

/-- What a name stands for after a change depends on what it stood for, not on other names. -/
theorem apply_congr (h : names r = names' r) : op.apply names r = op.apply names' r := by
  cases op <;> simp only [apply, Function.update_apply, h]

/-- Changes of other names can be left out. -/
theorem foldl_apply_filter {keep : NameOp C → Bool}
    (hdrop : ∀ op ∈ ops, keep op = false → ¬ op.Touches r) (h : names r = names' r) :
    (ops.filter keep).foldl apply names r = ops.foldl apply names' r := by
  induction ops generalizing names names' with
  | nil => exact h
  | cons op ops ih =>
    have hrest := fun op' hop' => hdrop op' (List.mem_cons_of_mem op hop')
    rw [List.foldl_cons]
    cases hkeep : keep op with
    | true =>
      rw [List.filter_cons_of_pos hkeep, List.foldl_cons]
      exact ih hrest (apply_congr h)
    | false =>
      rw [List.filter_cons_of_neg (Bool.eq_false_iff.mp hkeep)]
      refine ih hrest (h.trans ?_)
      exact (apply_of_not_touches (hdrop op List.mem_cons_self hkeep)).symm

/-- A name stands for what it stood for, for nothing, or for the file of the change. -/
theorem apply_cases (names : List C → Option Node) (op : NameOp C) (r : List C) {node : Node}
    (h : op.apply names r = some node) :
    names r = some node ∨ op.Touches r ∧ ∀ i, node = .file i → op.inode = some i := by
  by_cases htouches : op.Touches r
  · refine Or.inr ⟨htouches, ?_⟩
    rintro i rfl
    cases op with
    | make dir name node =>
      obtain rfl := htouches
      rw [apply, Function.update_self] at h
      obtain rfl := Option.some.inj h
      rfl
    | drop dir name =>
      obtain rfl := htouches
      rw [apply, Function.update_self] at h
      cases h
    | move dir old new j =>
      rcases eq_or_ne r (new :: dir) with rfl | hne
      · rw [apply, Function.update_self] at h
        exact congrArg some (Node.file.inj (Option.some.inj h))
      · obtain rfl : old :: dir = r := htouches.resolve_right fun hr => hne hr.symm
        rw [apply, Function.update_of_ne hne, Function.update_self] at h
        cases h
  · rw [apply_of_not_touches htouches] at h
    exact Or.inl h

theorem foldl_apply_lt {n : ℕ} (hnames : ∀ p i, names p = some (.file i) → i < n)
    (hops : ∀ op ∈ ops, ∀ i ∈ op.inode, i < n) :
    ∀ p i, ops.foldl apply names p = some (.file i) → i < n := by
  induction ops generalizing names with
  | nil => exact hnames
  | cons op ops ih =>
    refine ih (fun p i hp => ?_) fun op hop => hops op (List.mem_cons_of_mem _ hop)
    rcases apply_cases names op p hp with hold | ⟨-, hinode⟩
    · exact hnames p i hold
    · exact hops op List.mem_cons_self i (hinode i rfl)

omit [DecidableEq C] in
/-- The directory of what a change may touch is there. -/
theorem Allowed.dir_eq (h : op.Allowed names) (hattached : Attached names) :
    names op.dir = some .dir := by
  cases op with
  | make => exact h.1
  | move dir old new i => exact hattached old dir (h.1.trans_ne (Option.some_ne_none _))
  | drop dir name => exact hattached name dir h.1

theorem Allowed.attached (h : op.Allowed names) (hattached : Attached names) :
    Attached (op.apply names) := by
  intro name dir hname
  -- a directory is touched by no change, so it is enough that it was one
  suffices hdir : names dir = some .dir by
    rw [apply_of_not_touches (h.not_touches hdir)]
    exact hdir
  obtain ⟨node, hnode⟩ := Option.ne_none_iff_exists'.mp hname
  rcases apply_cases names op _ hnode with hold | ⟨htouches, -⟩
  · exact hattached name dir (hold.trans_ne (Option.some_ne_none _))
  · have hdir := h.dir_eq hattached
    rwa [htouches.dir_eq] at hdir

end NameOp

/-! ## 2. The file system -/

/-- The names on the disk and their changes since, the bytes of the files and whether the disk has
them, and for each descriptor the file and the position. -/
structure Fs (C : Type) [DecidableEq C] where
  disk : List C → Option Node
  pending : List (NameOp C)
  data : ℕ → List UInt8
  synced : ℕ → Bool
  fds : ℕ → Option (ℕ × ℕ)
  next : ℕ
  disk_lt : ∀ p i, disk p = some (.file i) → i < next
  pending_lt : ∀ op ∈ pending, ∀ i ∈ op.inode, i < next
  attached : Attached (pending.foldl NameOp.apply disk)

/-- A system call. -/
inductive Call (P : Type) where
  | stat (p : P)
  | mkdir (p : P)
  /-- `open` with `O_CREAT | O_TRUNC`. -/
  | openTrunc (p : P)
  | write (fd : ℕ) (bytes : List UInt8)
  | fsync (fd : ℕ)
  | close (fd : ℕ)
  | rename (p q : P)
  | unlink (p : P)
  | openDir (p : P)
  | fsyncDir (p : P)
  | closeDir (p : P)

/-- What a call answers. -/
inductive Answer where
  | failed
  | done
  /-- `EEXIST`. -/
  | exists
  | kind (isDir : Bool)
  | fd (fd : ℕ)
  | count (n : ℕ)
deriving DecidableEq

/-- Bytes written into a file at a position; a gap before it reads as zeros. -/
def writeAt (old : List UInt8) (pos : ℕ) (bytes : List UInt8) : List UInt8 :=
  old.take pos ++ List.replicate (pos - old.length) 0 ++ bytes ++ old.drop (pos + bytes.length)

theorem writeAt_length (old bytes : List UInt8) : writeAt old old.length bytes = old ++ bytes := by
  simp [writeAt]

namespace Fs

variable [DecidableEq C]

/-- What the names stand for. -/
def names (fs : Fs C) : List C → Option Node := fs.pending.foldl NameOp.apply fs.disk

/-- The bytes of the file of a name. -/
def content (fs : Fs C) (p : List C) : Option (List UInt8) :=
  match fs.names p with
  | some (.file i) => some (fs.data i)
  | _ => none

theorem names_lt (fs : Fs C) {p : List C} {i : ℕ} (h : fs.names p = some (.file i)) : i < fs.next :=
  NameOp.foldl_apply_lt fs.disk_lt fs.pending_lt p i h

/-- A name is changed. -/
def change (fs : Fs C) (op : NameOp C) : Option (Fs C) :=
  if h : op.Allowed fs.names then
    some {
      disk := fs.disk
      pending := fs.pending ++ [op]
      data := fs.data
      synced := fs.synced
      fds := fs.fds
      next := max fs.next (op.inode.elim 0 (· + 1))
      disk_lt p i hp := Nat.lt_of_lt_of_le (fs.disk_lt p i hp) (Nat.le_max_left _ _)
      pending_lt := by
        intro op' hop' i hi
        rcases List.mem_append.mp hop' with hop' | hop'
        · exact Nat.lt_of_lt_of_le (fs.pending_lt op' hop' i hi) (Nat.le_max_left _ _)
        · rw [List.mem_singleton.mp hop'] at hi
          rw [Option.mem_def.mp hi]
          exact Nat.lt_of_lt_of_le (Nat.lt_succ_self i) (Nat.le_max_right _ _)
      attached := by
        rw [List.foldl_append]
        exact h.attached fs.attached }
  else none

/-- The bytes of a file are changed. -/
def setData (fs : Fs C) (i : ℕ) (bytes : List UInt8) : Fs C :=
  { fs with
    data := Function.update fs.data i bytes
    synced := Function.update fs.synced i false }

def setFd (fs : Fs C) (fd : ℕ) (entry : Option (ℕ × ℕ)) : Fs C :=
  { fs with fds := Function.update fs.fds fd entry }

/-- A file is on the disk as it is. -/
def setSynced (fs : Fs C) (i : ℕ) : Fs C := { fs with synced := Function.update fs.synced i true }

/-- Changes in one directory and changes elsewhere are of different names. -/
theorem names_of_dir (fs : Fs C) (dir : List C) :
    (fs.pending.filter (·.dir ≠ dir)).foldl NameOp.apply
      ((fs.pending.filter (·.dir = dir)).foldl NameOp.apply fs.disk) = fs.names := by
  funext r
  by_cases hr : r.tail = dir
  · have hothers : ∀ op ∈ fs.pending.filter (·.dir ≠ dir), ¬ op.Touches r := by
      intro op hop htouches
      exact of_decide_eq_true (List.mem_filter.mp hop).2 (htouches.dir_eq.trans hr)
    rw [NameOp.foldl_apply_of_not_touches hothers]
    refine NameOp.foldl_apply_filter (fun op _ hop htouches => ?_) rfl
    exact of_decide_eq_false hop (htouches.dir_eq.trans hr)
  · refine NameOp.foldl_apply_filter (fun op _ hop htouches => ?_) ?_
    · exact of_decide_eq_false hop fun hdir => hr (htouches.dir_eq.symm.trans hdir)
    · refine NameOp.foldl_apply_of_not_touches fun op hop htouches => ?_
      exact hr (htouches.dir_eq.symm.trans (of_decide_eq_true (List.mem_filter.mp hop).2))

/-- The names in a directory are on the disk as they are. -/
def syncDir (fs : Fs C) (dir : List C) : Fs C where
  disk := (fs.pending.filter (·.dir = dir)).foldl NameOp.apply fs.disk
  pending := fs.pending.filter (·.dir ≠ dir)
  data := fs.data
  synced := fs.synced
  fds := fs.fds
  next := fs.next
  disk_lt := NameOp.foldl_apply_lt fs.disk_lt fun op hop => fs.pending_lt op
    (List.mem_filter.mp hop).1
  pending_lt op hop := fs.pending_lt op (List.mem_filter.mp hop).1
  attached := by
    rw [names_of_dir]
    exact fs.attached

/-- A call and its answer.  Only renames within a directory are modelled. -/
def perform (fs : Fs C) : Call (List C) → Answer → Option (Fs C)
  | .stat p, .kind isDir =>
    match fs.names p with
    | none => none
    | some node => if decide (node = .dir) = isDir then some fs else none
  | .mkdir p, .done =>
    match p with
    | name :: dir => fs.change (.make dir name .dir)
    | [] => none
  | .mkdir p, .exists => if fs.names p = none then none else some fs
  | .openTrunc p, .fd fd =>
    if fs.fds fd = none then
      match fs.names p, p with
      | some (.file i), _ => some ((fs.setData i []).setFd fd (some (i, 0)))
      | none, name :: dir =>
        ((fs.setData fs.next []).change (.make dir name (.file fs.next))).map
          (·.setFd fd (some (fs.next, 0)))
      | _, _ => none
    else none
  | .write fd bytes, .count n =>
    match fs.fds fd with
    | none => none
    | some (i, pos) =>
      if 0 < n ∧ n ≤ bytes.length then
        some ((fs.setData i (writeAt (fs.data i) pos (bytes.take n))).setFd fd (some (i, pos + n)))
      else none
  | .fsync fd, .done => (fs.fds fd).map fun entry => fs.setSynced entry.1
  | .close fd, .done => some (fs.setFd fd none)
  | .rename p q, .done =>
    match fs.names p, p, q with
    | some (.file i), old :: dir, new :: dir' =>
      if dir' = dir then fs.change (.move dir old new i) else none
    | _, _, _ => none
  | .unlink p, .done =>
    match p with
    | name :: dir => fs.change (.drop dir name)
    | [] => none
  | .openDir p, .done => if fs.names p = some .dir then some fs else none
  | .fsyncDir p, .done => some (fs.syncDir p)
  | .closeDir _, .done => some fs
  | .close fd, .failed => some (fs.setFd fd none)
  | _, .failed => some fs
  | _, _ => none

/-- What is there lets the call succeed; for `mkdir`, or the directory exists. -/
def CanSucceed (fs : Fs C) : Call (List C) → Prop
  | .stat p => fs.names p ≠ none
  | .mkdir p => fs.names p.tail = some .dir
  | .openTrunc p => fs.names p.tail = some .dir ∧ fs.names p ≠ some .dir
  | .write fd bytes => fs.fds fd ≠ none ∧ bytes ≠ []
  | .fsync fd => fs.fds fd ≠ none
  | .rename p q => p.tail = q.tail ∧ fs.names p ≠ none ∧ fs.names p ≠ some .dir ∧
      fs.names q ≠ some .dir
  | .unlink p => fs.names p ≠ none ∧ fs.names p ≠ some .dir
  | .openDir p => fs.names p = some .dir
  | _ => True

instance (fs : Fs C) (call : Call (List C)) : Decidable (fs.CanSucceed call) :=
  match call with
  | .stat _ | .fsync _ => inferInstanceAs (Decidable (_ ≠ none))
  | .mkdir _ | .openDir _ => inferInstanceAs (Decidable (_ = some Node.dir))
  | .openTrunc _ | .write _ _ | .rename _ _ | .unlink _ => inferInstanceAs (Decidable (_ ∧ _))
  | .close _ | .fsyncDir _ | .closeDir _ => .isTrue trivial

/-- Names that may be on the disk when the system crashes. -/
def OnDisk (fs : Fs C) (survivors : List C → Option Node) : Prop :=
  ∃ kept : List (NameOp C), kept.Sublist fs.pending ∧ survivors = kept.foldl NameOp.apply fs.disk

/-- What a crash may leave. -/
def Crash (fs fs' : Fs C) : Prop :=
  ∃ survivors, fs.OnDisk survivors ∧ fs'.names = reach survivors ∧
    ∀ i, fs.synced i = true → fs'.data i = fs.data i

/-- A crash after which no pending change has survived. -/
def lost (fs : Fs C) : Fs C where
  disk := reach fs.disk
  pending := []
  data := fs.data
  synced := fs.synced
  fds _ := none
  next := fs.next
  disk_lt p i h := by
    rcases reach_eq_or fs.disk p with heq | hnone
    · exact fs.disk_lt p i (heq.symm.trans h)
    · exact absurd (hnone.symm.trans h) nofun
  pending_lt _ hop := absurd hop List.not_mem_nil
  attached := attached_reach fs.disk

theorem crash_lost (fs : Fs C) : fs.Crash fs.lost :=
  ⟨fs.disk, ⟨[], List.nil_sublist _, rfl⟩, rfl, fun _ _ => rfl⟩

/-! ## 3. What a call does -/

/-- One name is changed. -/
structure Changed (fs fs' : Fs C) (op : NameOp C) : Prop where
  allowed : op.Allowed fs.names
  disk : fs'.disk = fs.disk
  pending : fs'.pending = fs.pending ++ [op]
  data : fs'.data = fs.data
  synced : fs'.synced = fs.synced
  fds : fs'.fds = fs.fds

variable {fs fs' : Fs C} {p q r dir : List C} {name : C} {fd i : ℕ} {bytes : List UInt8}
  {answer : Answer} {op : NameOp C}

theorem changed_of_change (h : fs.change op = some fs') : Changed fs fs' op := by
  rw [change] at h
  split at h
  · rename_i hallowed
    obtain rfl := Option.some.inj h
    exact ⟨hallowed, rfl, rfl, rfl, rfl, rfl⟩
  · cases h

theorem Changed.names_eq (h : Changed fs fs' op) : fs'.names = op.apply fs.names := by
  rw [names, h.pending, h.disk, List.foldl_append]
  rfl

/-- Other names stay. -/
theorem Changed.names_of_not_touches (h : Changed fs fs' op) (hr : ¬ op.Touches r) :
    fs'.names r = fs.names r := by
  rw [h.names_eq, NameOp.apply_of_not_touches hr]

theorem perform_stat (h : fs.perform (.stat p) answer = some fs') : fs' = fs := by
  cases answer with
  | kind isDir =>
    simp only [perform] at h
    split at h
    · cases h
    · split at h
      · exact (Option.some.inj h).symm
      · cases h
  | failed => exact (Option.some.inj h).symm
  | done | «exists» | fd | count => cases h

theorem perform_mkdir (h : fs.perform (.mkdir p) answer = some fs') :
    fs' = fs ∨ ∃ name dir, p = name :: dir ∧ Changed fs fs' (.make dir name .dir) := by
  cases answer with
  | done =>
    cases p with
    | nil => cases h
    | cons name dir => exact Or.inr ⟨name, dir, rfl, changed_of_change h⟩
  | «exists» =>
    simp only [perform] at h
    split at h
    · cases h
    · exact Or.inl (Option.some.inj h).symm
  | failed => exact Or.inl (Option.some.inj h).symm
  | kind | fd | count => cases h

theorem perform_openTrunc (h : fs.perform (.openTrunc p) answer = some fs') :
    answer = .failed ∧ fs' = fs ∨ ∃ fd, answer = .fd fd ∧
      ((∃ name dir fs₁, p = name :: dir ∧
          Changed (fs.setData fs.next []) fs₁ (.make dir name (.file fs.next)) ∧
          fs' = fs₁.setFd fd (some (fs.next, 0))) ∨
        ∃ i, fs.names p = some (.file i) ∧ fs' = (fs.setData i []).setFd fd (some (i, 0))) := by
  cases answer with
  | fd fd =>
    simp only [perform] at h
    split at h
    · split at h
      · rename_i i hfile
        exact Or.inr ⟨fd, rfl, Or.inr ⟨i, hfile, (Option.some.inj h).symm⟩⟩
      · rename_i name dir hnone
        obtain ⟨fs₁, hchange, rfl⟩ := Option.map_eq_some_iff.mp h
        exact Or.inr ⟨fd, rfl, Or.inl ⟨name, dir, fs₁, rfl, changed_of_change hchange, rfl⟩⟩
      · cases h
    · cases h
  | failed => exact Or.inl ⟨rfl, (Option.some.inj h).symm⟩
  | done | «exists» | kind | count => cases h

theorem perform_write (h : fs.perform (.write fd bytes) answer = some fs') :
    answer = .failed ∧ fs' = fs ∨ ∃ n i pos, answer = .count n ∧ 0 < n ∧ n ≤ bytes.length ∧
      fs.fds fd = some (i, pos) ∧
      fs' = (fs.setData i (writeAt (fs.data i) pos (bytes.take n))).setFd fd
        (some (i, pos + n)) := by
  cases answer with
  | count n =>
    simp only [perform] at h
    split at h
    · cases h
    · rename_i i pos hfd
      split at h
      · rename_i hn
        exact Or.inr ⟨n, i, pos, rfl, hn.1, hn.2, hfd, (Option.some.inj h).symm⟩
      · cases h
  | failed => exact Or.inl ⟨rfl, (Option.some.inj h).symm⟩
  | done | «exists» | kind | fd => cases h

theorem perform_fsync (h : fs.perform (.fsync fd) answer = some fs') :
    answer = .failed ∧ fs' = fs ∨ ∃ i pos, answer = .done ∧ fs.fds fd = some (i, pos) ∧
      fs' = fs.setSynced i := by
  cases answer with
  | done =>
    obtain ⟨⟨i, pos⟩, hfd, rfl⟩ := Option.map_eq_some_iff.mp h
    exact Or.inr ⟨i, pos, rfl, hfd, rfl⟩
  | failed => exact Or.inl ⟨rfl, (Option.some.inj h).symm⟩
  | «exists» | kind | fd | count => cases h

theorem perform_close (h : fs.perform (.close fd) answer = some fs') : fs' = fs.setFd fd none := by
  cases answer with
  | done | failed => exact (Option.some.inj h).symm
  | «exists» | kind | fd | count => cases h

theorem perform_rename (h : fs.perform (.rename p q) answer = some fs') :
    answer = .failed ∧ fs' = fs ∨ ∃ old new dir i, answer = .done ∧ p = old :: dir ∧
      q = new :: dir ∧ fs.names p = some (.file i) ∧ Changed fs fs' (.move dir old new i) := by
  cases answer with
  | done =>
    simp only [perform] at h
    split at h
    · rename_i i old dir new dir' hfile
      split at h
      · rename_i hdir
        obtain rfl := hdir
        exact Or.inr ⟨old, new, _, i, rfl, rfl, rfl, hfile, changed_of_change h⟩
      · cases h
    · cases h
  | failed => exact Or.inl ⟨rfl, (Option.some.inj h).symm⟩
  | «exists» | kind | fd | count => cases h

theorem perform_unlink (h : fs.perform (.unlink p) answer = some fs') :
    fs' = fs ∨ ∃ name dir, p = name :: dir ∧ Changed fs fs' (.drop dir name) := by
  cases answer with
  | done =>
    cases p with
    | nil => cases h
    | cons name dir => exact Or.inr ⟨name, dir, rfl, changed_of_change h⟩
  | failed => exact Or.inl (Option.some.inj h).symm
  | «exists» | kind | fd | count => cases h

theorem perform_openDir (h : fs.perform (.openDir p) answer = some fs') : fs' = fs := by
  cases answer with
  | done =>
    simp only [perform] at h
    split at h
    · exact (Option.some.inj h).symm
    · cases h
  | failed => exact (Option.some.inj h).symm
  | «exists» | kind | fd | count => cases h

theorem perform_closeDir (h : fs.perform (.closeDir p) answer = some fs') : fs' = fs := by
  cases answer with
  | done | failed => exact (Option.some.inj h).symm
  | «exists» | kind | fd | count => cases h

theorem perform_fsyncDir (h : fs.perform (.fsyncDir p) answer = some fs') :
    answer = .failed ∧ fs' = fs ∨ answer = .done ∧ fs' = fs.syncDir p := by
  cases answer with
  | done => exact Or.inr ⟨rfl, (Option.some.inj h).symm⟩
  | failed => exact Or.inl ⟨rfl, (Option.some.inj h).symm⟩
  | «exists» | kind | fd | count => cases h

@[simp] theorem names_setFd (entry : Option (ℕ × ℕ)) : (fs.setFd fd entry).names = fs.names := rfl

@[simp] theorem names_syncDir : (fs.syncDir dir).names = fs.names := fs.names_of_dir dir

theorem content_eq_of_file (h : fs.names p = some (.file i)) : fs.content p = some (fs.data i) := by
  rw [content, h]

/-! ## 4. Names that do not change -/

/-- The name stands for this, whatever of the pending changes survives. -/
def Fixed (fs : Fs C) (p : List C) (node : Option Node) : Prop :=
  fs.disk p = node ∧ ∀ op ∈ fs.pending, ¬ op.Touches p

variable {node : Option Node} {survivors : List C → Option Node}

theorem Fixed.names_eq (h : fs.Fixed p node) : fs.names p = node :=
  (NameOp.foldl_apply_of_not_touches h.2).trans h.1

theorem Fixed.change (h : fs.Fixed p node) (hchanged : Changed fs fs' op) (hop : ¬ op.Touches p) :
    fs'.Fixed p node := by
  refine ⟨(congrFun hchanged.disk p).trans h.1, fun op' hop' => ?_⟩
  rw [hchanged.pending] at hop'
  rcases List.mem_append.mp hop' with hop' | hop'
  · exact h.2 op' hop'
  · rw [List.mem_singleton.mp hop']
    exact hop

theorem Fixed.syncDir (h : fs.Fixed p node) : (fs.syncDir dir).Fixed p node := by
  constructor
  · refine (NameOp.foldl_apply_of_not_touches fun op hop => ?_).trans h.1
    exact h.2 op (List.mem_filter.mp hop).1
  · exact fun op hop => h.2 op (List.mem_filter.mp hop).1

/-- A sync of a directory fixes the names in it. -/
theorem fixed_syncDir (fs : Fs C) (name : C) (dir : List C) :
    (fs.syncDir dir).Fixed (name :: dir) (fs.names (name :: dir)) := by
  have hpending : ∀ op ∈ (fs.syncDir dir).pending, ¬ op.Touches (name :: dir) := by
    intro op hop htouches
    exact of_decide_eq_true (List.mem_filter.mp hop).2 htouches.dir_eq
  refine ⟨?_, hpending⟩
  have hnames : (fs.syncDir dir).names (name :: dir) =
    fs.names (name :: dir) := by rw [names_syncDir]
  exact (NameOp.foldl_apply_of_not_touches hpending).symm.trans hnames

/-- A directory on the disk stays there: no call renames or drops it. -/
theorem Fixed.perform {call : Call (List C)} (h : fs.Fixed p (some .dir))
    (hperform : fs.perform call answer = some fs') : fs'.Fixed p (some .dir) := by
  have hchange : ∀ (fs₁ fs₂ : Fs C) (op : NameOp C), fs₁.Fixed p (some .dir) → Changed fs₁ fs₂ op →
      fs₂.Fixed p (some .dir) := fun _ _ _ hfixed hchanged =>
    hfixed.change hchanged (hchanged.allowed.not_touches hfixed.names_eq)
  cases call with
  | stat => exact perform_stat hperform ▸ h
  | mkdir =>
    rcases perform_mkdir hperform with rfl | ⟨_, _, _, hchanged⟩
    · exact h
    · exact hchange _ _ _ h hchanged
  | openTrunc =>
    rcases perform_openTrunc hperform with
      ⟨-, rfl⟩ | ⟨fd, -, ⟨_, _, fs₁, _, hchanged, rfl⟩ | ⟨i, -, rfl⟩⟩
    · exact h
    · have hmade : fs₁.Fixed p (some .dir) := hchange (fs.setData fs.next []) fs₁ _ h hchanged
      exact hmade
    · exact h
  | write =>
    rcases perform_write hperform with ⟨-, rfl⟩ | ⟨-, -, -, -, -, -, -, rfl⟩
    · exact h
    · exact h
  | fsync =>
    rcases perform_fsync hperform with ⟨-, rfl⟩ | ⟨-, -, -, -, rfl⟩
    · exact h
    · exact h
  | close => exact perform_close hperform ▸ h
  | rename =>
    rcases perform_rename hperform with ⟨-, rfl⟩ | ⟨_, _, _, _, -, -, -, -, hchanged⟩
    · exact h
    · exact hchange _ _ _ h hchanged
  | unlink =>
    rcases perform_unlink hperform with rfl | ⟨_, _, _, hchanged⟩
    · exact h
    · exact hchange _ _ _ h hchanged
  | openDir => exact perform_openDir hperform ▸ h
  | fsyncDir =>
    rcases perform_fsyncDir hperform with ⟨-, rfl⟩ | ⟨-, rfl⟩
    · exact h
    · exact h.syncDir
  | closeDir => exact perform_closeDir hperform ▸ h

/-- After a crash the name stands for what it stood for, if its directories are there. -/
theorem Fixed.onDisk (h : fs.Fixed p node) (hdisk : fs.OnDisk survivors) : survivors p = node := by
  obtain ⟨kept, hkept, rfl⟩ := hdisk
  rw [NameOp.foldl_apply_of_not_touches fun op hop => h.2 op (hkept.subset hop)]
  exact h.1

/-- **A rename is one change**: after a crash the new name stands on the disk for what it stood for
or for the file. -/
theorem onDisk_after_move {old new : C} (h : fs.Fixed (new :: dir) node)
    (hchanged : Changed fs fs' (.move dir old new i)) (hdisk : fs'.OnDisk survivors) :
    survivors (new :: dir) = node ∨ survivors (new :: dir) = some (.file i) := by
  obtain ⟨kept, hkept, rfl⟩ := hdisk
  rw [hchanged.pending] at hkept
  obtain ⟨before, last, rfl, hbefore, hlast⟩ := List.sublist_append_iff.mp hkept
  have hfixed : before.foldl NameOp.apply fs'.disk (new :: dir) = node := by
    rw [hchanged.disk]
    exact (NameOp.foldl_apply_of_not_touches fun op hop => h.2 op (hbefore.subset hop)).trans h.1
  rw [List.foldl_append]
  rcases List.sublist_singleton.mp hlast with rfl | rfl
  · exact Or.inl hfixed
  · exact Or.inr (Function.update_self ..)

end Fs

end FileSystem
