/-
# Trees of files

What the file system looks like to a program that makes, lists and removes directories and reads and
writes whole files, when nothing fails.  Each path has a directory or a file or nothing, and
whatever exists is in a DIRECTORY and has a name: that is part of a tree, so no operation leaves a
file without a directory.

A path is the list of its names, the last one first, so a directory is the tail of what is in it.

* `mem_entries`: a directory lists what is in it;
* `node_mkdir`, `node_unlink`: what an operation changes, and that it changes nothing else;
* `prune`: a tree without what is at and under a path.
-/
import Buckets.Lib.CStr
import Mathlib.Data.List.Infix
import Mathlib.Data.List.Dedup
import Mathlib.Logic.Function.Basic

namespace FileTree

abbrev Name := List UInt8

/-- The names of a path, the last one first. -/
abbrev Path := List Name

inductive Node where
  | dir
  | file (data : List UInt8)
deriving DecidableEq

/-- A name that is one component of a path. -/
def IsName (s : Name) : Prop := s ≠ [] ∧ s ≠ [46] ∧ s ≠ [46, 46] ∧ 47 ∉ s

instance (s : Name) : Decidable (IsName s) :=
  inferInstanceAs (Decidable (s ≠ [] ∧ s ≠ [46] ∧ s ≠ [46, 46] ∧ 47 ∉ s))

structure Tree where
  node : Path → Option Node
  /-- Paths among which are all that exist. -/
  known : List Path
  mem_known : ∀ {p}, node p ≠ none → p ∈ known
  dir_of_child : ∀ {name p}, node (name :: p) ≠ none → node p = some .dir
  isName : ∀ {name p}, node (name :: p) ≠ none → IsName name

namespace Tree

variable (t : Tree)

/-- A tree with nothing in it. -/
def root : Tree where
  node p := if p = [] then some .dir else none
  known := [[]]
  mem_known {p} h := by
    by_cases hp : p = []
    · simp [hp]
    · rw [if_neg hp] at h
      exact absurd rfl h
  dir_of_child h := absurd (if_neg (List.cons_ne_nil _ _)) h
  isName h := absurd (if_neg (List.cons_ne_nil _ _)) h

variable {p q : Path} {s name : Name}

/-! ## 1. What is in a tree -/

/-- What is above something that exists is a directory. -/
theorem dir_of_suffix (hq : t.node q ≠ none) (hp : p <:+ q) (hne : p ≠ q) :
    t.node p = some .dir := by
  induction q with
  | nil => exact absurd (List.suffix_nil.mp hp) hne
  | cons name q ih =>
    have hdir := t.dir_of_child hq
    obtain heq | hsuffix := List.suffix_cons_iff.mp hp
    · exact absurd heq hne
    · by_cases hpq : p = q
      · rw [hpq]
        exact hdir
      · refine ih ?_ hsuffix hpq
        rw [hdir]
        exact Option.some_ne_none _

/-- Nothing is under what is not a directory. -/
theorem node_eq_none_of_suffix (hp : t.node p ≠ some .dir) (hq : p <:+ q)
    (hne : p ≠ q) : t.node q = none := by
  by_contra hsome
  exact hp (t.dir_of_suffix hsome hq hne)

/-- The entries of a directory, apart from `.` and `..`. -/
def entries (p : Path) : List Name :=
  t.known.dedup.filterMap fun q =>
    match q with
    | [] => none
    | name :: parent => if parent = p ∧ (t.node q).isSome then some name else none

theorem mem_entries : name ∈ t.entries p ↔ t.node (name :: p) ≠ none := by
  simp only [entries, List.mem_filterMap, List.mem_dedup]
  constructor
  · rintro ⟨q, -, hq⟩
    cases q with
    | nil => cases hq
    | cons name' parent =>
      dsimp only at hq
      split at hq
      · rename_i hcond
        obtain ⟨rfl, hsome⟩ := hcond
        cases hq
        exact Option.isSome_iff_ne_none.mp hsome
      · cases hq
  · intro hnode
    refine ⟨name :: p, t.mem_known hnode, ?_⟩
    simp [Option.isSome_iff_ne_none.mpr hnode]

/-- Nothing is under an empty directory. -/
theorem eq_of_entries_eq_nil (hempty : t.entries p = []) (hsuffix : p <:+ q)
    (hq : t.node q ≠ none) : q = p := by
  induction q with
  | nil => exact (List.suffix_nil.mp hsuffix).symm
  | cons name q ih =>
    obtain heq | hsuffix := List.suffix_cons_iff.mp hsuffix
    · exact heq.symm
    · have hdir : t.node q ≠ none := by
        rw [t.dir_of_child hq]
        exact Option.some_ne_none _
      obtain rfl := ih hsuffix hdir
      have hentry := t.mem_entries.mpr hq
      rw [hempty] at hentry
      cases hentry

/-! ## 2. Operations -/

/-- A file or a new directory in a directory. -/
def set (name : Name) (p : Path) (n : Node) (hname : IsName name) (hparent : t.node p = some .dir)
    (hold : t.node (name :: p) ≠ some .dir) : Tree where
  node := Function.update t.node (name :: p) (some n)
  known := (name :: p) :: t.known
  mem_known {q} hq := by
    by_cases hqp : q = name :: p
    · rw [hqp]
      exact List.mem_cons_self
    · rw [Function.update_of_ne hqp] at hq
      exact List.mem_cons_of_mem _ (t.mem_known hq)
  dir_of_child {name' q} hq := by
    by_cases hqp : q = name :: p
    · -- there was no directory, so there is nothing in it
      subst hqp
      have hne : name' :: name :: p ≠ name :: p := List.cons_ne_self _ _
      rw [Function.update_of_ne hne] at hq
      exact absurd (t.dir_of_child hq) hold
    · rw [Function.update_of_ne hqp]
      by_cases hnew : name' :: q = name :: p
      · obtain ⟨-, rfl⟩ := List.cons.inj hnew
        exact hparent
      · rw [Function.update_of_ne hnew] at hq
        exact t.dir_of_child hq
  isName {name' q} hq := by
    by_cases hnew : name' :: q = name :: p
    · obtain ⟨rfl, -⟩ := List.cons.inj hnew
      exact hname
    · rw [Function.update_of_ne hnew] at hq
      exact t.isName hq

/-- The tree without what is at and under a path. -/
def prune (p : Path) : Tree where
  node q := if p <:+ q then none else t.node q
  known := t.known
  mem_known {q} hq := by
    split at hq
    · exact absurd rfl hq
    · exact t.mem_known hq
  dir_of_child {name q} hq := by
    split at hq
    · exact absurd rfl hq
    · rename_i hnot
      rw [if_neg fun hsuffix => hnot (hsuffix.trans (List.suffix_cons name q))]
      exact t.dir_of_child hq
  isName {name q} hq := by
    split at hq
    · exact absurd rfl hq
    · exact t.isName hq

/-- `mkdir`; `none` if it fails. -/
def mkdir : Path → Option Tree
  | [] => none
  | name :: p =>
    if h : IsName name ∧ t.node p = some .dir ∧ t.node (name :: p) = none then
      some (t.set name p .dir h.1 h.2.1 (h.2.2 ▸ (Option.some_ne_none _).symm))
    else none

/-- A file is opened for writing, written and closed; `none` if it cannot be opened. -/
def writeFile : Path → List UInt8 → Option Tree
  | [], _ => none
  | name :: p, data =>
    if h : IsName name ∧ t.node p = some .dir ∧ t.node (name :: p) ≠ some .dir then
      some (t.set name p (.file data) h.1 h.2.1 h.2.2)
    else none

def unlink (p : Path) : Tree := if t.node p = some .dir then t else t.prune p

def rmdir (p : Path) : Tree := if t.node p = some .dir ∧ t.entries p = [] then t.prune p else t

variable {t} {t' : Tree}

theorem node_mkdir (h : t.mkdir p = some t') :
    t.node p = none ∧ t'.node = Function.update t.node p (some .dir) := by
  cases p with
  | nil => cases h
  | cons name p =>
    rw [mkdir] at h
    split at h
    · rename_i hcond
      cases h
      exact ⟨hcond.2.2, rfl⟩
    · cases h

theorem node_prune_of_suffix (h : p <:+ q) : (t.prune p).node q = none := if_pos h

theorem node_prune_of_not (h : ¬ p <:+ q) : (t.prune p).node q = t.node q := if_neg h

theorem node_unlink (h : t.node p ≠ some .dir) : (t.unlink p).node = (t.prune p).node := by
  rw [unlink, if_neg h]

end Tree

end FileTree
