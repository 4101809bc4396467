/-
# The directories that `chunk.c` remembers

A chunk is written into the directory of its object, which is made if it is not there.  To save the
system calls `chunk.c` keeps the paths of 1024 directories that it has seen or made.  Deleting an
object REMOVES its directory when that is empty, and nothing takes the path out of the table again:
the next write of the same key is told that the directory is there, and cannot open its file.

* `Sound`: every remembered directory exists; `finds_iff_sound`: that is exactly what makes
  `ensure_directory_cached` tell the truth about every path;
* `Sound.step`: a step keeps it unless it is a delete that empties a remembered directory;
* `directoryRun_finds_iff`: over a whole run.

The table is also not the ring buffer its comment says it is: once full, `count` stays 1024 and
every new path goes into the first slot.  For what is asked here that does not matter.
-/
import Buckets.Json
import Buckets.Lib.FileTree
import Buckets.Lib.Strtoull

namespace Buckets

open FileTree Strtoull

/-! ## 1. The code -/

/-- `DIR_CACHE_SIZE`. -/
def dirCacheSize : ℕ := 1024

/-- The file system, and `g_dir_cache`: the slots in use. -/
structure ChunkDirs where
  tree : Tree
  paths : List FileTree.Path

/-- `cache_dir`. -/
def cacheDir (paths : List FileTree.Path) (path : FileTree.Path) : List FileTree.Path :=
  if paths.length < dirCacheSize then paths ++ [path]
  else paths.set (paths.length % dirCacheSize) path

/-- `buckets_ensure_directory`, when no system call fails but for what is in the way. -/
def ensureTreeDirectory (t : Tree) : FileTree.Path → Bool × Tree
  | [] => (decide (t.node [] = some .dir), t)
  | name :: parent =>
    match t.node (name :: parent) with
    | some .dir => (true, t)
    | some (.file _) => (false, t)
    | none =>
      let made := if parent = [] then (true, t) else ensureTreeDirectory t parent
      if made.1 then
        match made.2.mkdir (name :: parent) with
        | some t' => (true, t')
        | none => (false, made.2)
      else (false, made.2)

/-- `ensure_directory_cached`. -/
def ensureDirectoryCached (s : ChunkDirs) (path : FileTree.Path) : Bool × ChunkDirs :=
  if path ∈ s.paths then (true, s)
  else
    let made := ensureTreeDirectory s.tree path
    (made.1, ⟨made.2, if made.1 then cacheDir s.paths path else s.paths⟩)

/-- `part.%u`. -/
def chunkFileName (chunkIndex : ℕ) : Name := cstr "part." ++ printDec chunkIndex

/-- `buckets_write_chunk`, with io_uring or group commit, into the directory of the object. -/
def writeChunkInto (s : ChunkDirs) (dir : FileTree.Path) (chunkIndex : ℕ) (data : Bytes) :
    Bool × ChunkDirs :=
  let ensured := ensureDirectoryCached s dir
  if ensured.1 then
    match ensured.2.tree.writeFile (chunkFileName chunkIndex :: dir) data with
    | some t => (true, { ensured.2 with tree := t })
    | none => (false, ensured.2)
  else (false, ensured.2)

/-- Files are unlinked, and the directory is removed if that is possible. -/
def removeFiles (t : Tree) (dir : FileTree.Path) (names : List Name) : Tree :=
  (names.foldl (fun t name => t.unlink (name :: dir)) t).rmdir dir

/-- The files that `chunk_delete_worker` and the RPC handler `storage.deleteChunk` unlink. -/
def chunkFiles (chunkIndex : ℕ) : List Name := [chunkFileName chunkIndex, cstr "xl.meta"]

/-- The files that `buckets_delete_object` unlinks; no chunks if the object is inline. -/
def objectFiles (totalChunks : ℕ) : List Name :=
  ((List.range totalChunks).map fun i => chunkFileName (i + 1)) ++ [cstr "xl.meta"]

/-- A call. -/
inductive ChunkOp where
  | write (dir : FileTree.Path) (chunkIndex : ℕ) (data : Bytes)
  | deleteChunk (dir : FileTree.Path) (chunkIndex : ℕ)
  | deleteObject (dir : FileTree.Path) (totalChunks : ℕ)

/-- What a delete unlinks, and where. -/
def ChunkOp.removes : ChunkOp → Option (FileTree.Path × List Name)
  | .write .. => none
  | .deleteChunk dir chunkIndex => some (dir, chunkFiles chunkIndex)
  | .deleteObject dir totalChunks => some (dir, objectFiles totalChunks)

def ChunkDirs.step (s : ChunkDirs) : ChunkOp → ChunkDirs
  | .write dir chunkIndex data => (writeChunkInto s dir chunkIndex data).2
  | .deleteChunk dir chunkIndex => { s with tree := removeFiles s.tree dir (chunkFiles chunkIndex) }
  | .deleteObject dir totalChunks =>
    { s with tree := removeFiles s.tree dir (objectFiles totalChunks) }

/-- The calls of a process that starts with these files. -/
def directoryRun (t : Tree) (ops : List ChunkOp) : ChunkDirs := ops.foldl ChunkDirs.step ⟨t, []⟩

/-- If the directory is said to be there, it is. -/
def ChunkDirs.Finds (s : ChunkDirs) (path : FileTree.Path) : Prop :=
  (ensureDirectoryCached s path).1 = true →
    (ensureDirectoryCached s path).2.tree.node path = some .dir

/-! ## 2. Directories -/

/-- The directories of one tree are directories of another. -/
def KeepsDirs (t t' : Tree) : Prop := ∀ p, t.node p = some .dir → t'.node p = some .dir

theorem KeepsDirs.trans {t t' t'' : Tree} (h : KeepsDirs t t') (h' : KeepsDirs t' t'') :
    KeepsDirs t t'' := fun p hp => h' p (h p hp)

theorem keepsDirs_mkdir {t t' : Tree} {p : FileTree.Path} (h : t.mkdir p = some t') :
    KeepsDirs t t' := by
  obtain ⟨hnone, hnode⟩ := Tree.node_mkdir h
  intro q hq
  rw [hnode, Function.update_apply]
  split
  · rfl
  · exact hq

theorem keepsDirs_writeFile {t t' : Tree} {p : FileTree.Path} {data : Bytes}
    (h : t.writeFile p data = some t') : KeepsDirs t t' := by
  cases p with
  | nil => cases h
  | cons name p =>
    rw [Tree.writeFile] at h
    split at h
    · rename_i hcond
      cases h
      intro q hq
      have hne : q ≠ name :: p := by
        rintro rfl
        exact hcond.2.2 hq
      exact (Function.update_of_ne hne _ _).trans hq
    · cases h

/-- **Making a directory** removes none, and makes it if it says so. -/
theorem ensureTreeDirectory_spec (t : Tree) (path : FileTree.Path) :
    KeepsDirs t (ensureTreeDirectory t path).2 ∧
      ((ensureTreeDirectory t path).1 = true →
        (ensureTreeDirectory t path).2.node path = some .dir) := by
  induction path with
  | nil => exact ⟨fun _ hp => hp, of_decide_eq_true⟩
  | cons name parent ih =>
    rw [ensureTreeDirectory]
    split
    · rename_i hdir
      exact ⟨fun _ hp => hp, fun _ => hdir⟩
    · exact ⟨fun _ hp => hp, fun h => by cases h⟩
    · have hmade : KeepsDirs t
          (if parent = [] then (true, t) else ensureTreeDirectory t parent).2 := by
        split
        · exact fun _ hp => hp
        · exact ih.1
      generalize (if parent = [] then (true, t) else ensureTreeDirectory t parent) = made at hmade ⊢
      dsimp only
      split
      · split
        · rename_i t' hmkdir
          refine ⟨hmade.trans (keepsDirs_mkdir hmkdir), fun _ => ?_⟩
          rw [(Tree.node_mkdir hmkdir).2, Function.update_self]
        · exact ⟨hmade, fun h => by cases h⟩
      · exact ⟨hmade, fun h => by cases h⟩

/-! ## 3. What is remembered -/

/-- Every remembered directory exists. -/
def ChunkDirs.Sound (s : ChunkDirs) : Prop := ∀ path ∈ s.paths, s.tree.node path = some .dir

/-- **The table tells the truth** about every path exactly if every remembered directory exists. -/
theorem finds_iff_sound (s : ChunkDirs) : (∀ path, s.Finds path) ↔ s.Sound := by
  constructor
  · intro hfinds path hpath
    have hensured : ensureDirectoryCached s path = (true, s) := if_pos hpath
    have hfind := hfinds path
    rw [ChunkDirs.Finds, hensured] at hfind
    exact hfind rfl
  · intro hsound path hok
    unfold ensureDirectoryCached at hok ⊢
    split at hok
    · rename_i hpath
      rw [if_pos hpath]
      exact hsound path hpath
    · rename_i hpath
      rw [if_neg hpath]
      exact (ensureTreeDirectory_spec s.tree path).2 hok

theorem mem_cacheDir {paths : List FileTree.Path} {path p : FileTree.Path}
    (h : p ∈ cacheDir paths path) :
    p ∈ paths ∨ p = path := by
  unfold cacheDir at h
  split at h
  · simpa using h
  · exact List.mem_or_eq_of_mem_set h

theorem ChunkDirs.Sound.ensure {s : ChunkDirs} (h : s.Sound) (path : FileTree.Path) :
    (ensureDirectoryCached s path).2.Sound := by
  unfold ensureDirectoryCached
  split
  · exact h
  · obtain ⟨hkeeps, hmade⟩ := ensureTreeDirectory_spec s.tree path
    intro p hp
    dsimp only at hp ⊢
    split at hp
    · rename_i hok
      rcases mem_cacheDir hp with hp | rfl
      · exact hkeeps p (h p hp)
      · exact hmade hok
    · exact hkeeps p (h p hp)

theorem ChunkDirs.Sound.write {s : ChunkDirs} (h : s.Sound) (dir : FileTree.Path) (chunkIndex : ℕ)
    (data : Bytes) : (writeChunkInto s dir chunkIndex data).2.Sound := by
  have hensured := h.ensure dir
  unfold writeChunkInto
  dsimp only
  split
  · split
    · rename_i t hwrite
      exact fun p hp => keepsDirs_writeFile hwrite p (hensured p hp)
    · exact hensured
  · exact hensured

/-! ## 4. Deletes -/

theorem node_unlink_eq_dir {t : Tree} {p q : FileTree.Path} :
    (t.unlink q).node p = some .dir ↔ t.node p = some .dir := by
  by_cases hdir : t.node q = some .dir
  · rw [Tree.unlink, if_pos hdir]
  · rw [Tree.node_unlink hdir]
    by_cases hsuffix : q <:+ p
    · -- nothing is under a file
      rw [Tree.node_prune_of_suffix hsuffix]
      have hnot : t.node p ≠ some .dir := by
        by_cases heq : q = p
        · rwa [← heq]
        · rw [t.node_eq_none_of_suffix hdir hsuffix heq]
          exact (Option.some_ne_none _).symm
      exact iff_of_false (Option.some_ne_none _).symm hnot
    · rw [Tree.node_prune_of_not hsuffix]

theorem node_unlinks_eq_dir {p dir : FileTree.Path} (names : List Name) (t : Tree) :
    (names.foldl (fun t name => t.unlink (name :: dir)) t).node p = some .dir ↔
      t.node p = some .dir := by
  induction names generalizing t with
  | nil => rfl
  | cons name names ih => rw [List.foldl_cons, ih, node_unlink_eq_dir]

/-- Without these files the directory is empty. -/
def Emptied (t : Tree) (dir : FileTree.Path) (names : List Name) : Prop :=
  (names.foldl (fun t name => t.unlink (name :: dir)) t).entries dir = []

/-- **A delete** takes no directory but the one of the object, and that one if it is emptied. -/
theorem node_removeFiles {t : Tree} {dir p : FileTree.Path} {names : List Name}
    (hp : t.node p = some .dir) :
    (removeFiles t dir names).node p = some .dir ↔ ¬ (p = dir ∧ Emptied t dir names) := by
  have hbefore := (@node_unlinks_eq_dir p dir names t).mpr hp
  rw [removeFiles, Emptied]
  generalize names.foldl (fun t name => t.unlink (name :: dir)) t = t' at hbefore ⊢
  rw [Tree.rmdir]
  split
  · rename_i hremoved
    obtain ⟨-, hempty⟩ := hremoved
    by_cases hsuffix : dir <:+ p
    · -- the directory is empty, so that a directory under it is the directory itself
      have heq : p = dir := by
        refine t'.eq_of_entries_eq_nil hempty hsuffix ?_
        rw [hbefore]
        exact Option.some_ne_none _
      rw [Tree.node_prune_of_suffix hsuffix]
      exact iff_of_false (Option.some_ne_none _).symm (fun h => h ⟨heq, hempty⟩)
    · rw [Tree.node_prune_of_not hsuffix]
      refine iff_of_true hbefore ?_
      rintro ⟨rfl, -⟩
      exact hsuffix List.suffix_rfl
  · rename_i hkept
    refine iff_of_true hbefore ?_
    rintro ⟨rfl, hempty⟩
    exact hkept ⟨hbefore, hempty⟩

/-- The call is a delete that empties a remembered directory. -/
def ChunkOp.ForgetsDir (s : ChunkDirs) (op : ChunkOp) : Prop :=
  ∃ dir names, op.removes = some (dir, names) ∧ dir ∈ s.paths ∧ Emptied s.tree dir names

theorem step_of_removes {s : ChunkDirs} {op : ChunkOp} {dir : FileTree.Path} {names : List Name}
    (h : op.removes = some (dir, names)) :
    s.step op = { s with tree := removeFiles s.tree dir names } := by
  cases op with
  | write dir chunkIndex data => cases h
  | deleteChunk dir chunkIndex =>
    cases h
    rfl
  | deleteObject dir totalChunks =>
    cases h
    rfl

/-- **Step.**  The table stays true exactly if the call is no such delete. -/
theorem ChunkDirs.Sound.step {s : ChunkDirs} (h : s.Sound) (op : ChunkOp) :
    (s.step op).Sound ↔ ¬ op.ForgetsDir s := by
  cases hremoves : op.removes with
  | none =>
    refine iff_of_true ?_ ?_
    · cases op with
      | write dir chunkIndex data => exact h.write dir chunkIndex data
      | deleteChunk => cases hremoves
      | deleteObject => cases hremoves
    · rintro ⟨dir, names, hsome, -⟩
      cases hremoves.symm.trans hsome
  | some removed =>
    obtain ⟨dir, names⟩ := removed
    rw [step_of_removes hremoves]
    constructor
    · rintro hsound ⟨dir', names', hsome, hmem, hempty⟩
      cases hremoves.symm.trans hsome
      exact (node_removeFiles (h dir hmem)).mp (hsound dir hmem) ⟨rfl, hempty⟩
    · intro hnot p hp
      refine (node_removeFiles (h p hp)).mpr ?_
      rintro ⟨rfl, hempty⟩
      exact hnot ⟨p, names, hremoves, hp, hempty⟩

/-! ## 5. Runs -/

theorem directoryRun_snoc (t : Tree) (ops : List ChunkOp) (op : ChunkOp) :
    directoryRun t (ops ++ [op]) = (directoryRun t ops).step op := by
  rw [directoryRun, List.foldl_append]
  rfl

/-- **A run of writes and deletes**, from any files: at every point the function tells the truth
about every directory, exactly if no delete of the run empties a remembered directory. -/
theorem directoryRun_finds_iff (t : Tree) (ops : List ChunkOp) :
    (∀ before after, ops = before ++ after → ∀ path, (directoryRun t before).Finds path) ↔
      ∀ before op after, ops = before ++ op :: after → ¬ op.ForgetsDir (directoryRun t before) := by
  constructor
  · intro hfinds before op after hops
    have hsound := (finds_iff_sound _).mp (hfinds before (op :: after) hops)
    have hnext := (finds_iff_sound _).mp (hfinds (before ++ [op]) after (by simp [hops]))
    rw [directoryRun_snoc] at hnext
    exact (hsound.step op).mp hnext
  · intro hdeletes before
    -- the run so far, one call after the other
    induction before using List.reverseRecOn with
    | nil =>
      intro after _
      exact (finds_iff_sound _).mpr (fun path hpath => by cases hpath)
    | append_singleton before op ih =>
      intro after hops
      have hops' : ops = before ++ op :: after := by simp [hops]
      have hsound := (finds_iff_sound _).mp (ih (op :: after) hops')
      rw [finds_iff_sound, directoryRun_snoc]
      exact (hsound.step op).mpr (hdeletes before op after hops')

/-- `d/ab/abcd`. -/
def oneDir : FileTree.Path := [cstr "abcd", cstr "ab", cstr "d"]

/-- A put, a delete and a put of one key: the directory is said to be there, and the second put
cannot write its chunk. -/
theorem write_after_delete :
    (ensureDirectoryCached
      (directoryRun Tree.root [.write oneDir 1 [7], .deleteChunk oneDir 1]) oneDir).1 = true ∧
    ¬ (directoryRun Tree.root [.write oneDir 1 [7], .deleteChunk oneDir 1]).Finds oneDir ∧
    (writeChunkInto (directoryRun Tree.root [.write oneDir 1 [7], .deleteChunk oneDir 1])
      oneDir 1 [7]).1 = false := by
  refine ⟨?_, ?_, ?_⟩
  · decide
  · unfold ChunkDirs.Finds
    decide
  · decide

end Buckets
