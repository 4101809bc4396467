/-
# `s3/s3_versioning.c`: the versioning status of a bucket

Whether a bucket is versioned is looked up on the event loop, so the lookup does no I/O: the status
lives in a table of 256 slots, one entry a slot, and a lookup that finds another bucket's entry (or
none) answers "disabled" AND INSTALLS that answer.  The configuration a status write stores is never
read back.

A bucket's slot therefore belongs to whoever used it last.  `VersionOp.leaves` is what a lookup of
`b` reports right after an operation that uses `b`'s slot, whatever was there before, and
`reported_apply` says that the other operations do not change what it reports.  The status after a
run is what the LAST operation on the slot leaves (`reported_run`).
-/
import Mathlib.Data.List.Basic
import Buckets.Json

namespace Buckets

/-! ## 1. The cache -/

/-- The two answers of `buckets_get_bucket_versioning`. -/
structure VersioningStatus where
  enabled : Bool
  suspended : Bool
deriving DecidableEq

/-- The answer for a bucket without an entry. -/
def VersioningStatus.disabled : VersioningStatus := ⟨false, false⟩

/-- `versioning_cache_entry_t`, valid. -/
structure VersioningEntry where
  bucket : CString
  status : VersioningStatus

/-- `g_versioning_cache`: `none` for an entry that is not valid. -/
abbrev VersioningCache := Fin 256 → Option VersioningEntry

/-- `versioning_cache_hash`, with the signed characters of the platform. -/
def versioningCacheHash (bucket : CString) : Fin 256 :=
  let hash : UInt32 := bucket.foldl
    (fun hash c => ((hash <<< 5) + hash) + c.toInt8.toInt32.toUInt32) 5381
  ⟨hash.toNat % 256, Nat.mod_lt _ (by decide)⟩

/-- `versioning_cache_get`: `none` is a miss. -/
def versioningCacheGet (cache : VersioningCache) (bucket : CString) : Option VersioningStatus :=
  match cache (versioningCacheHash bucket) with
  | none => none
  | some entry => if entry.bucket = bucket then some entry.status else none

/-- `versioning_cache_put`. -/
def versioningCachePut (cache : VersioningCache) (bucket : CString) (status : VersioningStatus) :
    VersioningCache :=
  Function.update cache (versioningCacheHash bucket) (some ⟨charArray 256 bucket, status⟩)

/-- `buckets_get_bucket_versioning`: the status, and the cache afterwards. -/
def getBucketVersioning (cache : VersioningCache) (bucket : CString) :
    VersioningStatus × VersioningCache :=
  match versioningCacheGet cache bucket with
  | some status => (status, cache)
  | none => (.disabled, versioningCachePut cache bucket .disabled)

/-- `buckets_set_bucket_versioning`; `stored` says whether `buckets_put_object` stored the
configuration. -/
def setBucketVersioning (cache : VersioningCache) (bucket : CString) (enabled stored : Bool) :
    Bool × VersioningCache :=
  if stored then (true, versioningCachePut cache bucket ⟨enabled, !enabled⟩) else (false, cache)

/-! ## 2. Runs -/

/-- A status write or a lookup. -/
inductive VersionOp where
  | set (bucket : CString) (enabled stored : Bool)
  | get (bucket : CString)

namespace VersionOp

/-- One operation. -/
def apply (cache : VersioningCache) : VersionOp → VersioningCache
  | set bucket enabled stored => (setBucketVersioning cache bucket enabled stored).2
  | get bucket => (getBucketVersioning cache bucket).2

/-- The operations of a run. -/
def run (cache : VersioningCache) (ops : List VersionOp) : VersioningCache := ops.foldl apply cache

end VersionOp

/-- What a lookup of `b` reports. -/
def reported (cache : VersioningCache) (b : CString) : VersioningStatus :=
  (getBucketVersioning cache b).1

/-- What a lookup of `b` reports when its slot holds an entry for `bucket`. -/
def entryReport (b bucket : CString) (status : VersioningStatus) : VersioningStatus :=
  if charArray 256 bucket = b then status else .disabled

/-- What a lookup of `b` reports right after an operation on `b`'s slot; `none` if the operation
does not use the slot or is a lookup of `b` itself. -/
def VersionOp.leaves (b : CString) : VersionOp → Option VersioningStatus
  | set bucket enabled stored =>
    if stored && versioningCacheHash bucket = versioningCacheHash b then
      some (entryReport b bucket ⟨enabled, !enabled⟩)
    else none
  | get bucket =>
    if bucket ≠ b ∧ versioningCacheHash bucket = versioningCacheHash b then some .disabled else none

theorem reported_eq (cache : VersioningCache) (b : CString) :
    reported cache b = (versioningCacheGet cache b).getD .disabled := by
  unfold reported getBucketVersioning
  cases versioningCacheGet cache b <;> rfl

theorem reported_put_of_ne (cache : VersioningCache) {b bucket : CString}
    (hne : versioningCacheHash bucket ≠ versioningCacheHash b) (status : VersioningStatus) :
    reported (versioningCachePut cache bucket status) b = reported cache b := by
  rw [reported_eq, reported_eq, versioningCacheGet, versioningCacheGet, versioningCachePut,
    Function.update_of_ne hne.symm]

theorem reported_put (cache : VersioningCache) {b bucket : CString}
    (hslot : versioningCacheHash bucket = versioningCacheHash b) (status : VersioningStatus) :
    reported (versioningCachePut cache bucket status) b = entryReport b bucket status := by
  rw [reported_eq, versioningCacheGet, versioningCachePut, hslot, Function.update_self, entryReport]
  dsimp only
  split <;> rfl

theorem entryReport_disabled (b bucket : CString) : entryReport b bucket .disabled = .disabled :=
  ite_self _

/-- A lookup of the bucket itself does not change what is reported. -/
theorem reported_get_self (cache : VersioningCache) (b : CString) :
    reported (getBucketVersioning cache b).2 b = reported cache b := by
  cases hget : versioningCacheGet cache b with
  | some status => simp only [getBucketVersioning, hget]
  | none =>
    have hcache : (getBucketVersioning cache b).2 = versioningCachePut cache b .disabled := by
      simp only [getBucketVersioning, hget]
    rw [hcache, reported_put cache rfl, entryReport_disabled, reported_eq, hget]
    rfl

/-- A lookup of another bucket in the slot: its entry is there afterwards, if it was not before. -/
theorem reported_get_other (cache : VersioningCache) {b bucket : CString} (hne : bucket ≠ b)
    (hslot : versioningCacheHash bucket = versioningCacheHash b) :
    reported (getBucketVersioning cache bucket).2 b = .disabled := by
  cases hget : versioningCacheGet cache bucket with
  | none =>
    have hcache : (getBucketVersioning cache bucket).2 =
        versioningCachePut cache bucket .disabled := by
      simp only [getBucketVersioning, hget]
    rw [hcache, reported_put cache hslot, entryReport_disabled]
  | some status =>
    have hcache : (getBucketVersioning cache bucket).2 = cache := by
      simp only [getBucketVersioning, hget]
    -- the slot has an entry under the other name
    rw [hcache, reported_eq]
    unfold versioningCacheGet at hget ⊢
    rw [hslot] at hget
    cases hentry : cache (versioningCacheHash b) with
    | none => rfl
    | some entry =>
      rw [hentry] at hget
      have hname : entry.bucket = bucket := by
        by_contra hdiff
        simp [hdiff] at hget
      simp [hname, hne]

/-- A lookup of a bucket of another slot. -/
theorem reported_get_of_ne (cache : VersioningCache) {b bucket : CString}
    (hne : versioningCacheHash bucket ≠ versioningCacheHash b) :
    reported (getBucketVersioning cache bucket).2 b = reported cache b := by
  cases hget : versioningCacheGet cache bucket with
  | some status => simp only [getBucketVersioning, hget]
  | none =>
    simp only [getBucketVersioning, hget]
    exact reported_put_of_ne cache hne .disabled

/-- **Step.**  An operation on the slot decides what is reported; the others change nothing. -/
theorem reported_apply (cache : VersioningCache) (b : CString) (op : VersionOp) :
    reported (op.apply cache) b = (op.leaves b).getD (reported cache b) := by
  cases op with
  | set bucket enabled stored =>
    cases stored with
    | false => rfl
    | true =>
      simp only [VersionOp.apply, setBucketVersioning, VersionOp.leaves, Bool.true_and, if_true,
        decide_eq_true_eq]
      split
      case isTrue hslot => exact reported_put cache hslot _
      case isFalse hslot => exact reported_put_of_ne cache hslot _
  | get bucket =>
    simp only [VersionOp.apply, VersionOp.leaves]
    by_cases hslot : versioningCacheHash bucket = versioningCacheHash b
    · by_cases hself : bucket = b
      · rw [if_neg fun h => h.1 hself, hself]
        exact reported_get_self cache b
      · rw [if_pos ⟨hself, hslot⟩]
        exact reported_get_other cache hself hslot
    · rw [if_neg fun h => hslot h.2]
      exact reported_get_of_ne cache hslot

/-- **Run.**  What is reported is what the last operation on the slot leaves. -/
theorem reported_run (cache : VersioningCache) (b : CString) (ops : List VersionOp) :
    reported (VersionOp.run cache ops) b =
      ((ops.filterMap (VersionOp.leaves b)).getLast?).getD (reported cache b) := by
  induction ops using List.reverseRecOn generalizing cache with
  | nil => rfl
  | append_singleton ops op ih =>
    have hrun : VersionOp.run cache (ops ++ [op]) = op.apply (VersionOp.run cache ops) := by
      simp [VersionOp.run]
    rw [hrun, reported_apply, ih, List.filterMap_append]
    cases hleaves : op.leaves b <;> simp [hleaves]

/-! ## 3. A status write -/

/-- What the status write itself leaves. -/
theorem leaves_set_self (b : CString) (enabled : Bool) :
    (VersionOp.set b enabled true).leaves b =
      some (if b.length < 256 then ⟨enabled, !enabled⟩ else .disabled) := by
  have hfits : charArray 256 b = b ↔ b.length < 256 := by
    constructor
    · intro h
      have hlength := congrArg List.length h
      rw [charArray, List.length_take] at hlength
      omega
    · exact charArray_of_lt
  simp only [VersionOp.leaves, entryReport, Bool.true_and, decide_true, if_true, hfits]

/-- **A bucket's status after a status write.**  After a successful status write every lookup of the
bucket reports it EXACTLY IF no operation in between leaves another answer in the bucket's slot and,
for a bucket that is enabled, its name fits the entry. -/
theorem getBucketVersioning_after_set_iff (cache : VersioningCache) (b : CString) (enabled : Bool)
    (between : List VersionOp) :
    (∀ before, before <+: between → (getBucketVersioning
        (VersionOp.run (setBucketVersioning cache b enabled true).2 before) b).1.enabled =
          enabled) ↔
    (enabled = true → b.length < 256) ∧
      ∀ op ∈ between, ∀ status ∈ op.leaves b, status.enabled = enabled := by
  have hset : reported (setBucketVersioning cache b enabled true).2 b =
      if b.length < 256 then ⟨enabled, !enabled⟩ else .disabled := by
    have hstep := reported_apply cache b (.set b enabled true)
    rw [leaves_set_self] at hstep
    exact hstep
  constructor
  · intro hall
    refine ⟨fun henabled => ?_, fun op hop status hstatus => ?_⟩
    · have hfirst : (reported (setBucketVersioning cache b enabled true).2 b).enabled = enabled :=
        hall [] List.nil_prefix
      by_contra hlong
      rw [hset, if_neg hlong, henabled] at hfirst
      cases hfirst
    · obtain ⟨pre, post, rfl⟩ := List.append_of_mem hop
      have hafter : (reported (VersionOp.run (setBucketVersioning cache b enabled true).2
          (pre ++ [op])) b).enabled = enabled :=
        hall (pre ++ [op]) ⟨post, by simp⟩
      have hrun : VersionOp.run (setBucketVersioning cache b enabled true).2 (pre ++ [op]) =
          op.apply (VersionOp.run (setBucketVersioning cache b enabled true).2 pre) := by
        simp [VersionOp.run]
      rw [hrun, reported_apply, Option.mem_def.mp hstatus] at hafter
      exact hafter
  · rintro ⟨hfits, hleaves⟩ before hbefore
    have hreported := reported_run (setBucketVersioning cache b enabled true).2 b before
    have hgoal : (reported (VersionOp.run (setBucketVersioning cache b enabled true).2 before)
        b).enabled = enabled := by
      rw [hreported]
      cases hlast : (before.filterMap (VersionOp.leaves b)).getLast? with
      | none =>
        rw [Option.getD_none, hset]
        cases enabled with
        | true => rw [if_pos (hfits rfl)]
        | false => split <;> rfl
      | some status =>
        obtain ⟨op, hop, hstatus⟩ := List.mem_filterMap.mp (List.mem_of_getLast? hlast)
        exact hleaves op (hbefore.subset hop) status hstatus
    exact hgoal

/-- The names of two buckets of one slot. -/
example : versioningCacheHash (cstr "bcb") = versioningCacheHash (cstr "cac") := by decide

/-- **An enabled bucket is reported as disabled.**  Versioning is enabled for `bcb`, the status of
`cac` is looked up, and `bcb` is not versioned any more. -/
theorem getBucketVersioning_lost :
    (setBucketVersioning (fun _ => none) (cstr "bcb") true true).1 = true ∧
    (getBucketVersioning (VersionOp.run
      (setBucketVersioning (fun _ => none) (cstr "bcb") true true).2 [.get (cstr "cac")])
      (cstr "bcb")).1.enabled = false := by
  decide

end Buckets
