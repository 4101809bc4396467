/-
# The cache of object metadata

`metadata_cache.c` keeps parsed `xl.meta` records, at most `max_size` of them, the one used last in
front.  An entry is found by its KEY, the text `bucket/object` or `bucket/object/versionId`, and it
holds a copy made by `clone_xl_meta`; a hit returns a copy of that copy.

A hit should return the metadata that was last put for the same bucket, object and version.  Two
things stand between it and that:

* the key does not determine the triple: with a slash in the object's name the object `o/v` and the
  version `v` of the object `o` have one key, and names beyond `PATH_MAX` are cut;
* `clone_xl_meta` says "Deep clone" and leaves nine fields out.

`lastUnder` is what the calls so far last put under a key.

* `metadataItems_own`: every entry is the copy of what was last put UNDER ITS KEY;
* `clone_eq_iff`: which records the copy leaves as they are;
* `metadataCacheGet_own_iff`: a hit is of the triple's own metadata, in every field, exactly when
  the last put under the key was of this triple and of such a record.
-/
import Buckets.XlMeta
import Buckets.Lib.Lru

namespace Buckets

open Lru (Item lookup without)

/-! ## 1. The key -/

/-- What a record is cached for; without a version it is the latest. -/
structure CacheTriple where
  bucket : CString
  object : CString
  versionId : Option CString := none
  deriving DecidableEq

/-- `create_cache_key`, in a buffer of `PATH_MAX` bytes. -/
def createCacheKey (t : CacheTriple) : CString :=
  match t.versionId with
  | some versionId =>
    charArray 4096 (t.bucket ++ cstr "/" ++ t.object ++ cstr "/" ++ versionId)
  | none => charArray 4096 (t.bucket ++ cstr "/" ++ t.object)

/-! ## 2. The copy -/

/-- What lies in memory behind the two arrays of a record, where a copy may read on. -/
structure Beyond where
  distribution : ℕ → ℕ
  checksums : ℕ → Checksum

/-- The copy of an array as one of `count` entries; no array is the empty list. -/
def copyArray {α : Type} (count : ℕ) (beyond : ℕ → α) (entries : List α) : List α :=
  if entries = [] then [] else (List.range count).map fun i => entries.getD i (beyond i)

/-- `data + parity`, in a `u32`. -/
def XlErasure.count (erasure : XlErasure) : ℕ := (erasure.data + erasure.parity) % 2 ^ 32

/-- `clone_xl_meta`. -/
def cloneXlMeta (beyond : Beyond) (src : XlMeta) : XlMeta where
  version := src.version
  format := src.format
  stat := src.stat
  erasure := {
    algorithm := src.erasure.algorithm
    data := src.erasure.data
    parity := src.erasure.parity
    blockSize := src.erasure.blockSize
    index := src.erasure.index
    distribution := copyArray src.erasure.count beyond.distribution src.erasure.distribution
    checksums := copyArray src.erasure.count beyond.checksums src.erasure.checksums }
  userMeta := { contentType := src.userMeta.contentType, etag := src.userMeta.etag }
  versioning := {
    versionId := src.versioning.versionId
    isLatest := src.versioning.isLatest
    isDeleteMarker := src.versioning.isDeleteMarker }
  inlineData := src.inlineData

/-- The records a copy leaves as they are: the fields that it does not copy are unset, and an array
that is there has the length the copy takes it to have. -/
structure Clonable (src : XlMeta) : Prop where
  bucket : src.bucket = none
  object : src.object = none
  cacheControl : src.userMeta.cacheControl = none
  contentDisposition : src.userMeta.contentDisposition = none
  contentEncoding : src.userMeta.contentEncoding = none
  contentLanguage : src.userMeta.contentLanguage = none
  expires : src.userMeta.expires = none
  user : src.userMeta.user = []
  deleteMarkerVersionId : src.versioning.deleteMarkerVersionId = none
  distribution : src.erasure.distribution = [] ∨ src.erasure.distribution.length = src.erasure.count
  checksums : src.erasure.checksums = [] ∨ src.erasure.checksums.length = src.erasure.count

theorem copyArray_eq_iff {α : Type} (count : ℕ) (beyond : ℕ → α) (entries : List α) :
    copyArray count beyond entries = entries ↔ entries = [] ∨ entries.length = count := by
  by_cases hnil : entries = []
  · simp [copyArray, hnil]
  · rw [copyArray, if_neg hnil]
    constructor
    · intro h
      have hlength := congrArg List.length h
      rw [List.length_map, List.length_range] at hlength
      exact .inr hlength.symm
    · rintro (h | rfl)
      · exact absurd h hnil
      · apply List.ext_getElem
        · simp
        · intro i _ hi
          simp [hi]

theorem copyArray_copyArray {α : Type} (count : ℕ) (beyond beyond' : ℕ → α) (entries : List α) :
    copyArray count beyond' (copyArray count beyond entries) = copyArray count beyond entries := by
  rw [copyArray_eq_iff]
  by_cases hnil : entries = []
  · exact .inl (by simp [copyArray, hnil])
  · exact .inr (by simp [copyArray, hnil])

theorem clone_clone (beyond beyond' : Beyond) (src : XlMeta) :
    cloneXlMeta beyond' (cloneXlMeta beyond src) = cloneXlMeta beyond src := by
  have hcount : (cloneXlMeta beyond src).erasure.count = src.erasure.count := rfl
  simp only [cloneXlMeta] at hcount ⊢
  rw [hcount, copyArray_copyArray, copyArray_copyArray]

/-- **What the copy keeps.** -/
theorem clone_eq_iff (beyond : Beyond) (src : XlMeta) :
    cloneXlMeta beyond src = src ↔ Clonable src := by
  constructor
  · intro h
    have herasure := congrArg XlMeta.erasure h
    have huser := congrArg XlMeta.userMeta h
    exact {
      bucket := (congrArg XlMeta.bucket h).symm
      object := (congrArg XlMeta.object h).symm
      cacheControl := (congrArg XlUserMeta.cacheControl huser).symm
      contentDisposition := (congrArg XlUserMeta.contentDisposition huser).symm
      contentEncoding := (congrArg XlUserMeta.contentEncoding huser).symm
      contentLanguage := (congrArg XlUserMeta.contentLanguage huser).symm
      expires := (congrArg XlUserMeta.expires huser).symm
      user := (congrArg XlUserMeta.user huser).symm
      deleteMarkerVersionId :=
        (congrArg (fun xl => xl.versioning.deleteMarkerVersionId) h).symm
      distribution := (copyArray_eq_iff _ _ _).mp (congrArg XlErasure.distribution herasure)
      checksums := (copyArray_eq_iff _ _ _).mp (congrArg XlErasure.checksums herasure) }
  · intro h
    rw [cloneXlMeta, (copyArray_eq_iff _ _ _).mpr h.distribution,
      (copyArray_eq_iff _ _ _).mpr h.checksums]
    obtain ⟨version, format, bucket, object, stat, erasure, userMeta, versioning, inlineData⟩ := src
    obtain ⟨contentType, etag, control, disposition, encoding, language, expires, user⟩ := userMeta
    obtain ⟨versionId, isLatest, isDeleteMarker, marker⟩ := versioning
    obtain ⟨rfl, rfl, rfl, rfl, rfl, rfl, rfl, rfl, rfl, -, -⟩ := h
    rfl

/-! ## 3. The calls -/

/-- The cache; the hash chains and the list through the entries are one list here, the entry used
last in front.  The `expiry` of an item is the timestamp of its entry and `ttl_seconds`. -/
structure MetadataCache where
  maxSize : ℕ
  ttlSeconds : ℕ
  items : List (Item CString XlMeta)

/-- `buckets_metadata_cache_init`. -/
def metadataCacheInit (maxSize ttlSeconds : ℕ) : MetadataCache where
  maxSize := if 0 < maxSize then maxSize else 10000
  ttlSeconds := if 0 < ttlSeconds then ttlSeconds else 300
  items := []

/-- `buckets_metadata_cache_get`: the cache after it, and on a hit the metadata.  The clock is read
before the copy is made and again after it. -/
def metadataCacheGet (cache : MetadataCache) (t : CacheTriple) (now later : ℤ) (beyond : Beyond) :
    MetadataCache × Option XlMeta :=
  match lookup cache.items (createCacheKey t) with
  | none => (cache, none)
  | some item =>
    -- an entry that is too old stays where it is
    if item.expiry < now then (cache, none)
    else
      ({ cache with
          items := { item with expiry := later + cache.ttlSeconds } ::
            without cache.items (createCacheKey t) },
        some (cloneXlMeta beyond item.value))

/-- `buckets_metadata_cache_put`. -/
def metadataCachePut (cache : MetadataCache) (t : CacheTriple) (xl : XlMeta) (now : ℤ)
    (beyond : Beyond) : MetadataCache :=
  { cache with
    items := Lru.put cache.maxSize cache.ttlSeconds cache.items (createCacheKey t)
      (cloneXlMeta beyond xl) now }

/-- `buckets_metadata_cache_invalidate`; whether there was an entry. -/
def metadataCacheInvalidate (cache : MetadataCache) (t : CacheTriple) : MetadataCache × Bool :=
  match lookup cache.items (createCacheKey t) with
  | none => (cache, false)
  | some _ => ({ cache with items := without cache.items (createCacheKey t) }, true)

/-- A call. -/
inductive MetadataCall where
  | get (t : CacheTriple) (now later : ℤ) (beyond : Beyond)
  | put (t : CacheTriple) (xl : XlMeta) (now : ℤ) (beyond : Beyond)
  | invalidate (t : CacheTriple)

def metadataStep (cache : MetadataCache) : MetadataCall → MetadataCache
  | .get t now later beyond => (metadataCacheGet cache t now later beyond).1
  | .put t xl now beyond => metadataCachePut cache t xl now beyond
  | .invalidate t => (metadataCacheInvalidate cache t).1

/-- The cache after the calls of `log`, the latest of them first. -/
def metadataRun (maxSize ttlSeconds : ℕ) : List MetadataCall → MetadataCache
  | [] => metadataCacheInit maxSize ttlSeconds
  | call :: log => metadataStep (metadataRun maxSize ttlSeconds log) call

/-! ## 4. What was put -/

/-- The metadata last put for the triple, unless it was invalidated since. -/
def lastPut : List MetadataCall → CacheTriple → Option XlMeta
  | [], _ => none
  | .get _ _ _ _ :: log, t => lastPut log t
  | .put t' xl _ _ :: log, t => if t' = t then some xl else lastPut log t
  | .invalidate t' :: log, t => if t' = t then none else lastPut log t

/-- The triple and the metadata of the last put under the key, unless a triple of this key was
invalidated since. -/
def lastUnder : List MetadataCall → CString → Option (CacheTriple × XlMeta)
  | [], _ => none
  | .get _ _ _ _ :: log, key => lastUnder log key
  | .put t' xl _ _ :: log, key =>
    if createCacheKey t' = key then some (t', xl) else lastUnder log key
  | .invalidate t' :: log, key => if createCacheKey t' = key then none else lastUnder log key

/-- Where the last put under a triple's key is its own, it is the last of the triple. -/
theorem lastPut_of_lastUnder {log : List MetadataCall} {t : CacheTriple} {xl : XlMeta}
    (h : lastUnder log (createCacheKey t) = some (t, xl)) : lastPut log t = some xl := by
  induction log with
  | nil => exact absurd h (by simp [lastUnder])
  | cons call log ih =>
    cases call with
    | get t' now later beyond => exact ih h
    | put t' xl' now beyond =>
      rw [lastUnder] at h
      rw [lastPut]
      split at h
      · obtain ⟨rfl, rfl⟩ := Prod.mk.inj (Option.some.inj h)
        rw [if_pos rfl]
      · rename_i hkey
        rw [if_neg fun heq => hkey (by rw [heq])]
        exact ih h
    | invalidate t' =>
      rw [lastUnder] at h
      rw [lastPut]
      split at h
      · exact absurd h (by simp)
      · rename_i hkey
        rw [if_neg fun heq => hkey (by rw [heq])]
        exact ih h

/-! ## 5. The entries -/

/-- An entry is the copy of what `log` last put under its key. -/
def Own (log : List MetadataCall) (item : Item CString XlMeta) : Prop :=
  ∃ t xl beyond, lastUnder log item.key = some (t, xl) ∧ item.value = cloneXlMeta beyond xl

theorem mem_items_get {cache : MetadataCache} {t : CacheTriple} {now later : ℤ} {beyond : Beyond}
    {item : Item CString XlMeta} (h : item ∈ (metadataCacheGet cache t now later beyond).1.items) :
    ∃ before ∈ cache.items, item.key = before.key ∧ item.value = before.value := by
  rw [metadataCacheGet] at h
  cases hlookup : lookup cache.items (createCacheKey t) with
  | none =>
    rw [hlookup] at h
    exact ⟨item, h, rfl, rfl⟩
  | some found =>
    simp only [hlookup] at h
    split at h
    · exact ⟨item, h, rfl, rfl⟩
    · rcases List.mem_cons.mp h with rfl | h
      · exact ⟨found, List.mem_of_find?_eq_some hlookup, rfl, rfl⟩
      · exact ⟨item, (List.mem_filter.mp h).1, rfl, rfl⟩

theorem mem_items_invalidate {cache : MetadataCache} {t : CacheTriple} {item : Item CString XlMeta}
    (h : item ∈ (metadataCacheInvalidate cache t).1.items) :
    item ∈ cache.items ∧ item.key ≠ createCacheKey t := by
  rw [metadataCacheInvalidate] at h
  cases hlookup : lookup cache.items (createCacheKey t) with
  | none =>
    rw [hlookup] at h
    exact ⟨h, Lru.lookup_eq_none.mp hlookup item h⟩
  | some found =>
    rw [hlookup] at h
    exact ⟨(List.mem_filter.mp h).1, Lru.key_ne_of_mem_without h⟩

theorem own_step {log : List MetadataCall} {cache : MetadataCache}
    (h : ∀ item ∈ cache.items, Own log item) (call : MetadataCall) :
    ∀ item ∈ (metadataStep cache call).items, Own (call :: log) item := by
  intro item hitem
  cases call with
  | get t now later beyond =>
    obtain ⟨before, hbefore, hkey, hvalue⟩ := mem_items_get hitem
    obtain ⟨t', xl, beyond', hlast, hcopy⟩ := h before hbefore
    exact ⟨t', xl, beyond', by rw [lastUnder, hkey, hlast], by rw [hvalue, hcopy]⟩
  | put t xl now beyond =>
    obtain ⟨rest, hput, hsub, hne⟩ := Lru.put_eq_cons cache.maxSize cache.ttlSeconds cache.items
      (createCacheKey t) (cloneXlMeta beyond xl) now
    rw [metadataStep, metadataCachePut, hput] at hitem
    rcases List.mem_cons.mp hitem with rfl | hitem
    · exact ⟨t, xl, beyond, by rw [lastUnder, if_pos rfl], rfl⟩
    · obtain ⟨t', xl', beyond', hlast, hcopy⟩ := h item (hsub.subset hitem)
      exact ⟨t', xl', beyond', by rw [lastUnder, if_neg (hne item hitem).symm, hlast], hcopy⟩
  | invalidate t =>
    obtain ⟨hmem, hne⟩ := mem_items_invalidate hitem
    obtain ⟨t', xl, beyond, hlast, hcopy⟩ := h item hmem
    exact ⟨t', xl, beyond, by rw [lastUnder, if_neg hne.symm, hlast], hcopy⟩

/-- **Every entry is a copy of what was last put under its key**, after any calls. -/
theorem metadataItems_own (maxSize ttlSeconds : ℕ) (log : List MetadataCall) :
    ∀ item ∈ (metadataRun maxSize ttlSeconds log).items, Own log item := by
  induction log with
  | nil =>
    intro item hitem
    exact absurd hitem (by simp [metadataRun, metadataCacheInit])
  | cons call log ih => exact own_step ih call

/-- A hit returns a copy of what was last put under the key. -/
theorem metadataCacheGet_hit {maxSize ttlSeconds : ℕ} {log : List MetadataCall} {t : CacheTriple}
    {now later : ℤ} {beyond : Beyond} {xl : XlMeta}
    (h : (metadataCacheGet (metadataRun maxSize ttlSeconds log) t now later beyond).2 = some xl) :
    ∃ t' put beyond', lastUnder log (createCacheKey t) = some (t', put) ∧
      xl = cloneXlMeta beyond' put := by
  rw [metadataCacheGet] at h
  cases hlookup : lookup (metadataRun maxSize ttlSeconds log).items (createCacheKey t) with
  | none => simp [hlookup] at h
  | some item =>
    simp only [hlookup] at h
    split at h
    · exact absurd h (by simp)
    · obtain ⟨t', put, beyond', hlast, hcopy⟩ :=
        metadataItems_own maxSize ttlSeconds log item (List.mem_of_find?_eq_some hlookup)
      rw [Lru.key_of_lookup hlookup] at hlast
      refine ⟨t', put, beyond', hlast, ?_⟩
      rw [← Option.some.inj h, hcopy, clone_clone]

/-! ## 6. Which hits are right -/

/-- What a hit should return: the metadata last put for the triple, out of an entry that was put for
this triple and no other. -/
def HitsOwn (log : List MetadataCall) (t : CacheTriple) (xl : XlMeta) : Prop :=
  lastPut log t = some xl ∧ (lastUnder log (createCacheKey t)).map Prod.fst = some t

/-- **Which hits are right.**  After any calls, with any clocks and sizes, a hit returns the
triple's own metadata in every field exactly when the last put under the key was for this triple and
its record has nothing that the copy leaves out. -/
theorem metadataCacheGet_own_iff (maxSize ttlSeconds : ℕ) (log : List MetadataCall)
    (t : CacheTriple) (now later : ℤ) (beyond : Beyond) (xl : XlMeta)
    (hit : (metadataCacheGet (metadataRun maxSize ttlSeconds log) t now later beyond).2 = some xl) :
    HitsOwn log t xl ↔ ∃ put, lastUnder log (createCacheKey t) = some (t, put) ∧ Clonable put := by
  obtain ⟨t', put, beyond', hlast, hcopy⟩ := metadataCacheGet_hit hit
  constructor
  · rintro ⟨hput, hown⟩
    rw [hlast] at hown
    obtain rfl : t' = t := Option.some.inj hown
    -- the metadata last put for the triple is what is under its key
    have heq : put = xl := Option.some.inj ((lastPut_of_lastUnder hlast).symm.trans hput)
    refine ⟨put, hlast, (clone_eq_iff beyond' put).mp ?_⟩
    rw [← hcopy, heq]
  · rintro ⟨put', hown, hclonable⟩
    obtain ⟨rfl, rfl⟩ := Prod.mk.inj (Option.some.inj (hlast.symm.trans hown))
    rw [(clone_eq_iff beyond' put).mpr hclonable] at hcopy
    subst hcopy
    exact ⟨lastPut_of_lastUnder hlast, by rw [hlast]; rfl⟩

def behind : Beyond := ⟨fun _ => 0, fun _ => ⟨[], []⟩⟩

def catTriple : CacheTriple := ⟨cstr "photos", cstr "cat", none⟩

theorem metadataCacheGet_own_size :
    HitsOwn [.put catTriple { version := 1, stat := { size := 3 } } 100 behind] catTriple
      { version := 1, stat := { size := 3 } } :=
  (metadataCacheGet_own_iff 0 0 _ catTriple 101 101 behind _ rfl).mpr
    ⟨_, rfl, ⟨rfl, rfl, rfl, rfl, rfl, rfl, rfl, rfl, rfl, .inl rfl, .inl rfl⟩⟩

/-- A record as a put of `photos/cat` makes it. -/
def catRecord : XlMeta where
  version := 1
  bucket := some (cstr "photos")
  object := some (cstr "cat")
  userMeta := { etag := some (cstr "e"), user := [(cstr "color", cstr "grey")] }

/-- Of the record of `photos/cat` the bucket, the object's name and the user's metadata are gone;
and the version `v` of `photos/cat` is answered with the object `photos/cat/v`, that was never put
for it. -/
theorem metadataCacheGet_not_own :
    (metadataCacheGet (metadataRun 0 0 [.put catTriple catRecord 100 behind]) catTriple 101 101
        behind).2 = some { version := 1, userMeta := { etag := some (cstr "e") } } ∧
    ¬ HitsOwn [.put catTriple catRecord 100 behind] catTriple
        { version := 1, userMeta := { etag := some (cstr "e") } } ∧
    (metadataCacheGet
      (metadataRun 0 0 [.put ⟨cstr "photos", cstr "cat/v", none⟩ catRecord 100 behind])
      ⟨cstr "photos", cstr "cat", some (cstr "v")⟩ 101 101 behind).2 =
        some { version := 1, userMeta := { etag := some (cstr "e") } } ∧
    lastPut [.put ⟨cstr "photos", cstr "cat/v", none⟩ catRecord 100 behind]
      ⟨cstr "photos", cstr "cat", some (cstr "v")⟩ = none := by
  refine ⟨rfl, ?_, rfl, by decide⟩
  rintro ⟨hput, -⟩
  have hlast : lastPut [.put catTriple catRecord 100 behind] catTriple = some catRecord := rfl
  have hbucket := congrArg XlMeta.bucket (Option.some.inj (hlast.symm.trans hput))
  exact absurd hbucket (by decide)

end Buckets
