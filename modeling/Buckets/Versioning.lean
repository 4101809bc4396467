/-
# `storage/versioning.c`: the versions of an object

A version has a directory `versions/<id>` at the object's path, a delete marker a file
`versions/<id>.delete` beside it, and the link `versions/.latest` names the version created last.
That is the layout; what the code does with it is less:

* `buckets_put_object_versioned` makes the directory and then stores the object at the UNVERSIONED
  path (its "move written data to version directory" is a comment), so there is nothing in it;
* the `xl.meta` of a version is at `versions/<id>xl.meta`, the path `buckets_write_xl_meta` builds
  from a version path without its slash, and only delete markers have one;
* `buckets_delete_version` drops the link when it names the version deleted, and a read without an
  id then falls back to the unversioned object.

The storage layer below (`buckets_put_object_with_metadata`, `buckets_get_object`) is a parameter:
nothing here depends on what it does.  The other file operations succeed.

`Meets` says what a history of versions asks of the reads; `versionRun_meets_iff` when it is so.
-/
import Buckets.ObjectRuns

namespace Buckets

/-! ## 1. Files and operations -/

/-- The files below `versions/` of one object. -/
structure VersionFiles (Text : Type) where
  dir : CString → Bool
  part : CString → ℕ → Option Bytes
  marker : CString → Bool
  xlMeta : CString → Option Text
  latest : Option CString

/-- No versions directory. -/
def VersionFiles.empty {Text : Type} : VersionFiles Text :=
  ⟨fun _ => false, fun _ _ => none, fun _ => false, fun _ => none, none⟩

/-- The object's key in the storage layer: `buckets_put_object_with_metadata` and
`buckets_get_object`. -/
structure ObjectStore (W : Type) where
  put : W → Bytes → XlMeta → Bool × W
  get : W → Option Bytes

/-- The versions of the object and the storage layer. -/
structure VersionStore (Text W : Type) where
  files : VersionFiles Text
  world : W

/-- What `buckets_get_object_by_version` returns: 0 with the data, -1, or -2. -/
inductive GetVersion where
  | data (bytes : Bytes)
  | error
  | deleteMarker
deriving DecidableEq

/-- `base64_decode_version`: the size is rounded in another place than in `base64_decode`. -/
def base64DecodeVersion (encoded : CString) : Bytes :=
  (decodeLoop encoded).take (encoded.length * 3 / 4 - paddingOf encoded)

section Operations

variable {F : Type} [Field F] (prims : Prims F) {W : Type} (store : ObjectStore W)

/-- `buckets_put_object_versioned`, with the id it generates. -/
def putObjectVersioned (s : VersionStore prims.cjson.Text W) (id : CString) (data : Bytes)
    (base : Option XlMeta) (now : CString) : Bool × VersionStore prims.cjson.Text W :=
  let files := { s.files with dir := Function.update s.files.dir id true }
  let base := base.getD {}
  let versionMeta : XlMeta :=
    { base with
      version := 1
      format := cstr "xl"
      stat := ⟨data.length, charArray 32 now⟩
      versioning := { base.versioning with
        versionId := some id, isLatest := true, isDeleteMarker := false } }
  let result := store.put s.world data versionMeta
  (result.1, ⟨if result.1 then { files with latest := some id } else files, result.2⟩)

/-- `buckets_delete_object_versioned`, with the id it generates. -/
def deleteObjectVersioned (s : VersionStore prims.cjson.Text W) (id now : CString) :
    VersionStore prims.cjson.Text W :=
  let markerMeta : XlMeta :=
    { version := 1
      format := cstr "xl"
      stat := ⟨0, charArray 32 now⟩
      versioning := { versionId := some id, isLatest := true, isDeleteMarker := true } }
  { s with files := { s.files with
    dir := Function.update s.files.dir id true
    marker := Function.update s.files.marker id true
    xlMeta := Function.update s.files.xlMeta id
      (some (prims.cjson.print (xlMetaToJson markerMeta)))
    latest := some id } }

/-- `get_latest_version_id`: the link, read into 36 bytes. -/
def getLatestVersionId {Text : Type} (files : VersionFiles Text) : Option CString :=
  files.latest.map (charArray 37)

/-- `buckets_delete_version`: the marker file and the directory with its parts, not the
`xl.meta`. -/
def deleteVersion {Text : Type} (s : VersionStore Text W) (id : CString) : VersionStore Text W :=
  { s with files := { s.files with
    dir := Function.update s.files.dir id false
    part := Function.update s.files.part id fun _ => none
    marker := Function.update s.files.marker id false
    latest := if getLatestVersionId s.files = some id then none else s.files.latest } }

/-- `buckets_get_object_by_version` on one version, its parts read from its directory. -/
def readVersion (files : VersionFiles prims.cjson.Text) (junk : Junk) (id : CString) : GetVersion :=
  if files.marker id then .deleteMarker
  else
    match ((files.xlMeta id).bind prims.cjson.parse).map xlMetaFromJson with
    | none => .error
    | some xl =>
      match xl.inlineData with
      | some text => .data (base64DecodeVersion text)
      | none =>
        let k := xl.erasure.data
        let m := xl.erasure.parity
        if k = 0 ∨ m = 0 ∨ xl.erasure.blockSize = 0 then .error
        else
          let chunks i := if i < k + m then files.part id (i + 1) else none
          if (present (k + m) chunks).length < k then .error
          else
            match ecInit prims.isal k m with
            | none => .error
            | some ctx =>
              match ecDecode ctx junk.oob chunks xl.erasure.blockSize
                  ((List.range xl.stat.size).map junk.fresh) xl.stat.size with
              | none => .error
              | some data => .data data

/-- `buckets_get_object_by_version`. -/
def getObjectByVersion (s : VersionStore prims.cjson.Text W) (junk : Junk)
    (versionId : Option CString) : GetVersion :=
  match versionId.or (getLatestVersionId s.files) with
  | some id => readVersion prims s.files junk id
  | none =>
    match store.get s.world with
    | some data => .data data
    | none => .error

/-! ## 2. Histories -/

/-- An operation on the object. -/
inductive VersionedOp where
  | put (id : CString) (data : Bytes) (base : Option XlMeta) (now : CString)
  | delete (id now : CString)
  | deleteVersion (id : CString)

/-- The id an operation generates. -/
def VersionedOp.newId : VersionedOp → Option CString
  | put id _ _ _ => some id
  | delete id _ => some id
  | deleteVersion _ => none

/-- A version: the bytes of a put, or a delete marker. -/
structure Version where
  id : CString
  contents : Option Bytes
deriving DecidableEq

/-- What a read of the version should return. -/
def Version.expected (v : Version) : GetVersion :=
  match v.contents with
  | some data => .data data
  | none => .deleteMarker

/-- A run: the files, all versions ever created, and those that still exist, newest first. -/
structure VersionRun (Text W : Type) where
  store : VersionStore Text W
  created : List Version
  existing : List Version

namespace VersionRun

variable {prims store}

/-- A new version. -/
def add {Text : Type} (r : VersionRun Text W) (v : Version) (s : VersionStore Text W) :
    VersionRun Text W :=
  ⟨s, v :: r.created, v :: r.existing⟩

variable (prims store)

/-- One operation; a put that fails makes no version. -/
def step (r : VersionRun prims.cjson.Text W) : VersionedOp → VersionRun prims.cjson.Text W
  | .put id data base now =>
    let result := putObjectVersioned prims store r.store id data base now
    if result.1 then r.add ⟨id, some data⟩ result.2 else { r with store := result.2 }
  | .delete id now => r.add ⟨id, none⟩ (deleteObjectVersioned prims r.store id now)
  | .deleteVersion id =>
    { r with
      store := Buckets.deleteVersion r.store id
      existing := r.existing.filter fun v => v.id ≠ id }

/-- The operations one after the other, on an object without versions. -/
def run (world : W) (ops : List VersionedOp) : VersionRun prims.cjson.Text W :=
  ops.foldl (step prims store) ⟨⟨.empty, world⟩, [], []⟩

/-- What a history asks of the reads: every put that exists is read by its id, and without an id the
newest version that exists is. -/
def Meets (r : VersionRun prims.cjson.Text W) : Prop :=
  (∀ v ∈ r.existing, ∀ data, v.contents = some data → ∀ junk,
    getObjectByVersion prims store r.store junk (some v.id) = .data data) ∧
  ∀ v, r.existing.head? = some v → ∀ junk,
    getObjectByVersion prims store r.store junk none = v.expected

end VersionRun

/-- The shape of a version id: as long as a UUID, and one component of a path. -/
def IsVersionId (id : CString) : Prop :=
  id.length = 36 ∧ 0x2F ∉ id

instance (id : CString) : Decidable (IsVersionId id) :=
  inferInstanceAs (Decidable (id.length = 36 ∧ 0x2F ∉ id))

/-- The ids are those of a generator of distinct UUIDs, and hard deletes are of such ids: another
text (`..`, say) would be a path to other files. -/
structure IssuedIds (ops : List VersionedOp) : Prop where
  nodup : (ops.filterMap VersionedOp.newId).Nodup
  issued : ∀ id ∈ ops.filterMap VersionedOp.newId, IsVersionId id
  deleted : ∀ id, VersionedOp.deleteVersion id ∈ ops → IsVersionId id

/-- The rest of a run. -/
theorem IssuedIds.tail {op : VersionedOp} {ops : List VersionedOp} (h : IssuedIds (op :: ops)) :
    IssuedIds ops := by
  have hsub : (ops.filterMap VersionedOp.newId).Sublist
      ((op :: ops).filterMap VersionedOp.newId) := (List.sublist_cons_self op ops).filterMap _
  exact ⟨h.nodup.sublist hsub, fun id hid => h.issued id (hsub.subset hid),
    fun id hid => h.deleted id (List.mem_cons_of_mem op hid)⟩

/-! ## 3. What the files say about the history -/

namespace VersionRun

variable {r : VersionRun prims.cjson.Text W}

/-- **The invariant.**  A put leaves nothing that a read by its id finds, a marker that exists has
its file, and the link names the version created last as long as it exists. -/
structure Inv (r : VersionRun prims.cjson.Text W) : Prop where
  unseen : ∀ id, id ∉ r.created.map Version.id →
    r.store.files.marker id = false ∧ r.store.files.xlMeta id = none
  puts : ∀ v ∈ r.created, v.contents ≠ none →
    r.store.files.marker v.id = false ∧ r.store.files.xlMeta v.id = none
  markers : ∀ v ∈ r.existing, v.contents = none → r.store.files.marker v.id = true
  latest : r.store.files.latest =
    (r.created.head?.filter fun v => v ∈ r.existing).map Version.id
  subset : r.existing ⊆ r.created
  length : ∀ v ∈ r.created, v.id.length = 36

theorem inv_start (world : W) :
    Inv prims (⟨⟨.empty, world⟩, [], []⟩ : VersionRun prims.cjson.Text W) where
  unseen := fun _ _ => ⟨rfl, rfl⟩
  puts := by simp
  markers := by simp
  latest := rfl
  subset := List.Subset.refl _
  length := by simp

/-- A version with a new id, when only the files of that id and the link have changed. -/
theorem Inv.add (h : Inv prims r) {v : Version} {s : VersionStore prims.cjson.Text W}
    (hfresh : v.id ∉ r.created.map Version.id) (hlength : v.id.length = 36)
    (hlatest : s.files.latest = some v.id)
    (hothers : ∀ id, id ≠ v.id → s.files.marker id = r.store.files.marker id ∧
      s.files.xlMeta id = r.store.files.xlMeta id)
    (hput : v.contents ≠ none → s.files.marker v.id = false ∧ s.files.xlMeta v.id = none)
    (hmarker : v.contents = none → s.files.marker v.id = true) : Inv prims (r.add v s) where
  unseen := by
    intro id hid
    simp only [VersionRun.add, List.map_cons, List.mem_cons, not_or] at hid
    rw [VersionRun.add, (hothers id hid.1).1, (hothers id hid.1).2]
    exact h.unseen id hid.2
  puts := by
    intro w hw hcontents
    rcases List.mem_cons.mp hw with rfl | hmem
    · exact hput hcontents
    · have hne : w.id ≠ v.id := fun heq => hfresh (heq ▸ List.mem_map_of_mem hmem)
      rw [VersionRun.add, (hothers _ hne).1, (hothers _ hne).2]
      exact h.puts w hmem hcontents
  markers := by
    intro w hw hcontents
    rcases List.mem_cons.mp hw with rfl | hmem
    · exact hmarker hcontents
    · have hne : w.id ≠ v.id := fun heq => hfresh (heq ▸ List.mem_map_of_mem (h.subset hmem))
      rw [VersionRun.add, (hothers _ hne).1]
      exact h.markers w hmem hcontents
  latest := by simp [VersionRun.add, hlatest]
  subset := List.cons_subset_cons _ h.subset
  length := by
    intro w hw
    rcases List.mem_cons.mp hw with rfl | hmem
    · exact hlength
    · exact h.length w hmem

/-- A version is deleted for good. -/
theorem Inv.deleteVersion (h : Inv prims r) (id : CString) :
    Inv prims (r.step prims store (.deleteVersion id)) where
  unseen := by
    intro id' hid'
    obtain ⟨hmarker, hmeta⟩ := h.unseen id' hid'
    refine ⟨?_, hmeta⟩
    simp only [step, Buckets.deleteVersion, Function.update_apply, hmarker, ite_self]
  puts := by
    intro v hv hcontents
    obtain ⟨hmarker, hmeta⟩ := h.puts v hv hcontents
    refine ⟨?_, hmeta⟩
    simp only [step, Buckets.deleteVersion, Function.update_apply, hmarker, ite_self]
  markers := by
    intro v hv hcontents
    obtain ⟨hmem, hne⟩ := List.mem_filter.mp hv
    simp only [step, Buckets.deleteVersion]
    rw [Function.update_of_ne (of_decide_eq_true hne)]
    exact h.markers v hmem hcontents
  latest := by
    have hold := h.latest
    cases hhead : r.created.head? with
    | none =>
      rw [hhead] at hold
      simp only [step, Buckets.deleteVersion, hhead, hold]
      exact ite_self _
    | some v =>
      have hname : charArray 37 v.id = v.id :=
        charArray_of_lt (by rw [h.length v (List.mem_of_head? hhead)]; decide)
      rw [hhead] at hold
      simp only [step, Buckets.deleteVersion, getLatestVersionId, hhead, hold]
      -- the link is there if the version exists, and is dropped with it
      by_cases hexists : v ∈ r.existing
      · by_cases hid : v.id = id
        · subst hid
          simp [hexists, hname, Option.filter]
        · simp [hexists, hid, hname, Option.filter]
      · simp [hexists, Option.filter]
  subset := fun v hv => h.subset (List.mem_filter.mp hv).1
  length := h.length

/-- One operation keeps the invariant. -/
theorem Inv.step (h : Inv prims r) (op : VersionedOp)
    (hfresh : ∀ id ∈ op.newId, id ∉ r.created.map Version.id ∧ id.length = 36) :
    Inv prims (r.step prims store op) := by
  cases op with
  | put id data base now =>
    obtain ⟨hnew, hlength⟩ := hfresh id rfl
    simp only [VersionRun.step, putObjectVersioned]
    split
    case isTrue hstored =>
      exact h.add prims hnew hlength rfl (fun _ _ => ⟨rfl, rfl⟩) (fun _ => h.unseen id hnew)
        fun hnone => absurd hnone (by simp)
    case isFalse => exact ⟨h.unseen, h.puts, h.markers, h.latest, h.subset, h.length⟩
  | delete id now =>
    obtain ⟨hnew, hlength⟩ := hfresh id rfl
    refine h.add prims hnew hlength rfl (fun id' hne => ?_) (fun hsome => absurd rfl hsome)
      fun _ => Function.update_self ..
    exact ⟨Function.update_of_ne hne .., Function.update_of_ne hne ..⟩
  | deleteVersion id => exact h.deleteVersion prims store id

/-- An operation creates at most the version of its new id. -/
theorem created_step (r : VersionRun prims.cjson.Text W) (op : VersionedOp) {id : CString}
    (h : id ∈ (r.step prims store op).created.map Version.id) :
    id ∈ r.created.map Version.id ∨ op.newId = some id := by
  cases op with
  | put new data base now =>
    simp only [VersionRun.step] at h
    split at h
    · rcases List.mem_cons.mp h with rfl | hmem
      · exact Or.inr rfl
      · exact Or.inl hmem
    · exact Or.inl h
  | delete new now =>
    rcases List.mem_cons.mp h with rfl | hmem
    · exact Or.inr rfl
    · exact Or.inl hmem
  | deleteVersion old => exact Or.inl h

/-- The invariant along a run whose ids are new to it. -/
theorem Inv.foldl (h : Inv prims r) {ops : List VersionedOp} (hids : IssuedIds ops)
    (hfresh : ∀ id ∈ ops.filterMap VersionedOp.newId, id ∉ r.created.map Version.id) :
    Inv prims (ops.foldl (VersionRun.step prims store) r) := by
  induction ops generalizing r with
  | nil => exact h
  | cons op ops ih =>
    have hmem : ∀ id ∈ op.newId, id ∈ (op :: ops).filterMap VersionedOp.newId := by
      intro id hid
      exact List.mem_filterMap.mpr ⟨op, List.mem_cons_self .., hid⟩
    refine ih (h.step prims store op fun id hid => ?_) hids.tail fun id hid hcreated => ?_
    · exact ⟨hfresh id (hmem id hid), (hids.issued id (hmem id hid)).1⟩
    · rcases created_step prims store r op hcreated with hold | hnew
      · obtain ⟨op', hop', hid'⟩ := List.mem_filterMap.mp hid
        exact hfresh id (List.mem_filterMap.mpr ⟨op', List.mem_cons_of_mem _ hop', hid'⟩) hold
      · -- the id is issued twice
        have hnodup := hids.nodup
        rw [List.filterMap_cons_some hnew] at hnodup
        exact (List.nodup_cons.mp hnodup).1 hid

/-! ## 4. Reads -/

/-- A put is never found by its id. -/
theorem Inv.read_put (h : Inv prims r) {v : Version} (hv : v ∈ r.created)
    (hput : v.contents ≠ none) (junk : Junk) :
    getObjectByVersion prims store r.store junk (some v.id) = .error := by
  obtain ⟨hmarker, hmeta⟩ := h.puts v hv hput
  simp [getObjectByVersion, readVersion, hmarker, hmeta]

/-- Without an id, if the version created last exists it is the one looked for. -/
theorem Inv.read_latest (h : Inv prims r) {v : Version} (hhead : r.created.head? = some v)
    (hv : v ∈ r.existing) (junk : Junk) :
    getObjectByVersion prims store r.store junk none =
      if v.contents = none then .deleteMarker else .error := by
  have hname : charArray 37 v.id = v.id :=
    charArray_of_lt (by rw [h.length v (List.mem_of_head? hhead)]; decide)
  have hlatest : getLatestVersionId r.store.files = some v.id := by
    rw [getLatestVersionId, h.latest, hhead]
    simp [hv, hname]
  have hread : getObjectByVersion prims store r.store junk none =
      getObjectByVersion prims store r.store junk (some v.id) := by
    simp [getObjectByVersion, hlatest]
  rw [hread]
  split
  case isTrue hmarker =>
    simp [getObjectByVersion, readVersion, h.markers v hv hmarker]
  case isFalse hput => exact h.read_put prims store (List.mem_of_head? hhead) hput junk

/-- Without an id and a link, the unversioned object is read. -/
theorem Inv.read_unversioned (h : Inv prims r)
    (hgone : ∀ v, r.created.head? = some v → v ∉ r.existing) (junk : Junk) :
    getObjectByVersion prims store r.store junk none ≠ .deleteMarker := by
  have hlatest : getLatestVersionId r.store.files = none := by
    rw [getLatestVersionId, h.latest]
    cases hhead : r.created.head? with
    | none => rfl
    | some v => simp [hgone v hhead]
  simp only [getObjectByVersion, hlatest, Option.or_none]
  cases store.get r.store.world <;> simp

/-- **When the reads agree with the history.** -/
theorem Inv.meets_iff (h : Inv prims r) :
    r.Meets prims store ↔ (∀ v ∈ r.existing, v.contents = none) ∧
      (r.existing = [] ∨ ∃ v ∈ r.existing, r.created.head? = some v) := by
  let junk : Junk := ⟨fun _ _ => 0, fun _ => 0⟩
  constructor
  · rintro ⟨hputs, hnewest⟩
    have hmarkers : ∀ v ∈ r.existing, v.contents = none := by
      intro v hv
      by_contra hput
      obtain ⟨data, hdata⟩ := Option.ne_none_iff_exists'.mp hput
      have hread := hputs v hv data hdata junk
      rw [h.read_put prims store (h.subset hv) hput] at hread
      cases hread
    refine ⟨hmarkers, ?_⟩
    rcases hexisting : r.existing with _ | ⟨newest, older⟩
    · exact Or.inl rfl
    · refine Or.inr ?_
      by_contra hgone
      push Not at hgone
      have hread := hnewest newest (by rw [hexisting]; rfl) junk
      rw [Version.expected, hmarkers newest (by rw [hexisting]; simp)] at hread
      exact h.read_unversioned prims store (fun v hhead hv => hgone v (hexisting ▸ hv) hhead)
        junk hread
  · rintro ⟨hmarkers, hlast⟩
    refine ⟨fun v hv data hdata => ?_, fun v hnewest junk => ?_⟩
    · rw [hmarkers v hv] at hdata
      cases hdata
    · have hv : v ∈ r.existing := List.mem_of_head? hnewest
      obtain ⟨last, hexists, hhead⟩ := hlast.resolve_left (List.ne_nil_of_mem hv)
      rw [h.read_latest prims store hhead hexists junk, if_pos (hmarkers last hexists),
        Version.expected, hmarkers v hv]

end VersionRun

/-- **Reads of versions.**  After any run of versioned puts, versioned deletes and deletes of
versions, the reads are what the history asks for EXACTLY IF no put's version exists any more, and
the version created last does if any does. -/
theorem versionRun_meets_iff (world : W) (ops : List VersionedOp) (hids : IssuedIds ops) :
    (VersionRun.run prims store world ops).Meets prims store ↔
      (∀ v ∈ (VersionRun.run prims store world ops).existing, v.contents = none) ∧
      ((VersionRun.run prims store world ops).existing = [] ∨
        ∃ v ∈ (VersionRun.run prims store world ops).existing,
          (VersionRun.run prims store world ops).created.head? = some v) :=
  ((VersionRun.inv_start prims world).foldl prims store hids (by simp)).meets_iff prims store

end Operations

/-! ## 5. Two runs -/

/-- A storage layer that keeps the last put. -/
def ObjectStore.last : ObjectStore (Option Bytes) :=
  ⟨fun _ data _ => (true, some data), id⟩

/-- A version id. -/
def firstId : CString := cstr "00000000-0000-4000-8000-000000000000"

def secondId : CString := cstr "00000000-0000-4000-8000-000000000001"

/-- A put, the deletion of its version, and a delete. -/
def putAndDelete : List VersionedOp :=
  [.put firstId [120] none [], .deleteVersion firstId, .delete secondId []]

theorem issuedIds_putAndDelete : IssuedIds putAndDelete where
  nodup := by decide
  issued := by decide
  deleted := by
    intro id hid
    have hfirst : id = firstId := by simpa [putAndDelete] using hid
    rw [hfirst]
    decide

theorem issuedIds_put (data : Bytes) : IssuedIds [.put firstId data none []] where
  nodup := List.nodup_singleton _
  issued := by
    intro id hid
    rw [List.mem_singleton.mp hid]
    decide
  deleted := by simp

/-- With the put's version deleted, the marker is read as one. -/
theorem versionRun_meets_marker :
    (VersionRun.run Prims.reference .last none putAndDelete).existing = [⟨secondId, none⟩] ∧
      (VersionRun.run Prims.reference .last none putAndDelete).Meets Prims.reference .last := by
  have hexisting : (VersionRun.run Prims.reference .last none putAndDelete).existing =
      [⟨secondId, none⟩] := rfl
  refine ⟨hexisting,
    (versionRun_meets_iff Prims.reference .last none _ issuedIds_putAndDelete).mpr ⟨?_, ?_⟩⟩
  · intro v hv
    rw [hexisting, List.mem_singleton] at hv
    rw [hv]
  · exact Or.inr ⟨⟨secondId, none⟩, List.mem_singleton.mpr rfl, rfl⟩

/-- **A version is not read.**  One versioned put of the byte `x` succeeds, and the read of the id
it returned is an error; so is the read without an id. -/
theorem versionRun_put_not_read :
    IssuedIds [.put firstId [120] none []] ∧
      (VersionRun.run Prims.reference .last none [.put firstId [120] none []]).existing =
        [⟨firstId, some [120]⟩] ∧
      ∀ junk,
        getObjectByVersion Prims.reference .last
          (VersionRun.run Prims.reference .last none [.put firstId [120] none []]).store junk
          (some firstId) = .error ∧
        getObjectByVersion Prims.reference .last
          (VersionRun.run Prims.reference .last none [.put firstId [120] none []]).store junk
          none = .error :=
  ⟨issuedIds_put _, rfl, fun _ => ⟨rfl, rfl⟩⟩

end Buckets
