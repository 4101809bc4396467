/-
# Listing the objects of a bucket: `buckets_s3_list_objects_v1` and `_v2`

Both listings collect the names of a bucket, sort them, and write a page of XML: the names behind a
marker, until `max-keys` were written or the 65536 bytes of the buffer are NEARLY FULL.  The two
ways to stop are noticed differently.  A full buffer sets `is_truncated` in the loop itself;
otherwise a second loop counts its way to the last name written and looks whether the sorted array
goes on behind it.

The versions differ in the elements before the names and in the names of the parameters that carry
the marker, and share everything else (`listPage`).  A page that does not fit its buffer is an error
here: what the code does then is not defined.

`listPage_continues` says that a page is a front of the names behind its marker, and
`listObjects_pages` that asking again and again returns them all.
-/
import Mathlib.Data.List.Sort
import Buckets.Lib.Paging
import Buckets.Lib.Strtoull
import Buckets.Lib.CStr
import Buckets.Registry

namespace Buckets

/-! ## 1. Parameters -/

/-- `get_query_param`. -/
def getQueryParam (query : List (CString × CString)) (key : String) : Option CString :=
  (query.find? fun pair => pair.1 == cstr key).map Prod.snd

/-- `get_query_param_int`: a decimal number from 0 to `INT_MAX` and nothing behind it, or else the
default. -/
def getQueryParamInt (query : List (CString × CString)) (key : String) (default : ℤ) : ℤ :=
  match getQueryParam query key with
  | none => default
  | some value =>
    let signed := Strtoull.sign (value.dropWhile Strtoull.isSpace)
    let digits := Strtoull.digits 10 signed.2
    if digits.length = 0 ∨ digits.length < signed.2.length then default
    else
      let number : ℤ := Strtoull.value 10 digits
      let result := if signed.1 then -number else number
      if result < 0 ∨ result > 2 ^ 31 - 1 then default else result

/-- The bounds both listings put on `max-keys`. -/
def clampMaxKeys (maxKeys : ℤ) : ℕ :=
  if maxKeys ≤ 0 then 1000 else if maxKeys > 1000 then 1000 else maxKeys.toNat

theorem clampMaxKeys_pos (maxKeys : ℤ) : 0 < clampMaxKeys maxKeys := by
  unfold clampMaxKeys
  split
  · omega
  · split <;> omega

/-! ## 2. Collecting -/

/-- `object_entry_t`, with what the listings use of its `stat`; the size, printed as `long`, has no
bound here. -/
structure ObjectEntry where
  name : CString
  size : ℕ
  mtime : ℤ

/-- `compare_objects`. -/
def compareObjects (a b : ObjectEntry) : ℤ := CStr.strcmp a.name b.name

/-- What the listings use of the C library. -/
structure ListLibc where
  /-- `gmtime` and `strftime` with `"%Y-%m-%dT%H:%M:%S.000Z"`. -/
  timestamp : ℤ → CString
  /-- `qsort` with `compare_objects`. -/
  qsort : List ObjectEntry → List ObjectEntry
  qsort_perm : ∀ objects, (qsort objects).Perm objects
  qsort_sorted : ∀ objects, (qsort objects).Pairwise fun a b => compareObjects a b ≤ 0

/-- The entry made of a location: not for other versions than `latest`. -/
def entryOf (loc : RegistryLocation) : Option ObjectEntry :=
  loc.object.bind fun object =>
    if loc.versionId.any fun v => v ≠ cstr "latest" then none
    else some ⟨charArray 1024 object, loc.size, loc.modTime⟩

/-- `collect_objects_from_registry`, from what `buckets_registry_list` returned; an error there is
an empty bucket. -/
def collectObjectsFromRegistry (libc : ListLibc) (locations : Option (List RegistryLocation)) :
    List ObjectEntry :=
  libc.qsort ((locations.getD []).filterMap entryOf)

/-! ## 3. A page -/

/-- `"  <tag>%s</tag>\n"`. -/
def element (tag : String) (text : CString) : CString :=
  cstr "  <" ++ cstr tag ++ cstr ">" ++ text ++ cstr "</" ++ cstr tag ++ cstr ">\n"

/-- `"%0<width>lx"`. -/
def hexPadded (width n : ℕ) : CString :=
  let digits := (Nat.digits 16 n).reverse.map hexDigit
  List.replicate (width - digits.length) 48 ++ digits

/-- The `ETag` made up from size and time. -/
def listedEtag (obj : ObjectEntry) : CString :=
  cstr "\"" ++ hexPadded 16 obj.size ++ hexPadded 8 (obj.mtime % 2 ^ 64).toNat ++ cstr "\""

/-- The element of one object. -/
def contentsXml (libc : ListLibc) (obj : ObjectEntry) : CString :=
  cstr "  <Contents>\n" ++
  cstr "    <Key>" ++ obj.name ++ cstr "</Key>\n" ++
  cstr "    <LastModified>" ++ libc.timestamp obj.mtime ++ cstr "</LastModified>\n" ++
  cstr "    <ETag>" ++ listedEtag obj ++ cstr "</ETag>\n" ++
  cstr "    <Size>" ++ Strtoull.printDec obj.size ++ cstr "</Size>\n" ++
  cstr "    <StorageClass>STANDARD</StorageClass>\n" ++
  cstr "  </Contents>\n"

/-- `sizeof(xml_body)`. -/
def xmlBodySize : ℕ := 65536

/-- The object is not behind the marker. -/
def skips (marker : Option CString) (obj : ObjectEntry) : Bool :=
  marker.any fun m => CStr.strcmp obj.name m ≤ 0

/-- The variables of the loop that writes the names; `count` is the number of names, and `offset`
the length of the body. -/
structure ListState where
  xmlBody : CString
  names : List CString
  isTruncated : Bool
  nextMarker : CString

/-- The loop that writes the names. -/
def listContents (libc : ListLibc) (marker : Option CString) (maxKeys : ℕ) :
    List ObjectEntry → ListState → ListState
  | [], st => st
  | obj :: rest, st =>
    if maxKeys ≤ st.names.length then st
    else if skips marker obj then listContents libc marker maxKeys rest st
    else
      let st : ListState :=
        { xmlBody := st.xmlBody ++ contentsXml libc obj
          names := st.names ++ [obj.name]
          isTruncated := st.isTruncated
          nextMarker := charArray 1024 obj.name }
      if xmlBodySize - 1000 ≤ st.xmlBody.length then { st with isTruncated := true }
      else listContents libc marker maxKeys rest st

/-- The loop that looks for more behind the last name written. -/
def moreBehind (marker : Option CString) (count : ℕ) : List ObjectEntry → ℤ → Bool
  | [], _ => false
  | obj :: rest, lastIdx =>
    if skips marker obj then moreBehind marker count rest lastIdx
    else if lastIdx + 1 ≥ (count : ℤ) - 1 then !rest.isEmpty
    else moreBehind marker count rest (lastIdx + 1)

/-- A page as the client reads it, and its text. -/
structure ListPage where
  names : List CString
  isTruncated : Bool
  next : Option CString
  body : CString

inductive ListError where
  | invalidBucketName
  | overflow

/-- The end of a page. -/
def closePage (nextTag : String) (st : ListState) (isTruncated : Bool) : ListPage :=
  let next := if isTruncated && !st.nextMarker.isEmpty then some st.nextMarker else none
  { names := st.names
    isTruncated := isTruncated
    next := next
    body := st.xmlBody ++ element "IsTruncated" (cstr (if isTruncated then "true" else "false")) ++
      next.elim [] (element nextTag) ++ cstr "</ListBucketResult>\n" }

/-- Everything from the names on, behind the elements of the version. -/
def listPage (libc : ListLibc) (header : CString) (nextTag : String) (marker : Option CString)
    (maxKeys : ℕ) (objects : List ObjectEntry) : Except ListError ListPage :=
  let st := listContents libc marker maxKeys objects ⟨header, [], false, []⟩
  let page := closePage nextTag st
    (st.isTruncated || moreBehind marker st.names.length objects (-1))
  if page.body.length < xmlBodySize then .ok page else .error .overflow

/-! ## 4. The two versions -/

/-- The elements both versions start with. -/
def headXml (bucket : CString) (pre : Option CString) : CString :=
  cstr "<?xml version=\"1.0\" encoding=\"UTF-8\"?>\n" ++
  cstr "<ListBucketResult xmlns=\"http://s3.amazonaws.com/doc/2006-03-01/\">\n" ++
  element "Name" bucket ++ element "Prefix" (pre.getD [])

/-- `buckets_s3_list_objects_v1`. -/
def s3ListObjectsV1 (libc : ListLibc) (bucket : CString) (query : List (CString × CString))
    (locations : Option (List RegistryLocation)) : Except ListError ListPage :=
  if bucket = [] then .error .invalidBucketName
  else
    let marker := getQueryParam query "marker"
    let maxKeys := clampMaxKeys (getQueryParamInt query "max-keys" 1000)
    let header := headXml bucket (getQueryParam query "prefix") ++
      element "Marker" (marker.getD []) ++ element "MaxKeys" (Strtoull.printDec maxKeys)
    listPage libc header "NextMarker" marker maxKeys (collectObjectsFromRegistry libc locations)

/-- The first pass of version 2, for `KeyCount`. -/
def keyCount (marker : Option CString) (maxKeys : ℕ) : List ObjectEntry → ℕ → ℕ
  | [], count => count
  | obj :: rest, count =>
    if maxKeys ≤ count then count
    else if skips marker obj then keyCount marker maxKeys rest count
    else keyCount marker maxKeys rest (count + 1)

/-- `buckets_s3_list_objects_v2`. -/
def s3ListObjectsV2 (libc : ListLibc) (bucket : CString) (query : List (CString × CString))
    (locations : Option (List RegistryLocation)) : Except ListError ListPage :=
  if bucket = [] then .error .invalidBucketName
  else
    let continuationToken := getQueryParam query "continuation-token"
    let startAfter := getQueryParam query "start-after"
    let maxKeys := clampMaxKeys (getQueryParamInt query "max-keys" 1000)
    let marker := continuationToken.or startAfter
    let objects := collectObjectsFromRegistry libc locations
    let header := headXml bucket (getQueryParam query "prefix") ++
      element "KeyCount" (Strtoull.printDec (keyCount marker maxKeys objects 0)) ++
      element "MaxKeys" (Strtoull.printDec maxKeys) ++
      continuationToken.elim [] (element "ContinuationToken") ++
      startAfter.elim [] (element "StartAfter")
    listPage libc header "NextContinuationToken" marker maxKeys objects

/-! ## 5. A page is a front of the names behind its marker -/

section Pages

variable {libc : ListLibc} {marker : Option CString} {maxKeys : ℕ} {objects : List ObjectEntry}

/-- The entries behind the marker. -/
def entriesBehind (marker : Option CString) (objects : List ObjectEntry) : List ObjectEntry :=
  objects.filter fun obj => !skips marker obj

theorem entriesBehind_cons_skipped {obj : ObjectEntry} (h : skips marker obj = true) :
    entriesBehind marker (obj :: objects) = entriesBehind marker objects :=
  List.filter_cons_of_neg (by simp [h])

theorem entriesBehind_cons {obj : ObjectEntry} (h : skips marker obj = false) :
    entriesBehind marker (obj :: objects) = obj :: entriesBehind marker objects :=
  List.filter_cons_of_pos (by simp [h])

theorem map_name_entriesBehind (marker : Option CString) (objects : List ObjectEntry) :
    (entriesBehind marker objects).map ObjectEntry.name =
      Paging.behind (· < ·) marker (objects.map ObjectEntry.name) := by
  rw [Paging.behind, List.filter_map, entriesBehind]
  congr 1
  refine List.filter_congr fun obj _ => ?_
  cases marker with
  | none => rfl
  | some m =>
    rw [Bool.eq_iff_iff]
    simp [skips, ← CStr.strcmp_pos_iff]

/-- What the first loop has done when it ends: it wrote `n` more names, and if it did not stop for
the buffer these are as many as there were or were asked for. -/
structure Wrote (maxKeys : ℕ) (entries : List ObjectEntry) (st st' : ListState) (n : ℕ) : Prop where
  names : st'.names = st.names ++ (entries.take n).map ObjectEntry.name
  all : st'.isTruncated = false → n = maxKeys - st.names.length
  notEmpty : st'.isTruncated = true → 0 < n ∧ n ≤ entries.length
  next : st'.nextMarker =
    ((entries.take n).getLast?.map fun obj => charArray 1024 obj.name).getD st.nextMarker

/-- The state after one name. -/
def ListState.write (libc : ListLibc) (st : ListState) (obj : ObjectEntry) : ListState :=
  ⟨st.xmlBody ++ contentsXml libc obj, st.names ++ [obj.name], st.isTruncated,
    charArray 1024 obj.name⟩

/-- One more name in front. -/
theorem Wrote.cons {st st' : ListState} {obj : ObjectEntry} {entries : List ObjectEntry} {n : ℕ}
    (h : Wrote maxKeys entries (st.write libc obj) st' n) (hroom : st.names.length < maxKeys) :
    Wrote maxKeys (obj :: entries) st st' (n + 1) where
  names := by
    rw [h.names]
    simp [ListState.write]
  all := by
    intro hend
    have hn := h.all hend
    simp only [ListState.write, List.length_append, List.length_singleton] at hn
    omega
  notEmpty := by
    intro hend
    have hn := h.notEmpty hend
    rw [List.length_cons]
    omega
  next := by
    rw [h.next, List.take_succ_cons, List.getLast?_cons]
    cases (entries.take n).getLast? <;> rfl

/-- **The first loop.** -/
theorem listContents_wrote {st : ListState} (htruncated : st.isTruncated = false)
    (hcount : st.names.length ≤ maxKeys) :
    ∃ n, Wrote maxKeys (entriesBehind marker objects) st
      (listContents libc marker maxKeys objects st) n := by
  induction objects generalizing st with
  | nil =>
    refine ⟨maxKeys - st.names.length, ?_, fun _ => rfl, fun h => ?_, ?_⟩
    · simp [listContents, entriesBehind]
    · rw [listContents, htruncated] at h
      cases h
    · simp [listContents, entriesBehind]
  | cons obj rest ih =>
    rw [listContents]
    split
    · refine ⟨0, by simp, fun _ => by omega, fun h => ?_, rfl⟩
      rw [htruncated] at h
      cases h
    · rename_i hroom
      have hlt : st.names.length < maxKeys := by omega
      cases hskips : skips marker obj with
      | true =>
        rw [entriesBehind_cons_skipped hskips, if_pos rfl]
        exact ih htruncated hcount
      | false =>
        rw [entriesBehind_cons hskips, if_neg Bool.false_ne_true, ← ListState.write]
        dsimp only
        split
        · -- the buffer is nearly full: this was the last name
          exact ⟨1, by simp [ListState.write], by simp, fun _ => ⟨one_pos, by simp⟩, rfl⟩
        · have hnext : (st.write libc obj).names.length ≤ maxKeys := by
            rw [ListState.write, List.length_append, List.length_singleton]
            exact hlt
          obtain ⟨n, hwrote⟩ := @ih (st.write libc obj) htruncated hnext
          exact ⟨n + 1, hwrote.cons hlt⟩

/-- **The second loop**, from the last name but `k` on. -/
theorem moreBehind_eq {count k : ℕ} (hk : 0 < k)
    (hbehind : ∀ obj ∈ objects, skips marker obj = false) :
    moreBehind marker count objects ((count : ℤ) - 1 - k) = decide (k < objects.length) := by
  induction objects generalizing k with
  | nil => simp [moreBehind]
  | cons obj rest ih =>
    rw [moreBehind, hbehind obj (List.mem_cons_self ..), if_neg Bool.false_ne_true]
    split
    · have hone : k = 1 := by omega
      subst hone
      cases rest <;> simp
    · have hrest := ih (k := k - 1) (by omega) fun o ho => hbehind o (List.mem_cons_of_mem obj ho)
      rw [show (count : ℤ) - 1 - k + 1 = (count : ℤ) - 1 - ((k - 1 : ℕ) : ℤ) by omega, hrest,
        List.length_cons]
      exact decide_eq_decide.mpr (by omega)

/-- Behind an entry that is behind the marker, all are. -/
theorem skips_mono {a b : ObjectEntry} (h : skips marker a = false) (hle : compareObjects a b ≤ 0) :
    skips marker b = false := by
  cases marker with
  | none => rfl
  | some m =>
    simp only [skips, Option.any_some, decide_eq_false_iff_not, CStr.strcmp_pos_iff] at h ⊢
    rcases CStr.strcmp_nonpos_iff.mp hle with hlt | heq
    · exact List.lt_trans h hlt
    · rwa [← heq]

theorem skips_of_mem_entriesBehind {obj : ObjectEntry} (h : obj ∈ entriesBehind marker objects) :
    skips marker obj = false := by
  simpa using (List.mem_filter.mp h).2

/-- In a sorted array the entries that are skipped come first. -/
theorem moreBehind_entriesBehind (hsorted : objects.Pairwise fun a b => compareObjects a b ≤ 0)
    (count : ℕ) (lastIdx : ℤ) :
    moreBehind marker count objects lastIdx =
      moreBehind marker count (entriesBehind marker objects) lastIdx := by
  induction objects with
  | nil => rfl
  | cons obj rest ih =>
    obtain ⟨hfirst, hrest⟩ := List.pairwise_cons.mp hsorted
    cases hskips : skips marker obj with
    | true =>
      rw [entriesBehind_cons_skipped hskips, ← ih hrest, moreBehind, if_pos hskips]
    | false =>
      have hall : entriesBehind marker rest = rest := by
        refine List.filter_eq_self.mpr fun o ho => ?_
        rw [skips_mono hskips (hfirst o ho)]
        rfl
      rw [entriesBehind_cons hskips, hall]

/-- The second loop finds that there is more exactly if there is. -/
theorem moreBehind_iff (hsorted : objects.Pairwise fun a b => compareObjects a b ≤ 0) {count : ℕ}
    (hcount : count ≤ (entriesBehind marker objects).length)
    (hsome : entriesBehind marker objects ≠ [] → 0 < count) :
    moreBehind marker count objects (-1) = true ↔
      count < (entriesBehind marker objects).length := by
  rw [moreBehind_entriesBehind hsorted]
  rcases Nat.eq_zero_or_pos count with rfl | hpos
  · have hnone : entriesBehind marker objects = [] := by
      by_contra hne
      exact absurd (hsome hne) (by omega)
    simp [hnone, moreBehind]
  · have hmore : moreBehind marker count (entriesBehind marker objects) ((count : ℤ) - 1 - count) =
        _ := moreBehind_eq hpos fun obj => skips_of_mem_entriesBehind
    rw [show (count : ℤ) - 1 - count = -1 by omega] at hmore
    rw [hmore, decide_eq_true_iff]

/-- What the client reads. -/
def ListPage.toPage (page : ListPage) : Paging.Page CString :=
  ⟨page.names, page.isTruncated, page.next⟩

section Closing

variable (hsorted : objects.Pairwise fun a b => a.name < b.name) (hmax : 0 < maxKeys)
  {header : CString} {st : ListState} {n : ℕ}
  (hwrote : Wrote maxKeys (entriesBehind marker objects) ⟨header, [], false, []⟩ st n)

include hwrote

theorem Wrote.names_eq : st.names = ((entriesBehind marker objects).take n).map ObjectEntry.name :=
  hwrote.names

theorem Wrote.length_names : st.names.length = min n (entriesBehind marker objects).length := by
  rw [hwrote.names_eq, List.length_map, List.length_take]

include hsorted hmax

theorem Wrote.moreBehind_iff (hend : st.isTruncated = false) :
    moreBehind marker st.names.length objects (-1) = true ↔
      st.names.length < (entriesBehind marker objects).length := by
  have hlength := hwrote.length_names
  have hn : n = maxKeys := hwrote.all hend
  have hle : objects.Pairwise fun a b => compareObjects a b ≤ 0 :=
    hsorted.imp fun hlt => CStr.strcmp_nonpos_iff.mpr (.inl hlt)
  refine Buckets.moreBehind_iff hle (by omega) fun hne => ?_
  have hpos := List.length_pos_iff.mpr hne
  omega

/-- A page that says there is more has a name. -/
theorem Wrote.take_ne_nil
    (h : (st.isTruncated || moreBehind marker st.names.length objects (-1)) = true) :
    (entriesBehind marker objects).take n ≠ [] := by
  rw [← List.length_pos_iff, List.length_take]
  cases hend : st.isTruncated with
  | true =>
    have hsome := hwrote.notEmpty hend
    omega
  | false =>
    rw [hend, Bool.false_or] at h
    have hlt := (hwrote.moreBehind_iff hsorted hmax hend).mp h
    have hn : n = maxKeys := hwrote.all hend
    omega

/-- The page of a state the first loop ends with. -/
theorem Wrote.closePage_continues
    (hnames : ∀ obj ∈ objects, obj.name ≠ [] ∧ obj.name.length < 1024) (nextTag : String) :
    (closePage nextTag st
      (st.isTruncated || moreBehind marker st.names.length objects (-1))).toPage.Continues
      (Paging.behind (· < ·) marker (objects.map ObjectEntry.name)) := by
  rw [← map_name_entriesBehind]
  refine ⟨⟨((entriesBehind marker objects).drop n).map ObjectEntry.name, ?_, ?_⟩, ?_⟩
  · change _ = st.names ++ _
    rw [hwrote.names_eq, ← List.map_append, List.take_append_drop]
  · intro hend
    obtain ⟨hfull, hlast⟩ := Bool.or_eq_false_iff.mp hend
    have hnot : ¬ st.names.length < (entriesBehind marker objects).length := by
      rw [← hwrote.moreBehind_iff hsorted hmax hfull, hlast]
      exact Bool.false_ne_true
    have hlength := hwrote.length_names
    rw [List.drop_eq_nil_of_le (by omega), List.map_nil]
  · intro htruncated
    obtain ⟨last, hlast⟩ := Option.isSome_iff_exists.mp
      (List.getLast?_isSome.mpr (hwrote.take_ne_nil hsorted hmax htruncated))
    obtain ⟨hname, hfits⟩ := hnames last
      (List.mem_filter.mp (List.mem_of_mem_take (List.mem_of_getLast? hlast))).1
    have hnext : st.nextMarker = last.name := by
      rw [hwrote.next, hlast, Option.map_some, Option.getD_some, charArray_of_lt hfits]
    refine ⟨last.name, ?_, ?_⟩
    · change st.names.getLast? = _
      rw [hwrote.names_eq, List.getLast?_map, hlast, Option.map_some]
    · change (if _ then some st.nextMarker else none) = _
      rw [hnext, if_pos]
      rw [Bool.and_eq_true_iff]
      exact ⟨htruncated, by simpa using hname⟩

end Closing

/-- **A page is a front of the names behind its marker.** -/
theorem listPage_continues {header : CString} {nextTag : String} {page : ListPage}
    (hsorted : objects.Pairwise fun a b => a.name < b.name)
    (hnames : ∀ obj ∈ objects, obj.name ≠ [] ∧ obj.name.length < 1024) (hmax : 0 < maxKeys)
    (hpage : listPage libc header nextTag marker maxKeys objects = .ok page) :
    page.toPage.Continues (Paging.behind (· < ·) marker (objects.map ObjectEntry.name)) := by
  obtain ⟨n, hwrote⟩ := @listContents_wrote libc marker maxKeys objects ⟨header, [], false, []⟩ rfl
    (Nat.zero_le _)
  unfold listPage at hpage
  generalize listContents libc marker maxKeys objects ⟨header, [], false, []⟩ = st at hwrote hpage
  dsimp only at hpage
  split at hpage
  · obtain rfl := Except.ok.inj hpage
    exact hwrote.closePage_continues hsorted hmax hnames nextTag
  · cases hpage

/-- A page that fits is read. -/
theorem listPage_read {header : CString} {nextTag : String}
    (hsorted : objects.Pairwise fun a b => a.name < b.name)
    (hnames : ∀ obj ∈ objects, obj.name ≠ [] ∧ obj.name.length < 1024) (hmax : 0 < maxKeys)
    (hfits : listPage libc header nextTag marker maxKeys objects ≠ .error .overflow) :
    ∃ page, (listPage libc header nextTag marker maxKeys objects).toOption.map ListPage.toPage =
        some page ∧
      page.Continues (Paging.behind (· < ·) marker (objects.map ObjectEntry.name)) := by
  cases hpage : listPage libc header nextTag marker maxKeys objects with
  | ok page => exact ⟨page.toPage, rfl, listPage_continues hsorted hnames hmax hpage⟩
  | error e =>
    rw [hpage] at hfits
    cases e with
    | overflow => exact absurd rfl hfits
    | invalidBucketName =>
      unfold listPage at hpage
      dsimp only at hpage
      split at hpage <;> cases hpage

end Pages

/-! ## 6. The names are sorted -/

/-- The names of the entries fit their array. -/
theorem name_length_of_mem_collect {libc : ListLibc} {locations : Option (List RegistryLocation)}
    {obj : ObjectEntry} (h : obj ∈ collectObjectsFromRegistry libc locations) :
    obj.name.length < 1024 := by
  obtain ⟨loc, -, hloc⟩ := List.mem_filterMap.mp ((libc.qsort_perm _).mem_iff.mp h)
  obtain ⟨object, -, hobject⟩ := Option.bind_eq_some_iff.mp hloc
  split at hobject
  · cases hobject
  · obtain rfl := Option.some.inj hobject
    have hlength := List.length_take_le 1023 object
    exact Nat.lt_of_le_of_lt hlength (by decide)

/-- Distinct names are sorted strictly. -/
theorem collect_sorted (libc : ListLibc) {locations : Option (List RegistryLocation)}
    (hnodup : ((collectObjectsFromRegistry libc locations).map ObjectEntry.name).Nodup) :
    (collectObjectsFromRegistry libc locations).Pairwise fun a b => a.name < b.name := by
  refine (libc.qsort_sorted _).imp₂ ?_ (List.pairwise_map.mp hnodup)
  intro a b hle hne
  rcases CStr.strcmp_nonpos_iff.mp hle with hlt | heq
  · exact hlt
  · exact absurd heq hne

/-! ## 7. Page after page -/

/-- The query of a client that has a marker, or none yet. -/
def withParam (query : List (CString × CString)) (key : String) (value : Option CString) :
    List (CString × CString) :=
  query ++ (value.map fun v => (cstr key, v)).toList

theorem getQueryParam_withParam {query : List (CString × CString)} {key : String}
    (h : getQueryParam query key = none) (value : Option CString) :
    getQueryParam (withParam query key value) key = value := by
  have hnone := Option.map_eq_none_iff.mp h
  rw [getQueryParam, withParam, List.find?_append, hnone, Option.none_or]
  cases value <;> simp

theorem getQueryParam_withParam_ne {key other : String} (h : cstr other ≠ cstr key)
    (query : List (CString × CString)) (value : Option CString) :
    getQueryParam (withParam query other value) key = getQueryParam query key := by
  rw [getQueryParam, withParam, List.find?_append]
  cases value <;> simp [h, getQueryParam]

/-- What the client reads of the `n`th call of version 1. -/
def pageV1 (libc : ListLibc) (bucket : CString) (query : List (CString × CString))
    (locations : ℕ → Option (List RegistryLocation)) (n : ℕ) (marker : Option CString) :
    Option (Paging.Page CString) :=
  (s3ListObjectsV1 libc bucket (withParam query "marker" marker) (locations n)).toOption.map
    ListPage.toPage

/-- What the client reads of the `n`th call of version 2. -/
def pageV2 (libc : ListLibc) (bucket : CString) (query : List (CString × CString))
    (locations : ℕ → Option (List RegistryLocation)) (n : ℕ) (marker : Option CString) :
    Option (Paging.Page CString) :=
  (s3ListObjectsV2 libc bucket (withParam query "continuation-token" marker)
    (locations n)).toOption.map ListPage.toPage

/-- The collected names: at each call the same, distinct and not empty. -/
structure Collected (libc : ListLibc) (locations : ℕ → Option (List RegistryLocation))
    (names : List CString) : Prop where
  perm : ∀ n, ((collectObjectsFromRegistry libc (locations n)).map ObjectEntry.name).Perm names
  nodup : names.Nodup
  nonempty : ∀ name ∈ names, name ≠ []

/-- No page overflows its buffer. -/
structure XmlFits (libc : ListLibc) (bucket : CString) (query : List (CString × CString))
    (locations : ℕ → Option (List RegistryLocation)) (names : List CString) : Prop where
  v1 : ∀ n (marker : Option CString), (∀ m ∈ marker, m ∈ names) →
    s3ListObjectsV1 libc bucket (withParam query "marker" marker) (locations n) ≠ .error .overflow
  v2 : ∀ n (marker : Option CString), (∀ m ∈ marker, m ∈ names) →
    s3ListObjectsV2 libc bucket (withParam query "continuation-token" marker) (locations n) ≠
      .error .overflow

section Client

variable {libc : ListLibc} {bucket : CString} {query : List (CString × CString)}
  {locations : ℕ → Option (List RegistryLocation)} {names : List CString}

theorem Collected.nodup_names (h : Collected libc locations names) (n : ℕ) :
    ((collectObjectsFromRegistry libc (locations n)).map ObjectEntry.name).Nodup :=
  (h.perm n).nodup_iff.mpr h.nodup

theorem Collected.sorted (h : Collected libc locations names) (n : ℕ) :
    ((collectObjectsFromRegistry libc (locations n)).map ObjectEntry.name).Pairwise (· < ·) :=
  List.pairwise_map.mpr (collect_sorted libc (h.nodup_names n))

/-- Every call sorts to the same names. -/
theorem Collected.names_eq (h : Collected libc locations names) (n : ℕ) :
    (collectObjectsFromRegistry libc (locations n)).map ObjectEntry.name =
      (collectObjectsFromRegistry libc (locations 0)).map ObjectEntry.name := by
  refine List.Perm.eq_of_pairwise ?_ (h.sorted n) (h.sorted 0) ((h.perm n).trans (h.perm 0).symm)
  intro a b _ _ hab hba
  exact absurd (List.lt_trans hab hba) (List.lt_irrefl a)

theorem Collected.entries (h : Collected libc locations names) (n : ℕ) :
    ∀ obj ∈ collectObjectsFromRegistry libc (locations n),
      obj.name ≠ [] ∧ obj.name.length < 1024 := by
  intro obj hobj
  have hname : obj.name ∈ names := (h.perm n).mem_iff.mp (List.mem_map_of_mem hobj)
  exact ⟨h.nonempty _ hname, name_length_of_mem_collect hobj⟩

/-- A client that reads a front each time reads all. -/
theorem Collected.readAll (h : Collected libc locations names)
    {call : ℕ → Option CString → Option (Paging.Page CString)}
    (hcall : ∀ n (marker : Option CString), (∀ m ∈ marker, m ∈ names) →
      ∃ page, call n marker = some page ∧ page.Continues (Paging.behind (· < ·) marker
        ((collectObjectsFromRegistry libc (locations 0)).map ObjectEntry.name))) :
    Paging.readAll call (names.length + 1) 0 none =
      some ((collectObjectsFromRegistry libc (locations 0)).map ObjectEntry.name) := by
  have htrans : ∀ a b c : CString, a < b → b < c → a < c := fun _ _ _ => List.lt_trans
  have hfuel : (Paging.behind (· < ·) none
      ((collectObjectsFromRegistry libc (locations 0)).map ObjectEntry.name)).length <
        names.length + 1 := by
    rw [Paging.behind_none, (h.perm 0).length_eq]
    exact Nat.lt_succ_self _
  have hall := Paging.readAll_eq htrans List.lt_irrefl (h.sorted 0)
    (fun n marker hm => hcall n marker fun m hmarker => (h.perm 0).mem_iff.mp (hm m hmarker))
    0 (by simp) hfuel
  rwa [Paging.behind_none] at hall

/-- One call of version 1. -/
theorem pageV1_continues (hbucket : bucket ≠ []) (hcollected : Collected libc locations names)
    (hfits : XmlFits libc bucket query locations names)
    (hmarker : getQueryParam query "marker" = none) (n : ℕ) {marker : Option CString}
    (hmem : ∀ m ∈ marker, m ∈ names) :
    ∃ page, pageV1 libc bucket query locations n marker = some page ∧
      page.Continues (Paging.behind (· < ·) marker
        ((collectObjectsFromRegistry libc (locations 0)).map ObjectEntry.name)) := by
  have hpage := hfits.v1 n marker hmem
  rw [pageV1]
  simp only [s3ListObjectsV1, if_neg hbucket, getQueryParam_withParam hmarker] at hpage ⊢
  rw [← hcollected.names_eq n]
  exact listPage_read (collect_sorted libc (hcollected.nodup_names n)) (hcollected.entries n)
    (clampMaxKeys_pos _) hpage

/-- One call of version 2. -/
theorem pageV2_continues (hbucket : bucket ≠ []) (hcollected : Collected libc locations names)
    (hfits : XmlFits libc bucket query locations names)
    (htoken : getQueryParam query "continuation-token" = none)
    (hstart : getQueryParam query "start-after" = none) (n : ℕ) {marker : Option CString}
    (hmem : ∀ m ∈ marker, m ∈ names) :
    ∃ page, pageV2 libc bucket query locations n marker = some page ∧
      page.Continues (Paging.behind (· < ·) marker
        ((collectObjectsFromRegistry libc (locations 0)).map ObjectEntry.name)) := by
  have hpage := hfits.v2 n marker hmem
  have hafter : getQueryParam (withParam query "continuation-token" marker) "start-after" = none :=
    (getQueryParam_withParam_ne (by decide) query marker).trans hstart
  rw [pageV2]
  simp only [s3ListObjectsV2, if_neg hbucket, getQueryParam_withParam htoken, hafter,
    Option.or_none] at hpage ⊢
  rw [← hcollected.names_eq n]
  exact listPage_read (collect_sorted libc (hcollected.nodup_names n)) (hcollected.entries n)
    (clampMaxKeys_pos _) hpage

/-- **The pages together are the collected names, each once and in order**, for both versions and
for every `max-keys`; one call more than there are names is always enough. -/
theorem listObjects_pages (hbucket : bucket ≠ []) (hcollected : Collected libc locations names)
    (hfits : XmlFits libc bucket query locations names)
    (hmarker : getQueryParam query "marker" = none)
    (htoken : getQueryParam query "continuation-token" = none)
    (hstart : getQueryParam query "start-after" = none) :
    ∃ all : List CString, all.Perm names ∧ all.Pairwise (· < ·) ∧
      Paging.readAll (pageV1 libc bucket query locations) (names.length + 1) 0 none = some all ∧
      Paging.readAll (pageV2 libc bucket query locations) (names.length + 1) 0 none = some all := by
  refine ⟨_, hcollected.perm 0, hcollected.sorted 0, ?_, ?_⟩
  · exact hcollected.readAll fun n marker => pageV1_continues hbucket hcollected hfits hmarker n
  · exact hcollected.readAll fun n marker => pageV2_continues hbucket hcollected hfits
      htoken hstart n

end Client

/-! ## 8. Two names, one a page -/

theorem compareObjects_total (a b : ObjectEntry) :
    compareObjects a b ≤ 0 ∨ compareObjects b a ≤ 0 := by
  have hswap := CStr.strcmp_swap a.name b.name
  simp only [compareObjects]
  omega

theorem compareObjects_trans (a b c : ObjectEntry) (hab : compareObjects a b ≤ 0)
    (hbc : compareObjects b c ≤ 0) : compareObjects a c ≤ 0 := by
  rw [compareObjects, CStr.strcmp_nonpos_iff] at *
  rcases hab with hab | hab
  · rcases hbc with hbc | hbc
    · exact Or.inl (List.lt_trans hab hbc)
    · exact Or.inl (hbc ▸ hab)
  · exact hab ▸ hbc

/-- A library that sorts by insertion and prints every time as the start of 1970. -/
def ListLibc.insertion : ListLibc where
  timestamp := fun _ => cstr "1970-01-01T00:00:00.000Z"
  qsort := List.insertionSort fun a b => compareObjects a b ≤ 0
  qsort_perm := List.perm_insertionSort _
  qsort_sorted := @List.pairwise_insertionSort _ _ _ ⟨compareObjects_total⟩ ⟨compareObjects_trans⟩

def twoLocations : List RegistryLocation :=
  [{ object := some (cstr "b") }, { object := some (cstr "a"), versionId := some (cstr "latest") }]

/-- One name a page. -/
def oneKey : List (CString × CString) := [(cstr "max-keys", cstr "1")]

theorem collected_twoLocations :
    Collected .insertion (fun _ => some twoLocations) [cstr "a", cstr "b"] where
  perm := by
    intro _
    decide +kernel
  nodup := by decide
  nonempty := by decide

theorem ne_overflow_of_isSome {result : Except ListError ListPage}
    (h : result.toOption.isSome = true) : result ≠ .error .overflow := by
  rintro rfl
  cases h

theorem mem_markers {marker : Option CString} (h : ∀ m ∈ marker, m ∈ [cstr "a", cstr "b"]) :
    marker ∈ [none, some (cstr "a"), some (cstr "b")] := by
  cases marker with
  | none => simp
  | some m => simpa using h m rfl

theorem xmlFits_twoLocations :
    XmlFits .insertion (cstr "k") oneKey (fun _ => some twoLocations) [cstr "a", cstr "b"] where
  v1 := by
    intro _ marker hmarker
    have hfits : ([none, some (cstr "a"), some (cstr "b")].all fun m =>
        (s3ListObjectsV1 .insertion (cstr "k") (withParam oneKey "marker" m)
          (some twoLocations)).toOption.isSome) = true := by
      decide +kernel
    exact ne_overflow_of_isSome (List.all_eq_true.mp hfits marker (mem_markers hmarker))
  v2 := by
    intro _ marker hmarker
    have hfits : ([none, some (cstr "a"), some (cstr "b")].all fun m =>
        (s3ListObjectsV2 .insertion (cstr "k") (withParam oneKey "continuation-token" m)
          (some twoLocations)).toOption.isSome) = true := by
      decide +kernel
    exact ne_overflow_of_isSome (List.all_eq_true.mp hfits marker (mem_markers hmarker))

/-- Two names are read in two pages, although the registry returns them the other way round. -/
theorem listObjects_pages_two :
    (s3ListObjectsV1 .insertion (cstr "k") oneKey (some twoLocations)).toOption.map ListPage.names =
        some [cstr "a"] ∧
      ∃ all : List CString, all.Perm [cstr "a", cstr "b"] ∧ all.Pairwise (· < ·) ∧
        Paging.readAll (pageV1 .insertion (cstr "k") oneKey fun _ => some twoLocations) 3 0 none =
          some all ∧
        Paging.readAll (pageV2 .insertion (cstr "k") oneKey fun _ => some twoLocations) 3 0 none =
          some all :=
  ⟨by decide +kernel, listObjects_pages (by decide) collected_twoLocations xmlFits_twoLocations
    (by decide) (by decide) (by decide)⟩

end Buckets
