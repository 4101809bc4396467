/-
# The buffer of a listing

`S3Listing.lean` has the text of a page; here is the array it is written into.  Both listings put
the page together with `snprintf` and a running offset in `char xml_body[65536]`, and stop writing
names when fewer than 1000 bytes are left.  That is NOT ENOUGH: the last element may go beyond the
mark by its whole length, which is that of a name of up to 1023 bytes and some 230 bytes more, and
the `NextMarker` element repeats the name.  The offset then runs past the array, and the size of the
next call wraps around.

* `flatten_pagePieces` -- the calls write the text of `S3Listing.lean`;
* `pagePieces_onPage` -- how many names are on a page, by the lengths of their elements;
* `listing_whole_iff` -- the page is written whole exactly if those lengths leave room.
-/
import Buckets.S3Listing
import Buckets.Lib.Snprintf

namespace Buckets.ListingBuffer

open Snprintf

/-! ## 1. The calls -/

/-- `xml_body` and the offset after calls that print these texts. -/
def line (pieces : List CString) : Line := Line.empty.appendAll xmlBodySize pieces

/-- The variables of the loop that writes the names, with the texts of the calls made so far. -/
structure PageState where
  pieces : List CString
  count : ℕ
  isTruncated : Bool
  nextMarker : CString

/-- The loop that writes the names. -/
def writeContents (libc : ListLibc) (marker : Option CString) (maxKeys : ℕ) :
    List ObjectEntry → PageState → PageState
  | [], st => st
  | obj :: rest, st =>
    if maxKeys ≤ st.count then st
    else if skips marker obj then writeContents libc marker maxKeys rest st
    else
      let st : PageState :=
        { pieces := st.pieces ++ [contentsXml libc obj]
          count := st.count + 1
          isTruncated := st.isTruncated
          nextMarker := charArray 1024 obj.name }
      if xmlBodySize - 1000 ≤ (line st.pieces).offset then { st with isTruncated := true }
      else writeContents libc marker maxKeys rest st

/-- The calls from the names on, behind those of the version. -/
def pagePieces (libc : ListLibc) (heads : List CString) (nextTag : String) (marker : Option CString)
    (maxKeys : ℕ) (objects : List ObjectEntry) : List CString :=
  let st := writeContents libc marker maxKeys objects ⟨heads, 0, false, []⟩
  let isTruncated := st.isTruncated || moreBehind marker st.count objects (-1)
  st.pieces ++ [element "IsTruncated" (cstr (if isTruncated then "true" else "false"))] ++
    (if isTruncated && !st.nextMarker.isEmpty then [element nextTag st.nextMarker] else []) ++
    [cstr "</ListBucketResult>\n"]

/-- The first call of both versions. -/
def headName (bucket : CString) : CString :=
  cstr "<?xml version=\"1.0\" encoding=\"UTF-8\"?>\n" ++
  cstr "<ListBucketResult xmlns=\"http://s3.amazonaws.com/doc/2006-03-01/\">\n" ++
  element "Name" bucket

/-- What a listing takes from its request, and the elements of its version. -/
structure Listing where
  heads : List CString
  nextTag : String
  marker : Option CString
  maxKeys : ℕ

/-- `buckets_s3_list_objects_v1`. -/
def listingV1 (bucket : CString) (query : List (CString × CString)) : Listing :=
  let marker := getQueryParam query "marker"
  let maxKeys := clampMaxKeys (getQueryParamInt query "max-keys" 1000)
  { heads := [headName bucket, element "Prefix" ((getQueryParam query "prefix").getD []),
      element "Marker" (marker.getD []), element "MaxKeys" (Strtoull.printDec maxKeys)]
    nextTag := "NextMarker"
    marker := marker
    maxKeys := maxKeys }

/-- `buckets_s3_list_objects_v2`; `KeyCount` is the count of the first pass. -/
def listingV2 (bucket : CString) (query : List (CString × CString)) (objects : List ObjectEntry) :
    Listing :=
  let continuationToken := getQueryParam query "continuation-token"
  let startAfter := getQueryParam query "start-after"
  let maxKeys := clampMaxKeys (getQueryParamInt query "max-keys" 1000)
  let marker := continuationToken.or startAfter
  { heads := [headName bucket, element "Prefix" ((getQueryParam query "prefix").getD []),
      element "KeyCount" (Strtoull.printDec (keyCount marker maxKeys objects 0)) ++
        element "MaxKeys" (Strtoull.printDec maxKeys)] ++
      (continuationToken.map (element "ContinuationToken")).toList ++
      (startAfter.map (element "StartAfter")).toList
    nextTag := "NextContinuationToken"
    marker := marker
    maxKeys := maxKeys }

/-- The calls of a listing. -/
def Listing.pieces (libc : ListLibc) (l : Listing) (objects : List ObjectEntry) : List CString :=
  pagePieces libc l.heads l.nextTag l.marker l.maxKeys objects

/-! ## 2. The text -/

variable {libc : ListLibc} {marker : Option CString} {maxKeys : ℕ} {objects : List ObjectEntry}

/-- The offset is the length of the text, whatever was written. -/
theorem offset_line (pieces : List CString) : (line pieces).offset = pieces.flatten.length := by
  rw [line, Line.offset_appendAll, Line.empty, Nat.zero_add]

/-- The loop over the array and the loop over the text. -/
structure Same (st : PageState) (st' : ListState) : Prop where
  text : st.pieces.flatten = st'.xmlBody
  count : st.count = st'.names.length
  truncated : st.isTruncated = st'.isTruncated
  next : st.nextMarker = st'.nextMarker

theorem Same.writeContents (libc : ListLibc) (marker : Option CString) (maxKeys : ℕ)
    (objects : List ObjectEntry) {st : PageState} {st' : ListState} (h : Same st st') :
    Same (writeContents libc marker maxKeys objects st)
      (listContents libc marker maxKeys objects st') := by
  induction objects generalizing st st' with
  | nil => exact h
  | cons obj rest ih =>
    rw [ListingBuffer.writeContents, listContents, h.count]
    split
    · exact h
    · split
      · exact ih h
      · have hnext : Same
            ⟨st.pieces ++ [contentsXml libc obj], st.count + 1, st.isTruncated,
              charArray 1024 obj.name⟩
            ⟨st'.xmlBody ++ contentsXml libc obj, st'.names ++ [obj.name], st'.isTruncated,
              charArray 1024 obj.name⟩ :=
          ⟨by simp [h.text], by simp [h.count], h.truncated, rfl⟩
        dsimp only
        rw [h.count] at hnext
        rw [offset_line, hnext.text]
        split
        · exact ⟨hnext.text, hnext.count, rfl, rfl⟩
        · exact ih hnext

/-- **The calls write the text of the page.** -/
theorem flatten_pagePieces (libc : ListLibc) (heads : List CString) (nextTag : String)
    (marker : Option CString) (maxKeys : ℕ) (objects : List ObjectEntry) :
    (pagePieces libc heads nextTag marker maxKeys objects).flatten =
      let st := listContents libc marker maxKeys objects ⟨heads.flatten, [], false, []⟩
      (closePage nextTag st
        (st.isTruncated || moreBehind marker st.names.length objects (-1))).body := by
  have hstart : Same ⟨heads, 0, false, []⟩ ⟨heads.flatten, [], false, []⟩ := ⟨rfl, rfl, rfl, rfl⟩
  have h := hstart.writeContents libc marker maxKeys objects
  generalize listContents libc marker maxKeys objects ⟨heads.flatten, [], false, []⟩ = st' at h
  rw [pagePieces]
  generalize writeContents libc marker maxKeys objects ⟨heads, 0, false, []⟩ = st at h
  simp only [closePage, h.truncated, h.count, h.next, List.flatten_append, h.text]
  cases (st'.isTruncated || moreBehind marker st'.names.length objects (-1)) &&
    !st'.nextMarker.isEmpty
  · simp
  · simp

/-! ## 3. The lengths -/

/-- The elements of these entries. -/
def total (libc : ListLibc) (entries : List ObjectEntry) : ℕ :=
  (entries.map fun obj => (contentsXml libc obj).length).sum

theorem total_cons (obj : ObjectEntry) (entries : List ObjectEntry) :
    total libc (obj :: entries) = (contentsXml libc obj).length + total libc entries := by
  simp [total]

/-- The mark at which a listing stops. -/
def mark : ℕ := xmlBodySize - 1000

/-- The text of the last of some entries that is kept for the next page. -/
def lastName (entries : List ObjectEntry) (default : CString) : CString :=
  (entries.getLast?.map fun obj => charArray 1024 obj.name).getD default

/-- What the loop has done when it ends: `n` entries, of which only the last may reach the mark. -/
structure Lengths (libc : ListLibc) (entries : List ObjectEntry) (st st' : ListState) (n : ℕ) :
    Prop where
  le : n ≤ entries.length
  length : st'.xmlBody.length = st.xmlBody.length + total libc (entries.take n)
  count : st'.names.length = st.names.length + n
  room : ∀ m < n, 0 < m → st.xmlBody.length + total libc (entries.take m) < mark
  full : st'.isTruncated = true ↔
    0 < n ∧ mark ≤ st.xmlBody.length + total libc (entries.take n)
  all : st'.isTruncated = false → n = entries.length
  next : st'.nextMarker = lastName (entries.take n) st.nextMarker

/-- The loop ends where it is. -/
theorem lengths_nil {entries : List ObjectEntry} {st : ListState}
    (htruncated : st.isTruncated = false)
    (hentries : entries = []) : Lengths libc entries st st 0 := by
  subst hentries
  exact ⟨le_rfl, by simp [total], rfl, by simp, by simp [htruncated], fun _ => rfl, rfl⟩

/-- One entry in front. -/
theorem Lengths.cons {entries : List ObjectEntry} {obj : ObjectEntry} {st st' : ListState} {n : ℕ}
    (hroom : (st.write libc obj).xmlBody.length < mark)
    (h : Lengths libc entries (st.write libc obj) st' n) :
    Lengths libc (obj :: entries) st st' (n + 1) := by
  have hone : (st.write libc obj).xmlBody.length =
      st.xmlBody.length + (contentsXml libc obj).length := by
    simp [ListState.write]
  have hsum : ∀ m, st.xmlBody.length + total libc ((obj :: entries).take (m + 1)) =
      (st.write libc obj).xmlBody.length + total libc (entries.take m) := by
    intro m
    rw [List.take_succ_cons, total_cons, hone, Nat.add_assoc]
  refine ⟨Nat.succ_le_succ h.le, by rw [hsum, h.length], ?_, ?_, ?_, ?_, ?_⟩
  · rw [h.count]
    simp [ListState.write]
    omega
  · intro m hm hpos
    obtain ⟨k, rfl⟩ := Nat.exists_eq_add_of_lt hpos
    rw [Nat.zero_add, hsum]
    rcases Nat.eq_zero_or_pos k with rfl | hk
    · simpa [total] using hroom
    · exact h.room k (by omega) hk
  · rw [h.full, hsum]
    constructor
    · rintro ⟨-, hfull⟩
      exact ⟨Nat.succ_pos n, hfull⟩
    · rintro ⟨-, hfull⟩
      refine ⟨Nat.pos_of_ne_zero ?_, hfull⟩
      rintro rfl
      simp only [List.take_zero, total, List.map_nil, List.sum_nil, Nat.add_zero] at hfull
      omega
  · intro hend
    rw [h.all hend, List.length_cons]
  · rw [h.next, List.take_succ_cons, lastName, lastName, List.getLast?_cons]
    cases (entries.take n).getLast? <;> rfl

/-- **The loop, by the lengths of the elements.** -/
theorem listContents_lengths {st : ListState} (htruncated : st.isTruncated = false)
    (hcount : st.names.length ≤ maxKeys) :
    ∃ n, Lengths libc ((entriesBehind marker objects).take (maxKeys - st.names.length)) st
      (listContents libc marker maxKeys objects st) n := by
  induction objects generalizing st with
  | nil => exact ⟨0, lengths_nil htruncated (by simp [entriesBehind])⟩
  | cons obj rest ih =>
    rw [listContents]
    split
    · exact ⟨0, lengths_nil htruncated (by simp [Nat.sub_eq_zero_of_le ‹_›])⟩
    · rename_i hroom
      cases hskips : skips marker obj with
      | true =>
        rw [entriesBehind_cons_skipped hskips, if_pos rfl]
        exact ih htruncated hcount
      | false =>
        obtain ⟨k, hk⟩ := Nat.exists_eq_add_of_lt (Nat.lt_of_not_le hroom)
        have hleft : maxKeys - st.names.length = k + 1 := by omega
        rw [entriesBehind_cons hskips, if_neg Bool.false_ne_true, ← ListState.write, hleft,
          List.take_succ_cons]
        dsimp only
        have hnames : (st.write libc obj).names.length = st.names.length + 1 := by
          simp [ListState.write]
        have hone : (st.write libc obj).xmlBody.length =
            st.xmlBody.length + (contentsXml libc obj).length := by
          simp [ListState.write]
        split
        · rename_i hfull
          refine ⟨1, by simp, ?_, hnames, fun m hm hpos => by omega,
            ?_, by simp, by simp [lastName, ListState.write]⟩
          · simpa [total] using hone
          · have hmark : mark ≤ (st.write libc obj).xmlBody.length := hfull
            simpa [total, ← hone] using hmark
        · rename_i hfull
          have hnext : (st.write libc obj).names.length ≤ maxKeys := by omega
          obtain ⟨n, hn⟩ := @ih (st.write libc obj) htruncated hnext
          rw [hnames, show maxKeys - (st.names.length + 1) = k by omega] at hn
          exact ⟨n + 1, hn.cons (Nat.lt_of_not_le hfull)⟩

/-! ## 4. Which pages fit -/

namespace Listing

/-- The entries that may be on the page. -/
def entries (l : Listing) (objects : List ObjectEntry) : List ObjectEntry :=
  (entriesBehind l.marker objects).take l.maxKeys

/-- The length of the page up to its first `n` entries. -/
def upTo (libc : ListLibc) (l : Listing) (objects : List ObjectEntry) (n : ℕ) : ℕ :=
  l.heads.flatten.length + total libc ((l.entries objects).take n)

/-- **The page has `n` entries**: all, or as many as it takes to reach the mark. -/
structure OnPage (libc : ListLibc) (l : Listing) (objects : List ObjectEntry) (n : ℕ) : Prop where
  le : n ≤ (l.entries objects).length
  room : ∀ m < n, 0 < m → l.upTo libc objects m < mark
  full : n = (l.entries objects).length ∨ 0 < n ∧ mark ≤ l.upTo libc objects n

/-- There is more than these `n` entries, or the mark was reached. -/
def Truncated (libc : ListLibc) (l : Listing) (objects : List ObjectEntry) (n : ℕ) : Prop :=
  (0 < n ∧ mark ≤ l.upTo libc objects n) ∨ n < (entriesBehind l.marker objects).length

instance (libc : ListLibc) (l : Listing) (objects : List ObjectEntry) (n : ℕ) :
    Decidable (l.Truncated libc objects n) := inferInstanceAs (Decidable (_ ∨ _))

/-- The length of the end of the page. -/
def trailer (libc : ListLibc) (l : Listing) (objects : List ObjectEntry) (n : ℕ) : ℕ :=
  let next := lastName ((l.entries objects).take n) []
  if l.Truncated libc objects n then
    (element "IsTruncated" (cstr "true")).length +
      (if next = [] then 0 else (element l.nextTag next).length) +
      (cstr "</ListBucketResult>\n").length
  else (element "IsTruncated" (cstr "false")).length + (cstr "</ListBucketResult>\n").length

/-- The page has room for its end. -/
def Fits (libc : ListLibc) (l : Listing) (objects : List ObjectEntry) : Prop :=
  ∃ n, l.OnPage libc objects n ∧ l.upTo libc objects n + l.trailer libc objects n < xmlBodySize

end Listing

variable {l : Listing} {n n' : ℕ}

theorem Listing.OnPage.le_of (h : l.OnPage libc objects n) (h' : l.OnPage libc objects n') :
    n' ≤ n := by
  by_contra hlt
  rcases h.full with hall | ⟨hpos, hfull⟩
  · have := h'.le
    omega
  · have := h'.room n (by omega) hpos
    omega

theorem Listing.OnPage.eq (h : l.OnPage libc objects n) (h' : l.OnPage libc objects n') : n = n' :=
  Nat.le_antisymm (h'.le_of h) (h.le_of h')

/-- **The length of a page**, by those of its elements. -/
theorem length_pieces (hsorted : objects.Pairwise fun a b => compareObjects a b ≤ 0)
    (hmax : 0 < l.maxKeys) :
    ∃ n, l.OnPage libc objects n ∧
      (l.pieces libc objects).flatten.length =
        l.upTo libc objects n + l.trailer libc objects n := by
  obtain ⟨n, h⟩ := @listContents_lengths libc l.marker l.maxKeys objects
    ⟨l.heads.flatten, [], false, []⟩ rfl (Nat.zero_le _)
  have hpieces := flatten_pagePieces libc l.heads l.nextTag l.marker l.maxKeys objects
  rw [← Listing.pieces] at hpieces
  generalize listContents libc l.marker l.maxKeys objects ⟨l.heads.flatten, [], false, []⟩ = st
    at h hpieces
  have hpage : l.OnPage libc objects n := by
    refine ⟨h.le, h.room, ?_⟩
    cases hend : st.isTruncated with
    | true => exact .inr (h.full.mp hend)
    | false => exact .inl (h.all hend)
  have hcount : st.names.length = n := h.count.trans (Nat.zero_add n)
  have htruncated : (st.isTruncated || moreBehind l.marker st.names.length objects (-1)) =
      decide (l.Truncated libc objects n) := by
    rw [Bool.eq_iff_iff, Bool.or_eq_true, decide_eq_true_iff, Listing.Truncated]
    refine or_congr h.full ?_
    have hlen : (l.entries objects).length = min l.maxKeys
        (entriesBehind l.marker objects).length :=
      List.length_take
    have hle := hpage.le
    rw [hcount]
    refine moreBehind_iff hsorted (by omega) fun hne => ?_
    have hpos := List.length_pos_iff.mpr hne
    rcases hpage.full with hall | ⟨hn, -⟩
    · omega
    · exact hn
  refine ⟨n, hpage, ?_⟩
  have hbody : st.xmlBody.length = l.upTo libc objects n := h.length
  have hnext : st.nextMarker = lastName ((l.entries objects).take n) [] := h.next
  rw [hpieces]
  simp only [closePage, htruncated, Listing.trailer, ← hnext]
  by_cases ht : l.Truncated libc objects n
  · by_cases hnil : st.nextMarker = []
    · simp [ht, hnil, hbody]
    · simp [ht, hnil, hbody, Nat.add_assoc]
  · simp [ht, hbody]

theorem fits_iff (hsorted : objects.Pairwise fun a b => compareObjects a b ≤ 0)
    (hmax : 0 < l.maxKeys) :
    Line.Whole xmlBodySize (l.pieces libc objects) ↔ l.Fits libc objects := by
  obtain ⟨n, hpage, hlength⟩ := @length_pieces libc objects l hsorted hmax
  have hne : l.pieces libc objects ≠ [] := by simp [Listing.pieces, pagePieces]
  rw [Line.whole_iff (by decide) hne, hlength]
  constructor
  · intro hlt
    exact ⟨n, hpage, hlt⟩
  · rintro ⟨n', hpage', hlt⟩
    rwa [hpage.eq hpage']

/-- **Which pages are written whole**, in both versions: those whose elements leave room for the end
of the page.  For every library, bucket, query and sorted list of entries. -/
theorem listing_whole_iff (libc : ListLibc) (bucket : CString) (query : List (CString × CString))
    {objects : List ObjectEntry} (hsorted : objects.Pairwise fun a b => compareObjects a b ≤ 0) :
    (Line.Whole xmlBodySize ((listingV1 bucket query).pieces libc objects) ↔
        (listingV1 bucket query).Fits libc objects) ∧
      (Line.Whole xmlBodySize ((listingV2 bucket query objects).pieces libc objects) ↔
        (listingV2 bucket query objects).Fits libc objects) :=
  ⟨fits_iff hsorted (clampMaxKeys_pos _), fits_iff hsorted (clampMaxKeys_pos _)⟩

/-- Three names. -/
def threeEntries : List ObjectEntry := [⟨cstr "a", 1, 0⟩, ⟨cstr "b", 2, 0⟩, ⟨cstr "c", 3, 0⟩]

/-- Two names a page. -/
def twoKeys : List (CString × CString) := [(cstr "max-keys", cstr "2")]

theorem listing_whole_three :
    Line.Whole xmlBodySize ((listingV1 (cstr "b") twoKeys).pieces .insertion threeEntries) ∧
      Line.Whole xmlBodySize
        ((listingV2 (cstr "b") twoKeys threeEntries).pieces .insertion threeEntries) := by
  have hsorted : threeEntries.Pairwise fun a b => compareObjects a b ≤ 0 := by decide
  obtain ⟨hv1, hv2⟩ := listing_whole_iff .insertion (cstr "b") twoKeys hsorted
  refine ⟨hv1.mpr ⟨2, ⟨?_, ?_, .inl ?_⟩, ?_⟩, hv2.mpr ⟨2, ⟨?_, ?_, .inl ?_⟩, ?_⟩⟩
  all_goals decide +kernel

/-! ## 5. Long names -/

theorem le_total {entries : List ObjectEntry} {k : ℕ}
    (h : ∀ obj ∈ entries, k ≤ obj.name.length) : k * entries.length ≤ total libc entries := by
  induction entries with
  | nil => simp
  | cons obj entries ih =>
    obtain ⟨hobj, hrest⟩ := List.forall_mem_cons.mp h
    have hone : obj.name.length ≤ (contentsXml libc obj).length := by
      simp only [contentsXml, List.length_append]
      omega
    have := ih hrest
    rw [total_cons, List.length_cons, Nat.mul_succ]
    omega

/-- **A page of the longest names is cut**: the mark leaves less room than the name of the next
marker takes. -/
theorem not_whole_of_long (hsorted : objects.Pairwise fun a b => compareObjects a b ≤ 0)
    (hmax : 0 < l.maxKeys) (hlong : ∀ obj ∈ objects, obj.name.length = 1023)
    (hmany : 65 ≤ (l.entries objects).length) :
    ¬ Line.Whole xmlBodySize (l.pieces libc objects) := by
  rw [fits_iff hsorted hmax]
  rintro ⟨n, hpage, hlt⟩
  have hnames : ∀ m, ∀ obj ∈ (l.entries objects).take m, 1023 ≤ obj.name.length := by
    intro m obj hobj
    exact (hlong obj (List.mem_filter.mp (List.mem_of_mem_take (List.mem_of_mem_take hobj))).1).ge
  have hupTo : ∀ m ≤ (l.entries objects).length, 1023 * m ≤ l.upTo libc objects m := by
    intro m hm
    have := @le_total libc _ _ (hnames m)
    rw [List.length_take, Nat.min_eq_left hm] at this
    exact this.trans (Nat.le_add_left _ _)
  have hfull : 0 < n ∧ mark ≤ l.upTo libc objects n := by
    rcases hpage.full with hall | hfull
    · have h64 : 64 < n := by
        rw [hall]
        exact hmany
      have hbelow := hpage.room 64 h64 (Nat.succ_pos 63)
      have habove := hupTo 64 (h64.le.trans hpage.le)
      have hmark : mark = 64536 := rfl
      omega
    · exact hfull
  -- the last entry of the page is named again
  have hlast : (lastName ((l.entries objects).take n) []).length = 1023 := by
    have hne : (l.entries objects).take n ≠ [] := by
      rw [← List.length_pos_iff, List.length_take]
      omega
    obtain ⟨obj, hobj⟩ := Option.isSome_iff_exists.mp (List.getLast?_isSome.mpr hne)
    have hlen := hnames n obj (List.mem_of_getLast? hobj)
    rw [lastName, hobj, Option.map_some, Option.getD_some, charArray, List.length_take]
    omega
  have hend : 1023 ≤ l.trailer libc objects n := by
    rw [Listing.trailer, if_pos (show l.Truncated libc objects n from .inl hfull)]
    have hnil : lastName ((l.entries objects).take n) [] ≠ [] := by
      intro hnil
      simp [hnil] at hlast
    rw [if_neg hnil]
    simp only [element, List.length_append, hlast]
    omega
  have hmark : mark + 1000 = xmlBodySize := rfl
  omega

/-- Seventy names of 1023 bytes, in order. -/
def longNames : List ObjectEntry :=
  (List.range 70).map fun i => ⟨UInt8.ofNat (48 + i) :: List.replicate 1022 97, 0, 0⟩

/-- **Seventy long names**, without prefix, marker and `max-keys`: neither version writes its page
whole. -/
theorem listing_long_names :
    (longNames.Pairwise fun a b => compareObjects a b ≤ 0) ∧
      ¬ Line.Whole xmlBodySize ((listingV1 (cstr "b") []).pieces .insertion longNames) ∧
      ¬ Line.Whole xmlBodySize
        ((listingV2 (cstr "b") [] longNames).pieces .insertion longNames) := by
  have hsorted : longNames.Pairwise fun a b => compareObjects a b ≤ 0 := by decide +kernel
  have hlong : ∀ obj ∈ longNames, obj.name.length = 1023 := by
    intro obj hobj
    obtain ⟨i, -, rfl⟩ := List.mem_map.mp hobj
    rw [List.length_cons, List.length_replicate]
  have hmany : 65 ≤ ((entriesBehind none longNames).take 1000).length := by
    have hall : entriesBehind none longNames = longNames := List.filter_eq_self.mpr fun _ _ => rfl
    rw [hall, List.length_take, longNames, List.length_map, List.length_range]
    decide
  exact ⟨hsorted,
    not_whole_of_long (l := listingV1 (cstr "b") []) hsorted (by decide) hlong hmany,
    not_whole_of_long (l := listingV2 (cstr "b") [] longNames) hsorted (by decide) hlong hmany⟩

end Buckets.ListingBuffer
