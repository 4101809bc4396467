/-
# `xl.meta`: the metadata file of an object

`metadata.c` turns the record `buckets_xl_meta_t` into a JSON text and back; small objects are
carried inside it as base64 text, by the two static functions of `object.c`.

* `base64Decode_base64Encode` -- the inline text decodes to the bytes it was made from;
* `xlMetaFromJson_xlMetaToJson` -- a record whose fields fit the arrays and numbers they are
  stored in (`XlMeta.Storable`) comes back as it was.
-/
import Buckets.Json

namespace Buckets

/-! ## 1. Base64 -/

/-- `base64_chars`. -/
def base64Chars : CString :=
  cstr "ABCDEFGHIJKLMNOPQRSTUVWXYZabcdefghijklmnopqrstuvwxyz0123456789+/"

/-- The character `'='`. -/
def padChar : UInt8 := 61

/-- `base64_table`: the place of a character in the alphabet, 0 for one that is not in it. -/
def base64Table (c : UInt8) : ℕ :=
  if base64Chars.idxOf c < 64 then base64Chars.idxOf c else 0

/-- `base64_chars[n & 0x3F]`. -/
def base64Char (n : ℕ) : UInt8 := base64Chars.getD (n % 64) 0

/-- The 24 bits of one round. -/
def tripleOf (a b c : UInt8) : ℕ := a.toNat * 2 ^ 16 + b.toNat * 2 ^ 8 + c.toNat

/-- One round of the encoding loop. -/
def encodeTriple (a b c : UInt8) : CString :=
  let triple := tripleOf a b c
  [base64Char (triple / 2 ^ 18), base64Char (triple / 2 ^ 12), base64Char (triple / 2 ^ 6),
   base64Char triple]

/-- The encoding loop: missing octets of the last round are 0. -/
def encodeLoop : Bytes → CString
  | a :: b :: c :: rest => encodeTriple a b c ++ encodeLoop rest
  | [a, b] => encodeTriple a b 0
  | [a] => encodeTriple a 0 0
  | [] => []

/-- `base64_encode`: the last characters are overwritten by padding. -/
def base64Encode (data : Bytes) : CString :=
  let encodedLen := (data.length + 2) / 3 * 4
  let padding := (3 - data.length % 3) % 3
  (encodeLoop data).take (encodedLen - padding) ++ List.replicate padding padChar

/-- One character of the decoding loop. -/
def sextet (c : UInt8) : ℕ := if c = padChar then 0 else base64Table c

/-- One round of the decoding loop, before the check on the decoded size. -/
def decodeQuad (a b c d : UInt8) : Bytes :=
  let triple := sextet a * 2 ^ 18 + sextet b * 2 ^ 12 + sextet c * 2 ^ 6 + sextet d
  [UInt8.ofNat (triple / 2 ^ 16 % 256), UInt8.ofNat (triple / 2 ^ 8 % 256),
   UInt8.ofNat (triple % 256)]

/-- The decoding loop.  A text whose length is not a multiple of 4 runs into its terminator. -/
def decodeLoop : CString → Bytes
  | a :: b :: c :: d :: rest => decodeQuad a b c d ++ decodeLoop rest
  | [a, b, c] => decodeQuad a b c 0
  | [a, b] => decodeQuad a b 0 0
  | [a] => decodeQuad a 0 0 0
  | [] => []

/-- The padding the decoder sees: a `'='` in each of the last two places. -/
def paddingOf (encoded : CString) : ℕ :=
  (if encoded.reverse.head? = some padChar then 1 else 0) +
    (if encoded.reverse.tail.head? = some padChar then 1 else 0)

/-- `base64_decode`. -/
def base64Decode (encoded : CString) : Bytes :=
  let decodedSize := encoded.length / 4 * 3 - paddingOf encoded
  (decodeLoop encoded).take decodedSize

/-- The alphabet: 64 characters, all different, and the padding is not one of them. -/
theorem base64Chars_spec :
    base64Chars.length = 64 ∧ base64Chars.Nodup ∧ padChar ∉ base64Chars := by
  decide +kernel

theorem base64Char_eq (n : ℕ) :
    ∃ h : n % 64 < base64Chars.length, base64Char n = base64Chars[n % 64] := by
  have hlt : n % 64 < base64Chars.length := by
    rw [base64Chars_spec.1]
    exact Nat.mod_lt n (by omega)
  refine ⟨hlt, ?_⟩
  rw [base64Char, List.getD_eq_getElem?_getD, List.getElem?_eq_getElem hlt, Option.getD_some]

theorem base64Char_ne_padChar (n : ℕ) : base64Char n ≠ padChar := by
  obtain ⟨hlt, hchar⟩ := base64Char_eq n
  intro hpad
  refine base64Chars_spec.2.2 ?_
  rw [← hpad, hchar]
  exact List.getElem_mem hlt

theorem sextet_base64Char (n : ℕ) : sextet (base64Char n) = n % 64 := by
  have hne := base64Char_ne_padChar n
  obtain ⟨hlt, hchar⟩ := base64Char_eq n
  have hplace : base64Chars.idxOf (base64Char n) = n % 64 := by
    rw [hchar]
    exact base64Chars_spec.2.1.idxOf_getElem _ hlt
  rw [sextet, if_neg hne, base64Table, hplace, if_pos (Nat.mod_lt n (by omega))]

@[simp] theorem sextet_padChar : sextet padChar = 0 := if_pos rfl

@[simp] theorem length_encodeTriple (a b c : UInt8) : (encodeTriple a b c).length = 4 := rfl

/-- The three bytes of a round come back from four characters with the right values. -/
theorem decodeQuad_of_sextets {x y z w a b c : UInt8}
    (hx : sextet x = tripleOf a b c / 2 ^ 18 % 64) (hy : sextet y = tripleOf a b c / 2 ^ 12 % 64)
    (hz : sextet z = tripleOf a b c / 2 ^ 6 % 64) (hw : sextet w = tripleOf a b c % 64) :
    decodeQuad x y z w = [a, b, c] := by
  have ha := a.toNat_lt
  have hb := b.toNat_lt
  have hc := c.toNat_lt
  have hbyte : ∀ (n : ℕ) (u : UInt8), n = u.toNat → UInt8.ofNat n = u := by
    rintro n u rfl
    exact UInt8.ofNat_toNat
  unfold tripleOf at hx hy hz hw
  simp only [decodeQuad, hx, hy, hz, hw, List.cons.injEq, and_true]
  refine ⟨hbyte _ _ ?_, hbyte _ _ ?_, hbyte _ _ ?_⟩ <;> omega

theorem decodeLoop_encodeTriple_append (a b c : UInt8) (rest : CString) :
    decodeLoop (encodeTriple a b c ++ rest) = [a, b, c] ++ decodeLoop rest := by
  show decodeQuad _ _ _ _ ++ decodeLoop rest = _
  rw [decodeQuad_of_sextets (sextet_base64Char _) (sextet_base64Char _) (sextet_base64Char _)
    (sextet_base64Char _)]

/-- A full round at the front does not touch the padding behind it. -/
theorem base64Encode_cons (a b c : UInt8) (rest : Bytes) :
    base64Encode (a :: b :: c :: rest) = encodeTriple a b c ++ base64Encode rest := by
  have hlen : (a :: b :: c :: rest).length = rest.length + 3 := rfl
  simp only [base64Encode, hlen, encodeLoop]
  rw [Nat.add_mod_right, show (rest.length + 3 + 2) / 3 * 4 - (3 - rest.length % 3) % 3 =
    4 + ((rest.length + 2) / 3 * 4 - (3 - rest.length % 3) % 3) by omega]
  rw [← length_encodeTriple a b c, List.take_length_add_append, List.append_assoc]

theorem length_encodeLoop : ∀ data : Bytes, (encodeLoop data).length = (data.length + 2) / 3 * 4
  | a :: b :: c :: rest => by
    have ih := length_encodeLoop rest
    simp only [encodeLoop, List.length_append, length_encodeTriple, ih, List.length_cons]
    omega
  | [a, b] => by simp [encodeLoop]
  | [a] => by simp [encodeLoop]
  | [] => rfl

theorem length_base64Encode (data : Bytes) :
    (base64Encode data).length = (data.length + 2) / 3 * 4 := by
  simp only [base64Encode, List.length_append, List.length_take, length_encodeLoop,
    List.length_replicate]
  omega

theorem paddingOf_append {front back : CString} (h : 2 ≤ back.length) :
    paddingOf (front ++ back) = paddingOf back := by
  have hback : 2 ≤ back.reverse.length := by simpa using h
  unfold paddingOf
  rw [List.reverse_append]
  match hrev : back.reverse, hback with
  | x :: y :: t, _ => simp

theorem paddingOf_encodeTriple (a b c : UInt8) : paddingOf (encodeTriple a b c) = 0 := by
  simp [paddingOf, encodeTriple, base64Char_ne_padChar]

/-- **The inline text of an object decodes to the object.** -/
theorem base64Decode_base64Encode : ∀ data : Bytes, base64Decode (base64Encode data) = data
  | a :: b :: c :: rest => by
    have ih := base64Decode_base64Encode rest
    have hpad : paddingOf (encodeTriple a b c ++ base64Encode rest) =
        paddingOf (base64Encode rest) := by
      cases rest with
      | nil => exact paddingOf_encodeTriple a b c
      | cons x t =>
        refine paddingOf_append ?_
        rw [length_base64Encode, List.length_cons]
        omega
    have hle : paddingOf (base64Encode rest) ≤ (base64Encode rest).length / 4 * 3 := by
      cases rest with
      | nil => exact Nat.zero_le _
      | cons x t =>
        have htwo : paddingOf (base64Encode (x :: t)) ≤ 2 := by
          unfold paddingOf
          split <;> split <;> omega
        rw [length_base64Encode, List.length_cons]
        omega
    rw [base64Encode_cons, base64Decode, decodeLoop_encodeTriple_append, hpad, List.length_append,
      length_encodeTriple, show (4 + (base64Encode rest).length) / 4 * 3 -
        paddingOf (base64Encode rest) = [a, b, c].length +
        ((base64Encode rest).length / 4 * 3 - paddingOf (base64Encode rest)) by
          simp only [List.length_cons, List.length_nil]; omega,
      List.take_length_add_append]
    exact congrArg ([a, b, c] ++ ·) ih
  | [a, b] => by
    have hb := b.toNat_lt
    have henc : base64Encode [a, b] = [base64Char (tripleOf a b 0 / 2 ^ 18),
        base64Char (tripleOf a b 0 / 2 ^ 12), base64Char (tripleOf a b 0 / 2 ^ 6), padChar] := by
      simp [base64Encode, encodeLoop, encodeTriple]
    rw [henc, base64Decode, decodeLoop, decodeLoop,
      decodeQuad_of_sextets (sextet_base64Char _) (sextet_base64Char _) (sextet_base64Char _)
        (by rw [sextet_padChar, tripleOf, UInt8.toNat_zero]; omega)]
    simp [paddingOf, base64Char_ne_padChar]
  | [a] => by
    have ha := a.toNat_lt
    have henc : base64Encode [a] = [base64Char (tripleOf a 0 0 / 2 ^ 18),
        base64Char (tripleOf a 0 0 / 2 ^ 12), padChar, padChar] := by
      simp [base64Encode, encodeLoop, encodeTriple]
    rw [henc, base64Decode, decodeLoop, decodeLoop,
      decodeQuad_of_sextets (sextet_base64Char _) (sextet_base64Char _)
        (by rw [sextet_padChar, tripleOf, UInt8.toNat_zero]; omega)
        (by rw [sextet_padChar, tripleOf, UInt8.toNat_zero]; omega)]
    simp [paddingOf]
  | [] => rfl

/-! ## 2. The record -/

/-- `buckets_checksum_t`. -/
structure Checksum where
  algo : CString
  hash : Bytes
deriving DecidableEq

/-- `stat` of `buckets_xl_meta_t`. -/
structure XlStat where
  size : ℕ := 0
  modTime : CString := []
deriving DecidableEq

/-- `erasure` of `buckets_xl_meta_t`. -/
structure XlErasure where
  algorithm : CString := []
  data : ℕ := 0
  parity : ℕ := 0
  blockSize : ℕ := 0
  index : ℕ := 0
  distribution : List ℕ := []
  checksums : List Checksum := []
deriving DecidableEq

/-- `meta` of `buckets_xl_meta_t`: the standard S3 metadata and the user's. -/
structure XlUserMeta where
  contentType : Option CString := none
  etag : Option CString := none
  cacheControl : Option CString := none
  contentDisposition : Option CString := none
  contentEncoding : Option CString := none
  contentLanguage : Option CString := none
  expires : Option CString := none
  user : List (CString × CString) := []
deriving DecidableEq

/-- `versioning` of `buckets_xl_meta_t`. -/
structure XlVersioning where
  versionId : Option CString := none
  isLatest : Bool := false
  isDeleteMarker : Bool := false
  deleteMarkerVersionId : Option CString := none
deriving DecidableEq

/-- `buckets_xl_meta_t`; the defaults are those of a zeroed record. -/
structure XlMeta where
  version : ℕ := 0
  format : CString := []
  bucket : Option CString := none
  object : Option CString := none
  stat : XlStat := {}
  erasure : XlErasure := {}
  userMeta : XlUserMeta := {}
  versioning : XlVersioning := {}
  inlineData : Option CString := none
deriving DecidableEq

/-! ## 3. Writing -/

open Json

def statMembers (stat : XlStat) : List (CString × Option Json) :=
  [(cstr "size", some (int stat.size)), (cstr "modTime", some (string stat.modTime))]

def checksumMembers (checksum : Checksum) : List (CString × Option Json) :=
  [(cstr "algo", some (string checksum.algo)),
   (cstr "hash", some (string (checksum.hash.flatMap hexByte)))]

def erasureMembers (erasure : XlErasure) : List (CString × Option Json) :=
  let count := erasure.data + erasure.parity
  [(cstr "algorithm", some (string erasure.algorithm)),
   (cstr "data", some (int erasure.data)),
   (cstr "parity", some (int erasure.parity)),
   (cstr "blockSize", some (int erasure.blockSize)),
   (cstr "index", some (int erasure.index)),
   (cstr "distribution", some (array ((erasure.distribution.take count).map fun d : ℕ => int d))),
   (cstr "checksums", some (array ((erasure.checksums.take count).map fun c =>
     mkObject (checksumMembers c))))]

def standardMembers (m : XlUserMeta) : List (CString × Option Json) :=
  [(cstr "content-type", m.contentType.map string),
   (cstr "etag", m.etag.map string),
   (cstr "cache-control", m.cacheControl.map string),
   (cstr "content-disposition", m.contentDisposition.map string),
   (cstr "content-encoding", m.contentEncoding.map string),
   (cstr "content-language", m.contentLanguage.map string),
   (cstr "expires", m.expires.map string)]

/-- `"x-amz-meta-"`. -/
def amzMeta : CString := cstr "x-amz-meta-"

def userMembers (user : List (CString × CString)) : List (CString × Option Json) :=
  user.map fun entry => (charArray 256 (amzMeta ++ entry.1), some (string entry.2))

def versioningMembers (v : XlVersioning) : List (CString × Option Json) :=
  [(cstr "versionId", v.versionId.map string),
   (cstr "isLatest", some (bool v.isLatest)),
   (cstr "isDeleteMarker", some (bool v.isDeleteMarker)),
   (cstr "deleteMarkerVersionId", v.deleteMarkerVersionId.map string)]

def xlMetaMembers (xl : XlMeta) : List (CString × Option Json) :=
  [(cstr "version", some (int xl.version)),
   (cstr "format", some (string xl.format)),
   (cstr "bucket", xl.bucket.map string),
   (cstr "object", xl.object.map string),
   (cstr "stat", some (mkObject (statMembers xl.stat))),
   (cstr "erasure", some (mkObject (erasureMembers xl.erasure))),
   (cstr "meta", some (mkObject (standardMembers xl.userMeta ++ userMembers xl.userMeta.user))),
   (cstr "versioning", xl.versioning.versionId.map fun _ =>
     mkObject (versioningMembers xl.versioning)),
   (cstr "inline", xl.inlineData.map string)]

/-- `buckets_xl_meta_to_json`, up to the printing of the tree. -/
def xlMetaToJson (xl : XlMeta) : Json := mkObject (xlMetaMembers xl)

/-! ## 4. Reading -/

def statFromJson (j : Json) : XlStat where
  size := j.sizeItem (cstr "size")
  modTime := charArray 32 ((j.stringItem (cstr "modTime")).getD [])

/-- `sscanf("%2hhx")` on two characters. -/
def scanHexByte (a b : UInt8) : UInt8 :=
  match hexValue a, hexValue b with
  | some x, some y => UInt8.ofNat (16 * x + y)
  | some x, none => UInt8.ofNat x
  | none, _ => 0

def scanHex : CString → Bytes
  | a :: b :: rest => scanHexByte a b :: scanHex rest
  | [a] => [scanHexByte a 0]
  | [] => []

def checksumFromJson (j : Json) : Checksum where
  algo := charArray 16 ((j.stringItem (cstr "algo")).getD [])
  hash := (scanHex ((j.stringItem (cstr "hash")).getD [])).take 32

def erasureFromJson (j : Json) : XlErasure :=
  let data := j.u32Item (cstr "data")
  let parity := j.u32Item (cstr "parity")
  let count := data + parity
  { algorithm := charArray 16 ((j.stringItem (cstr "algorithm")).getD [])
    data := data
    parity := parity
    blockSize := j.sizeItem (cstr "blockSize")
    index := j.u32Item (cstr "index")
    -- elements that are not numbers are passed over
    distribution := ((((j.arrayItem (cstr "distribution")).getD []).filterMap asNumber).take
      count).map fun d => u32OfInt d.valueInt
    checksums := (((j.arrayItem (cstr "checksums")).getD []).take count).map checksumFromJson }

def userMetaFromJson (j : Json) : XlUserMeta where
  contentType := j.stringItem (cstr "content-type")
  etag := j.stringItem (cstr "etag")
  cacheControl := j.stringItem (cstr "cache-control")
  contentDisposition := j.stringItem (cstr "content-disposition")
  contentEncoding := j.stringItem (cstr "content-encoding")
  contentLanguage := j.stringItem (cstr "content-language")
  expires := j.stringItem (cstr "expires")
  user := (j.members.filter fun member => member.1.take 11 == amzMeta).filterMap fun member =>
    (asString member.2).map fun value => (member.1.drop 11, value)

def versioningFromJson (j : Json) : XlVersioning where
  versionId := j.stringItem (cstr "versionId")
  isLatest := (j.boolItem (cstr "isLatest")).getD false
  isDeleteMarker := (j.boolItem (cstr "isDeleteMarker")).getD false
  deleteMarkerVersionId := j.stringItem (cstr "deleteMarkerVersionId")

/-- `buckets_xl_meta_from_json`, from the parsed tree.  A missing sub-object leaves its fields
zeroed, as looking members up in `null` does. -/
def xlMetaFromJson (root : Json) : XlMeta where
  version := root.u32Item (cstr "version")
  format := charArray 8 ((root.stringItem (cstr "format")).getD [])
  bucket := root.stringItem (cstr "bucket")
  object := root.stringItem (cstr "object")
  stat := statFromJson ((root.getObjectItem (cstr "stat")).getD null)
  erasure := erasureFromJson ((root.getObjectItem (cstr "erasure")).getD null)
  userMeta := userMetaFromJson ((root.getObjectItem (cstr "meta")).getD null)
  versioning := versioningFromJson ((root.getObjectItem (cstr "versioning")).getD null)
  inlineData := root.stringItem (cstr "inline")

/-! ## 5. The round trip -/

/-- The fields fit what they are stored in: the fixed arrays, `int` and the integers of `double`;
the two arrays have an element for each chunk, and an unversioned record has no version data. -/
structure XlMeta.Storable (xl : XlMeta) : Prop where
  version : xl.version < 2 ^ 31
  format : xl.format.length < 8
  size : xl.stat.size < 2 ^ 53
  modTime : xl.stat.modTime.length < 32
  algorithm : xl.erasure.algorithm.length < 16
  data : xl.erasure.data < 2 ^ 31
  parity : xl.erasure.parity < 2 ^ 31
  blockSize : xl.erasure.blockSize < 2 ^ 53
  index : xl.erasure.index < 2 ^ 31
  distribution_length : xl.erasure.distribution.length = xl.erasure.data + xl.erasure.parity
  distribution : ∀ d ∈ xl.erasure.distribution, d < 2 ^ 31
  checksums_length : xl.erasure.checksums.length = xl.erasure.data + xl.erasure.parity
  checksums : ∀ c ∈ xl.erasure.checksums, c.algo.length < 16 ∧ c.hash.length = 32
  user : ∀ entry ∈ xl.userMeta.user, entry.1.length ≤ 244
  versioning : xl.versioning.versionId = none → xl.versioning = {}

/-- The literal member names of an object are distinct up to case. -/
theorem nodup_names (ms : List (CString × Option Json)) (literals : List String)
    (hnames : ms.map Prod.fst = literals.map cstr)
    (hnodup : (literals.map fun s => (cstr s).map toLower).Nodup) : (names ms).Nodup := by
  have heq : names ms = literals.map fun s => (cstr s).map toLower := by
    have h := congrArg (List.map (List.map toLower)) hnames
    rw [List.map_map, List.map_map] at h
    exact h
  rw [heq]
  exact hnodup

theorem statFromJson_statMembers {stat : XlStat} (hsize : stat.size < 2 ^ 53)
    (hmod : stat.modTime.length < 32) : statFromJson (mkObject (statMembers stat)) = stat := by
  have hnodup := nodup_names (statMembers stat) ["size", "modTime"] rfl (by decide)
  have hitem : ∀ {name v}, (name, v) ∈ statMembers stat →
      (mkObject (statMembers stat)).getObjectItem name = v := getObjectItem_mkObject hnodup
  rw [statFromJson, sizeItem_eq (hitem (by simp [statMembers])) hsize,
    stringItem_eq (s := some stat.modTime) (hitem (by simp [statMembers])), Option.getD_some,
    charArray_of_lt hmod]

theorem scanHex_hexByte : ∀ hash : Bytes, scanHex (hash.flatMap hexByte) = hash
  | [] => rfl
  | b :: t => by
    have hb := b.toNat_lt
    have hbyte : scanHexByte (hexDigit (b.toNat / 16)) (hexDigit (b.toNat % 16)) = b := by
      rw [scanHexByte, hexValue_hexDigit (by omega), hexValue_hexDigit (Nat.mod_lt _ (by omega))]
      dsimp only
      rw [Nat.div_add_mod, UInt8.ofNat_toNat]
    have ih := scanHex_hexByte t
    simp only [List.flatMap_cons, hexByte, List.cons_append, List.nil_append, scanHex, hbyte]
    exact congrArg (b :: ·) ih

theorem checksumFromJson_checksumMembers {c : Checksum} (halgo : c.algo.length < 16)
    (hhash : c.hash.length = 32) : checksumFromJson (mkObject (checksumMembers c)) = c := by
  have hnodup := nodup_names (checksumMembers c) ["algo", "hash"] rfl (by decide)
  have hitem : ∀ {name v}, (name, v) ∈ checksumMembers c →
      (mkObject (checksumMembers c)).getObjectItem name = v := getObjectItem_mkObject hnodup
  rw [checksumFromJson, stringItem_eq (s := some c.algo) (hitem (by simp [checksumMembers])),
    stringItem_eq (s := some (c.hash.flatMap hexByte)) (hitem (by simp [checksumMembers])),
    Option.getD_some, Option.getD_some, charArray_of_lt halgo, scanHex_hexByte,
    List.take_of_length_le hhash.le]

theorem u32_of_ints {l : List ℕ} (h : ∀ d ∈ l, d < 2 ^ 31) :
    (((l.map fun d : ℕ => int d).filterMap asNumber).take l.length).map
      (fun d => u32OfInt d.valueInt) = l := by
  have hnum : (l.map fun d : ℕ => int d).filterMap asNumber =
      l.map fun d : ℕ => Double.ofInt d := by
    rw [List.filterMap_map]
    exact congrFun List.filterMap_eq_map l
  rw [hnum, List.take_of_length_le (by simp), List.map_map]
  conv_rhs => rw [← List.map_id l]
  refine List.map_congr_left fun d hd => ?_
  have hlt := h d hd
  rw [Function.comp_apply, Double.valueInt_ofInt (by omega) (by omega), u32OfInt_natCast hlt, id]

theorem erasureFromJson_erasureMembers {xl : XlMeta} (h : xl.Storable) :
    erasureFromJson (mkObject (erasureMembers xl.erasure)) = xl.erasure := by
  have hnodup := nodup_names (erasureMembers xl.erasure)
    ["algorithm", "data", "parity", "blockSize", "index", "distribution", "checksums"] rfl
    (by decide)
  have hitem : ∀ {name v}, (name, v) ∈ erasureMembers xl.erasure →
      (mkObject (erasureMembers xl.erasure)).getObjectItem name = v := getObjectItem_mkObject hnodup
  have hsums : ((xl.erasure.checksums.map fun c => mkObject (checksumMembers c)).take
      (xl.erasure.data + xl.erasure.parity)).map checksumFromJson = xl.erasure.checksums := by
    rw [← h.checksums_length, List.take_of_length_le (by simp), List.map_map]
    conv_rhs => rw [← List.map_id xl.erasure.checksums]
    refine List.map_congr_left fun c hc => ?_
    exact checksumFromJson_checksumMembers (h.checksums c hc).1 (h.checksums c hc).2
  have hdist := u32_of_ints h.distribution
  rw [h.distribution_length] at hdist
  have htakeD := List.take_of_length_le h.distribution_length.le
  have htakeC := List.take_of_length_le h.checksums_length.le
  rw [erasureFromJson, u32Item_eq (n := xl.erasure.data) (hitem (by simp [erasureMembers])) h.data,
    u32Item_eq (n := xl.erasure.parity) (hitem (by simp [erasureMembers])) h.parity,
    u32Item_eq (n := xl.erasure.index) (hitem (by simp [erasureMembers])) h.index,
    sizeItem_eq (n := xl.erasure.blockSize) (hitem (by simp [erasureMembers])) h.blockSize,
    stringItem_eq (s := some xl.erasure.algorithm) (hitem (by simp [erasureMembers])),
    arrayItem_eq (hitem (List.mem_of_getElem? (i := 5) rfl)),
    arrayItem_eq (hitem (List.mem_of_getElem? (i := 6) rfl))]
  simp only [Option.getD_some, htakeD, htakeC, hdist, hsums, charArray_of_lt h.algorithm]

theorem take_amzMeta {key : CString} (h : key.length ≤ 244) :
    (charArray 256 (amzMeta ++ key)).take 11 = amzMeta ∧
      (charArray 256 (amzMeta ++ key)).drop 11 = key := by
  have hlen : amzMeta.length = 11 := rfl
  rw [charArray_of_lt (by rw [List.length_append, hlen]; omega)]
  exact ⟨List.take_left' hlen, List.drop_left' hlen⟩

/-- No user member has the name of a standard one. -/
theorem notMem_names_userMembers {user : List (CString × CString)}
    (h : ∀ entry ∈ user, entry.1.length ≤ 244) {name : CString}
    (hname : (name.map toLower).take 11 ≠ amzMeta) :
    name.map toLower ∉ names (userMembers user) := by
  intro hmem
  simp only [names, userMembers, List.map_map, List.mem_map, Function.comp_apply] at hmem
  obtain ⟨entry, hentry, heq⟩ := hmem
  apply hname
  rw [← heq, ← List.map_take, (take_amzMeta (h entry hentry)).1]
  decide

/-- The user's entries are read back from their members. -/
theorem userEntries_userMembers : ∀ {user : List (CString × CString)},
    (∀ entry ∈ user, entry.1.length ≤ 244) →
    (((mkObject (userMembers user)).members.filter fun member => member.1.take 11 ==
      amzMeta).filterMap
      fun member => (asString member.2).map fun value => (member.1.drop 11, value)) = user
  | [], _ => rfl
  | (key, value) :: t, h => by
    have hkey := take_amzMeta (h (key, value) (by simp))
    have ih := userEntries_userMembers fun entry hentry => h entry (List.mem_cons_of_mem _ hentry)
    simp only [userMembers, mkObject, members, List.map_cons] at ih ⊢
    simp only [List.filterMap_cons, Option.map_some, List.filter_cons, hkey.1, beq_self_eq_true,
      if_true, asString_string, hkey.2, ih]

/-- The standard members are not taken for the user's. -/
theorem filter_standardMembers (m : XlUserMeta) :
    (mkObject (standardMembers m)).members.filter (fun member => member.1.take 11 == amzMeta) =
      [] := by
  have hnames : ∀ name ∈ (standardMembers m).map Prod.fst, ¬ (name.take 11 == amzMeta) = true := by
    show ∀ name ∈ ["content-type", "etag", "cache-control", "content-disposition",
      "content-encoding", "content-language", "expires"].map cstr, _
    decide
  refine List.filter_eq_nil_iff.mpr fun member hmem => ?_
  obtain ⟨entry, hentry, hsome⟩ := List.mem_filterMap.mp hmem
  obtain ⟨v, -, rfl⟩ := Option.map_eq_some_iff.mp hsome
  exact hnames entry.1 (List.mem_map_of_mem hentry)

theorem members_mkObject_append (front back : List (CString × Option Json)) :
    (mkObject (front ++ back)).members = (mkObject front).members ++ (mkObject back).members :=
  List.filterMap_append

theorem userMetaFromJson_members {m : XlUserMeta} (h : ∀ entry ∈ m.user, entry.1.length ≤ 244) :
    userMetaFromJson (mkObject (standardMembers m ++ userMembers m.user)) = m := by
  have hnodup := nodup_names (standardMembers m)
    ["content-type", "etag", "cache-control", "content-disposition", "content-encoding",
     "content-language", "expires"] rfl (by decide)
  have hitem : ∀ {name s}, (name, Option.map string s) ∈ standardMembers m →
      (name.map toLower).take 11 ≠ amzMeta →
      (mkObject (standardMembers m ++ userMembers m.user)).stringItem name = s :=
    fun hmem hname => stringItem_eq
      (getObjectItem_mkObject_append hnodup hmem (notMem_names_userMembers h hname))
  have huser : ((mkObject (standardMembers m ++ userMembers m.user)).members.filter
      fun member => member.1.take 11 == amzMeta).filterMap
        (fun member => (asString member.2).map fun value => (member.1.drop 11, value)) =
      m.user := by
    rw [members_mkObject_append, List.filter_append, filter_standardMembers, List.nil_append]
    exact userEntries_userMembers h
  rw [userMetaFromJson, hitem (List.mem_of_getElem? (i := 0) rfl) (by decide),
    hitem (List.mem_of_getElem? (i := 1) rfl) (by decide),
    hitem (List.mem_of_getElem? (i := 2) rfl) (by decide),
    hitem (List.mem_of_getElem? (i := 3) rfl) (by decide),
    hitem (List.mem_of_getElem? (i := 4) rfl) (by decide),
    hitem (List.mem_of_getElem? (i := 5) rfl) (by decide),
    hitem (List.mem_of_getElem? (i := 6) rfl) (by decide), huser]

theorem versioningFromJson_versioningMembers {v : XlVersioning} :
    versioningFromJson (mkObject (versioningMembers v)) = v := by
  have hnodup := nodup_names (versioningMembers v)
    ["versionId", "isLatest", "isDeleteMarker", "deleteMarkerVersionId"] rfl (by decide)
  have hitem : ∀ {name w}, (name, w) ∈ versioningMembers v →
      (mkObject (versioningMembers v)).getObjectItem name = w := getObjectItem_mkObject hnodup
  rw [versioningFromJson, stringItem_eq (hitem (List.mem_of_getElem? (i := 0) rfl)),
    boolItem_eq (hitem (List.mem_of_getElem? (i := 1) rfl)),
    boolItem_eq (hitem (List.mem_of_getElem? (i := 2) rfl)),
    stringItem_eq (hitem (List.mem_of_getElem? (i := 3) rfl))]
  rfl

/-- **What `xl.meta` stores it returns.** -/
theorem xlMetaFromJson_xlMetaToJson {xl : XlMeta} (h : xl.Storable) :
    xlMetaFromJson (xlMetaToJson xl) = xl := by
  have hnodup := nodup_names (xlMetaMembers xl)
    ["version", "format", "bucket", "object", "stat", "erasure", "meta", "versioning", "inline"]
    rfl (by decide)
  have hitem : ∀ {name v}, (name, v) ∈ xlMetaMembers xl →
      (xlMetaToJson xl).getObjectItem name = v := getObjectItem_mkObject hnodup
  have hversioning : versioningFromJson ((xl.versioning.versionId.map fun _ =>
      mkObject (versioningMembers xl.versioning)).getD null) = xl.versioning := by
    cases hid : xl.versioning.versionId with
    | none => rw [h.versioning hid]; rfl
    | some id => exact versioningFromJson_versioningMembers
  rw [xlMetaFromJson, u32Item_eq (n := xl.version) (hitem (List.mem_of_getElem? (i := 0) rfl))
      h.version,
    stringItem_eq (s := some xl.format) (hitem (List.mem_of_getElem? (i := 1) rfl)),
    stringItem_eq (hitem (List.mem_of_getElem? (i := 2) rfl)),
    stringItem_eq (hitem (List.mem_of_getElem? (i := 3) rfl)),
    hitem (List.mem_of_getElem? (i := 4) rfl), hitem (List.mem_of_getElem? (i := 5) rfl),
    hitem (List.mem_of_getElem? (i := 6) rfl), hitem (List.mem_of_getElem? (i := 7) rfl),
    stringItem_eq (hitem (List.mem_of_getElem? (i := 8) rfl)), hversioning]
  simp only [Option.getD_some, charArray_of_lt h.format,
    statFromJson_statMembers h.size h.modTime, erasureFromJson_erasureMembers h,
    userMetaFromJson_members h.user]

end Buckets
