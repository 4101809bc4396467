/-
# What a put writes into `xl.meta`, and what comes back

A put builds its record from the request: content type, user metadata, sizes, checksums, a version
id. `XlMeta.Storable` says when a record comes back from `xl.meta` as it was.  Everything that the
put path fills in meets it EXCEPT the names of the user's metadata: the parser takes a name of any
length, and `buckets_xl_meta_to_json` writes it behind `x-amz-meta-` in a buffer of 256 bytes.

* `Built`: the records of the put path, with and without metadata, inline and in chunks, and the
  copies for the disks;
* `xlMetaToJson_cutNames`: a record is written as the record with its names cut to 244 bytes;
* `built_roundTrip_iff`: so it comes back EXACTLY IF no name is longer.
-/
import Buckets.Object
import Buckets.S3Request

namespace Buckets

/-! ## 1. The put path -/

/-- `buckets_add_user_metadata`: the value of a name that is there is replaced. -/
def addUserMetadata : List (CString × CString) → CString → CString → List (CString × CString)
  | [], key, value => [(key, value)]
  | entry :: user, key, value =>
    if entry.1 = key then (entry.1, value) :: user else entry :: addUserMetadata user key value

/-- The loops that add one entry after the other. -/
def addAllMetadata (user : List (CString × CString)) : List (CString × CString) :=
  user.foldl (fun user entry => addUserMetadata user entry.1 entry.2) []

/-- The metadata that `buckets_s3_put_object` makes of a request. -/
def requestMeta (req : S3Request) : XlUserMeta where
  contentType := if req.contentType = [] then none else some req.contentType
  user := addAllMetadata req.userMeta

/-- One call of `buckets_put_object_with_metadata`, with the version id it generates if versioning
is enabled.  The content type of `call` is not used. -/
structure MetadataPut where
  call : PutCall
  provided : Option XlUserMeta
  versionId : Option CString

/-- `buckets_compute_etag`. -/
def computeEtag (hashes : Hashes) (data : Bytes) : CString :=
  (hashes.blake2b256 data).flatMap hexByte

/-- The record before the contents are added. -/
def MetadataPut.base (hashes : Hashes) (put : MetadataPut) : XlMeta :=
  { baseMeta put.call with
    userMeta := { put.provided.getD {} with
      etag := some (computeEtag hashes put.call.data)
      user := addAllMetadata (put.provided.getD {}).user }
    versioning :=
      match put.versionId with
      | none => {}
      | some id => { versionId := some id, isLatest := true, isDeleteMarker := false } }

/-- The record of an inline object. -/
def MetadataPut.inlineMeta (hashes : Hashes) (put : MetadataPut) : XlMeta :=
  { put.base hashes with inlineData := some (base64Encode put.call.data) }

/-- The record of an erasure-coded object. -/
def MetadataPut.ecMeta (hashes : Hashes) (put : MetadataPut) (k m : ℕ) (chunks : ℕ → Bytes) :
    XlMeta :=
  { put.base hashes with
    erasure := (Buckets.ecMeta hashes put.call k m (calculateChunkSize put.call.data.length k)
      chunks).erasure }

/-- The records that the put path can build. -/
inductive Built (hashes : Hashes) : XlMeta → Prop
  | inline (call : PutCall) : Built hashes (inlineMeta call)
  | chunks (call : PutCall) {k m : ℕ} (hconfig : ecValidateConfig k m = true) (chunks : ℕ → Bytes) :
    Built hashes (ecMeta hashes call k m (calculateChunkSize call.data.length k) chunks)
  | metadataInline (put : MetadataPut) : Built hashes (put.inlineMeta hashes)
  | metadataChunks (put : MetadataPut) {k m : ℕ} (hconfig : ecValidateConfig k m = true)
    (chunks : ℕ → Bytes) : Built hashes (put.ecMeta hashes k m chunks)
  /-- The copy for disk `i` that `buckets_parallel_write_metadata` makes. -/
  | copy {xl : XlMeta} (h : Built hashes xl) {i : ℕ} (hi : i < 32) :
    Built hashes { xl with erasure := { xl.erasure with index := i + 1 } }

/-! ## 2. The names of user metadata -/

/-- What the buffer leaves of an entry. -/
def cutName (entry : CString × CString) : CString × CString := (entry.1.take 244, entry.2)

def XlMeta.cutNames (xl : XlMeta) : XlMeta :=
  { xl with userMeta := { xl.userMeta with user := xl.userMeta.user.map cutName } }

theorem cutName_eq_iff (entry : CString × CString) :
    cutName entry = entry ↔ entry.1.length ≤ 244 := by
  rw [cutName, Prod.ext_iff]
  simp [List.take_eq_self_iff]

theorem cutNames_eq_iff (xl : XlMeta) :
    xl.cutNames = xl ↔ ∀ entry ∈ xl.userMeta.user, entry.1.length ≤ 244 := by
  have hmap : xl.userMeta.user.map cutName = xl.userMeta.user ↔
      ∀ entry ∈ xl.userMeta.user, cutName entry = entry := by
    simpa using List.map_inj_left (f := cutName) (g := id) (l := xl.userMeta.user)
  simp only [cutName_eq_iff] at hmap
  rw [← hmap]
  constructor
  · intro heq
    exact congrArg (fun xl => xl.userMeta.user) heq
  · intro heq
    rw [XlMeta.cutNames, heq]

/-- **A record is written as the one with its names cut.** -/
theorem xlMetaToJson_cutNames (xl : XlMeta) : xlMetaToJson xl.cutNames = xlMetaToJson xl := by
  have hname : ∀ key : CString,
      charArray 256 (amzMeta ++ key.take 244) = charArray 256 (amzMeta ++ key) := by
    intro key
    have hlength : amzMeta.length = 11 := by decide
    rw [charArray, charArray, List.take_append, List.take_append, hlength, List.take_take]
    rfl
  have hmembers : userMembers (xl.userMeta.user.map cutName) = userMembers xl.userMeta.user := by
    rw [userMembers, userMembers, List.map_map]
    refine List.map_congr_left fun entry _ => ?_
    simp only [Function.comp_apply, cutName, hname]
  simp only [xlMetaToJson, xlMetaMembers, XlMeta.cutNames, hmembers]
  rfl

/-! ## 3. The other fields -/

/-- Other metadata, with names that fit. -/
theorem XlMeta.Storable.withMeta {xl : XlMeta} (h : xl.Storable) {userMeta : XlUserMeta}
    {versioning : XlVersioning} (huser : ∀ entry ∈ userMeta.user, entry.1.length ≤ 244)
    (hversioning : versioning.versionId = none → versioning = {}) :
    { xl with userMeta := userMeta, versioning := versioning : XlMeta }.Storable :=
  { h with user := huser, versioning := hversioning }

theorem XlMeta.Storable.withIndex {xl : XlMeta} (h : xl.Storable) {i : ℕ} (hi : i < 32) :
    { xl with erasure := { xl.erasure with index := i + 1 } : XlMeta }.Storable :=
  { h with index := by dsimp only; omega }

theorem ecMeta_storable {hashes : Hashes} {call : PutCall} {k m : ℕ} {chunks : ℕ → Bytes}
    (hsize : call.data.length < 2 ^ 53) (hconfig : ecValidateConfig k m = true) :
    (ecMeta hashes call k m (calculateChunkSize call.data.length k) chunks).Storable := by
  have hle := calculateChunkSize_le call.data.length k
  have hlt : calculateChunkSize call.data.length k < 2 ^ 31 := by
    unfold maxChunkSize at hle
    omega
  have hk : k ≤ 16 ∧ m ≤ 16 := by
    unfold ecValidateConfig at hconfig
    split_ifs at hconfig with hk hm
    simp only [Bool.or_eq_true, decide_eq_true_eq, not_or] at hk hm
    omega
  exact ecRecord_storable (i := 0) hsize hk.1 hk.2 hlt (by omega)

theorem length_cutName_le {user : List (CString × CString)} :
    ∀ entry ∈ user.map cutName, entry.1.length ≤ 244 := by
  intro entry hentry
  obtain ⟨entry, -, rfl⟩ := List.mem_map.mp hentry
  exact List.length_take_le 244 entry.1

theorem MetadataPut.versioning_base (hashes : Hashes) (put : MetadataPut)
    (h : (put.base hashes).versioning.versionId = none) : (put.base hashes).versioning = {} := by
  unfold MetadataPut.base at h ⊢
  cases hid : put.versionId with
  | none => rfl
  | some id => simp [hid] at h

/-- Apart from the names, **every field of a record of the put path fits**. -/
theorem Built.cutNames_storable {hashes : Hashes} {xl : XlMeta} (h : Built hashes xl)
    (hsize : xl.stat.size < 2 ^ 53) : xl.cutNames.Storable := by
  induction h with
  | inline call => exact inlineMeta_storable hsize
  | chunks call hconfig chunks => exact ecMeta_storable hsize hconfig
  | metadataInline put =>
    have hplain : (inlineMeta put.call).Storable := inlineMeta_storable hsize
    exact hplain.withMeta length_cutName_le (put.versioning_base hashes)
  | @metadataChunks put k m hconfig chunks =>
    have hplain := @ecMeta_storable hashes put.call k m chunks hsize hconfig
    exact hplain.withMeta length_cutName_le (put.versioning_base hashes)
  | copy _ hi ih => exact (ih hsize).withIndex hi

/-! ## 4. The round trip -/

/-- What comes back is the record with its names cut. -/
theorem Built.roundTrip (cjson : CJson) {hashes : Hashes} {xl : XlMeta} (h : Built hashes xl)
    (hsize : xl.stat.size < 2 ^ 53) :
    (cjson.parse (cjson.print (xlMetaToJson xl))).map xlMetaFromJson = some xl.cutNames := by
  rw [cjson.parse_print, Option.map_some, ← xlMetaToJson_cutNames,
    xlMetaFromJson_xlMetaToJson (h.cutNames_storable hsize)]

/-- **A record of the put path comes back from `xl.meta`** exactly if no name of the user's metadata
is longer than 244 bytes. -/
theorem built_roundTrip_iff (cjson : CJson) {hashes : Hashes} {xl : XlMeta} (h : Built hashes xl)
    (hsize : xl.stat.size < 2 ^ 53) :
    (cjson.parse (cjson.print (xlMetaToJson xl))).map xlMetaFromJson = some xl ↔
      ∀ entry ∈ xl.userMeta.user, entry.1.length ≤ 244 := by
  rw [h.roundTrip cjson hsize, Option.some_inj, cutNames_eq_iff]

/-- A request for one byte, with one header of user metadata. -/
def metadataRequest (key : CString) : HttpRequest where
  method := cstr "PUT"
  uri := cstr "/photos/cat"
  headers := [(amzMeta ++ key, cstr "v")]
  body := [7]

/-- The put that a request leads to. -/
def requestPut (req : S3Request) : MetadataPut where
  call := ⟨req.bucket, req.key, req.body, none, cstr "2026-01-02T03:04:05Z", 0⟩
  provided := some (requestMeta req)
  versionId := none

/-- The parser takes the name, whatever its length. -/
theorem s3ParseRequest_metadataRequest (key : CString) :
    ∃ req, s3ParseRequest (metadataRequest key) = some req ∧ req.body = [7] ∧
      req.userMeta = [(key, cstr "v")] := by
  have hpath : parseS3Path (metadataRequest key).uri = some (cstr "photos", cstr "cat") := by
    show parseS3Path (cstr "/photos/cat") = _
    decide
  have hstart : headersWithPrefix (metadataRequest key).headers (cstr "x-amz-meta-") =
      [(amzMeta ++ key, cstr "v")] := by
    have htake : (amzMeta ++ key).take (cstr "x-amz-meta-").length = amzMeta := List.take_left
    refine List.filter_cons_of_pos ?_
    dsimp only
    rw [htake, List.length_append]
    simp [amzMeta, eqNoCase]
  have hdrop : (amzMeta ++ key).drop 11 = key := by
    have hlength : amzMeta.length = 11 := by decide
    rw [← hlength, List.drop_left]
  refine ⟨_, by rw [s3ParseRequest, hpath, Option.map_some], rfl, ?_⟩
  rw [hstart, List.take_of_length_le (by simp [maxUserMetadata]), List.map_cons,
    List.map_nil, hdrop]

theorem user_requestPut {req : S3Request} {entry : CString × CString} (hashes : Hashes)
    (h : req.userMeta = [entry]) :
    ((requestPut req).inlineMeta hashes).userMeta.user = [entry] := by
  show addAllMetadata (addAllMetadata req.userMeta) = [entry]
  rw [h]
  rfl

/-- The name `color`. -/
theorem built_roundTrip_color : ∃ req, s3ParseRequest (metadataRequest (cstr "color")) = some req ∧
    (CJson.reference.parse (CJson.reference.print (xlMetaToJson
      ((requestPut req).inlineMeta Hashes.firstByte)))).map xlMetaFromJson =
        some ((requestPut req).inlineMeta Hashes.firstByte) := by
  obtain ⟨req, hreq, hbody, huser⟩ := s3ParseRequest_metadataRequest (cstr "color")
  have hsize : ((requestPut req).inlineMeta Hashes.firstByte).stat.size < 2 ^ 53 := by
    show req.body.length < 2 ^ 53
    rw [hbody]
    decide
  refine ⟨req, hreq, (built_roundTrip_iff CJson.reference (.metadataInline _) hsize).mpr ?_⟩
  rw [user_requestPut Hashes.firstByte huser]
  simp [cstr]

/-- A name of 245 bytes loses its last one. -/
theorem built_roundTrip_long_name : ∃ req,
    s3ParseRequest (metadataRequest (List.replicate 245 97)) = some req ∧
    Built Hashes.firstByte ((requestPut req).inlineMeta Hashes.firstByte) ∧
    ((requestPut req).inlineMeta Hashes.firstByte).stat.size < 2 ^ 53 ∧
    (CJson.reference.parse (CJson.reference.print (xlMetaToJson
      ((requestPut req).inlineMeta Hashes.firstByte)))).map xlMetaFromJson ≠
        some ((requestPut req).inlineMeta Hashes.firstByte) := by
  obtain ⟨req, hreq, hbody, huser⟩ := s3ParseRequest_metadataRequest (List.replicate 245 97)
  have hsize : ((requestPut req).inlineMeta Hashes.firstByte).stat.size < 2 ^ 53 := by
    show req.body.length < 2 ^ 53
    rw [hbody]
    decide
  have hbuilt : Built Hashes.firstByte ((requestPut req).inlineMeta Hashes.firstByte) :=
    .metadataInline _
  refine ⟨req, hreq, hbuilt, hsize, ?_⟩
  rw [hbuilt.roundTrip CJson.reference hsize, ne_eq, Option.some_inj, cutNames_eq_iff,
    user_requestPut Hashes.firstByte huser]
  intro hshort
  have hlength := hshort _ List.mem_cons_self
  rw [List.length_replicate] at hlength
  omega

end Buckets
