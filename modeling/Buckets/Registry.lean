/-
# `registry/registry.c`: recording and listing the locations of objects

The registry is a bucket of its own, `.buckets-registry`: recording a location puts its JSON text
there, through the same `buckets_put_object` as any object.  Listing does not look for these
records.  In a cluster it merges what the nodes list (`storage.listObjects`); otherwise, and also if
that gave nothing, it goes through the `xl.meta` files of ONE disk, `disk1` or the data directory
itself, and takes

* from a file with a bucket and an object name, as every put writes them now, the name of the
  OBJECT, with made-up values for the rest of the location;
* from a file without, as puts wrote them once, a registry record carried inline.

Both scans stop at a limit, and 0, "unlimited", is 1000.

* `scanDataDir_eq` -- what a scan returns, from the files it sees;
* `registryList_cluster` -- what is listed in a cluster.
-/
import Buckets.Lib.LimitedScan
import Buckets.Object

namespace Buckets

open Json

/-! ## 1. Locations -/

/-- `buckets_object_location_t`, with strings that may be `NULL` and all of `disk_idxs`. -/
structure RegistryLocation where
  bucket : Option CString := none
  object : Option CString := none
  versionId : Option CString := none
  poolIdx : ℕ := 0
  setIdx : ℕ := 0
  diskCount : ℕ := 0
  diskIdxs : List ℕ := List.replicate 16 0
  generation : ℤ := 0
  modTime : ℤ := 0
  size : ℕ := 0
deriving DecidableEq

namespace RegistryLocation

/-- What identifies a location: bucket, object and version. -/
def key (loc : RegistryLocation) : Option CString × Option CString × Option CString :=
  (loc.bucket, loc.object, loc.versionId)

end RegistryLocation

namespace ObjectLocation

/-- A location as the struct holds it. -/
def toRegistry (loc : ObjectLocation) : RegistryLocation where
  bucket := some loc.bucket
  object := some loc.object
  versionId := some loc.versionId
  poolIdx := loc.poolIdx
  setIdx := loc.setIdx
  diskCount := loc.diskCount
  diskIdxs := (List.range 16).map fun i => loc.diskIdxs.getD i 0
  generation := loc.generation
  modTime := loc.modTime
  size := loc.size

def key (loc : ObjectLocation) : CString × CString × CString :=
  (loc.bucket, loc.object, loc.versionId)

end ObjectLocation

/-- `cJSON_Parse` on a string: it accepts the texts, and reads them as their trees. -/
structure JsonParser (cjson : CJson) where
  parse : Bytes → Option Json
  parse_chars : ∀ text, parse (cjson.chars text) = cjson.parse text

/-- The parser that accepts nothing else. -/
noncomputable def JsonParser.strict (cjson : CJson) : JsonParser cjson where
  parse bytes := open Classical in
    if h : ∃ text, cjson.chars text = bytes then cjson.parse h.choose else none
  parse_chars := by
    intro text
    have h : ∃ text', cjson.chars text' = cjson.chars text := ⟨text, rfl⟩
    rw [dif_pos h, cjson.chars_injective h.choose_spec]

/-- The loop of `decode_base64_inline`, with its bits so far.  The six low bits of the shifted
`accum` are free, so `|` adds; characters not in the alphabet are skipped. -/
def decodeInlineLoop : ℕ → ℕ → CString → Bytes
  | _, _, [] => []
  | accum, bits, c :: rest =>
    if c = padChar then []
    else if base64Chars.idxOf c < 64 then
      let accum := (accum * 64 + base64Chars.idxOf c) % 2 ^ 32
      if bits + 6 ≥ 8 then
        UInt8.ofNat (accum / 2 ^ (bits + 6 - 8) % 256) :: decodeInlineLoop accum (bits + 6 - 8) rest
      else decodeInlineLoop accum (bits + 6) rest
    else decodeInlineLoop accum bits rest

/-- `decode_base64_inline`. -/
def decodeBase64Inline (encoded : CString) : Option Bytes :=
  if encoded.length = 0 then none else some (decodeInlineLoop 0 0 encoded)

/-- `parse_registry_json`, from the parsed tree. -/
def parseRegistryJson (j : Json) : RegistryLocation where
  bucket := j.stringItem (cstr "bucket")
  object := j.stringItem (cstr "object")
  versionId := j.stringItem (cstr "version_id")
  poolIdx := j.u32Item (cstr "pool_idx")
  setIdx := j.u32Item (cstr "set_idx")
  diskCount := j.u32Item (cstr "disk_count")
  diskIdxs := (List.range 16).map fun i =>
    (((((j.arrayItem (cstr "disk_idxs")).getD [])[i]?).bind asNumber).map
      fun d => u32OfInt d.valueInt).getD 0
  generation := (((j.getObjectItem (cstr "generation")).bind asNumber).map Double.val).getD 0
  modTime := (((j.getObjectItem (cstr "mod_time")).bind asNumber).map Double.val).getD 0
  size := j.sizeItem (cstr "size")

/-! ## 2. Scanning a disk -/

/-- The entries of a hash directory: a name, and the `xl.meta` below it if that can be opened. -/
abbrev HashDir (Text : Type) := List (CString × Option Text)

/-- The entries of a data directory, in the order of `readdir`, each with its own entries if it can
be opened. -/
abbrev DataDir (Text : Type) := List (CString × Option (HashDir Text))

/-- The directories that `opendir` finds. -/
abbrev DirView (Text : Type) := CString → Option (DataDir Text)

/-- `c >= '0' && c <= '9' || c >= 'a' && c <= 'f'`. -/
def isLowerHex (c : UInt8) : Bool := (48 ≤ c && c ≤ 57) || (97 ≤ c && c ≤ 102)

/-- The name starts with a dot. -/
def isHidden (name : CString) : Bool := name.head? = some 46

/-- A directory of objects: a name of two hexadecimal digits. -/
def isHashPrefix (name : CString) : Bool :=
  !isHidden name && decide (name.length = 2) && name.all isLowerHex

section Scan

variable {Text α : Type}

/-- The loop over the entries of a hash directory. -/
def scanHashDir (entry : Text → Option α) (maxKeys : ℕ) (hashDir : HashDir Text) (found : List α) :
    List α :=
  LimitedScan.collect (fun e => if isHidden e.1 then none else e.2.bind entry) maxKeys hashDir found

/-- The loop over a data directory. -/
def scanDataDir (entry : Text → Option α) (maxKeys : ℕ) : DataDir Text → List α → List α
  | [], found => found
  | (name, hashDir) :: rest, found =>
    match isHashPrefix name, hashDir with
    | true, some hashDir =>
      scanDataDir entry maxKeys rest (scanHashDir entry maxKeys hashDir found)
    | _, _ => scanDataDir entry maxKeys rest found

end Scan

section Entries

variable (cjson : CJson)

/-- The `xl.meta` file, unless it is empty or larger than a megabyte. -/
def readMetaJson (text : cjson.Text) : Option Json :=
  let fileSize := (cjson.chars text).length
  if fileSize = 0 ∨ fileSize > 1024 * 1024 then none else cjson.parse text

/-- `strncmp(object, prefix, strlen(prefix)) == 0`, if there is a prefix. -/
def matchesPrefix (pre : Option CString) (object : CString) : Bool :=
  pre.all fun p => p.isPrefixOf object

/-- The tests on the names in an `xl.meta`. -/
def selects (bucket : CString) (pre : Option CString) (metaBucket metaObject : CString) : Bool :=
  decide (metaBucket = bucket) && !isHidden metaBucket && matchesPrefix pre metaObject

/-- The member `stat` of an `xl.meta`. -/
def statItem (j : Json) : Json := (j.getObjectItem (cstr "stat")).getD null

/-- The location made up for an object from its `xl.meta`. -/
def listedLocation (now : ℤ) (metaBucket metaObject : CString) (j : Json) : RegistryLocation where
  bucket := some metaBucket
  object := some metaObject
  versionId := some (cstr "latest")
  diskCount := 1
  generation := 1
  modTime := if ((statItem j).stringItem (cstr "modTime")).isSome then now else 0
  size := (statItem j).sizeItem (cstr "size")

variable {cjson} (parser : JsonParser cjson)

/-- An `xl.meta` without names: a registry record, if it is JSON carried inline. -/
def oldEntry (bucket : CString) (pre : Option CString) (j : Json) : Option RegistryLocation :=
  ((j.getObjectItem (cstr "meta")).bind fun m => m.stringItem (cstr "content-type")).bind
    fun contentType =>
  if contentType ≠ cstr "application/json" then none
  else
    ((((j.stringItem (cstr "inline")).bind decodeBase64Inline).bind parser.parse).map
      parseRegistryJson).bind fun loc =>
    if loc.bucket ≠ some bucket then none
    else if !loc.object.all (matchesPrefix pre) then none
    else if loc.versionId.any fun v => (cstr "delete-").isPrefixOf v then none
    else some loc

/-- What `buckets_registry_list` takes from an `xl.meta`. -/
def registryEntry (now : ℤ) (bucket : CString) (pre : Option CString) (text : cjson.Text) :
    Option RegistryLocation :=
  (readMetaJson cjson text).bind fun j =>
  match j.stringItem (cstr "bucket"), j.stringItem (cstr "object") with
  | some metaBucket, some metaObject =>
    if selects bucket pre metaBucket metaObject then
      some (listedLocation now metaBucket metaObject j)
    else none
  | _, _ => oldEntry parser bucket pre j

/-! ## 3. Listing in a cluster -/

/-- An object in the answer to `storage.listObjects`. -/
structure ListedObject where
  bucket : CString
  object : CString
  size : Double
  modTime : CString

/-- `dedup_key`. -/
def ListedObject.dedupKey (obj : ListedObject) : CString := joinPath obj.bucket obj.object

variable (cjson)

/-- What `rpc_handler_list_objects` takes from an `xl.meta`. -/
def listedEntry (bucket : CString) (pre : Option CString) (text : cjson.Text) :
    Option ListedObject :=
  (readMetaJson cjson text).bind fun j =>
  match j.stringItem (cstr "bucket"), j.stringItem (cstr "object") with
  | some metaBucket, some metaObject =>
    if selects bucket pre metaBucket metaObject then
      some
        { bucket := metaBucket
          object := metaObject
          size := Double.ofInt ((statItem j).sizeItem (cstr "size"))
          modTime := ((statItem j).stringItem (cstr "modTime")).getD [] }
    else none
  | _, _ => none

variable {cjson}

theorem bucket_of_listedEntry {bucket : CString} {pre : Option CString} {text : cjson.Text}
    {obj : ListedObject} (h : listedEntry cjson bucket pre text = some obj) :
    obj.bucket = bucket := by
  obtain ⟨j, -, hj⟩ := Option.bind_eq_some_iff.mp h
  split at hj
  · split at hj
    · rename_i metaBucket metaObject _ _ hselects
      obtain rfl := Option.some.inj hj
      simp only [selects, Bool.and_eq_true, decide_eq_true_eq] at hselects
      exact hselects.1.1
    · cases hj
  · cases hj

/-- A node of the cluster, and whether the call to it succeeds. -/
structure ClusterNode (Text : Type) where
  endpoint : CString
  reachable : Bool
  dataDir : Option CString
  view : DirView Text

/-- The disks a node lists. -/
def listedDisks (base : CString) : List CString :=
  ["disk1", "disk2", "disk3", "disk4"].map fun disk => joinPath base (cstr disk)

/-- `rpc_handler_list_objects`: the disks one after the other.  An object on several of them is
listed several times. -/
def rpcHandlerListObjects (peer : ClusterNode cjson.Text) (bucket : CString) (pre : Option CString)
    (maxKeys : ℕ) : Option (List ListedObject) :=
  peer.dataDir.map fun base =>
    (listedDisks base).foldl (fun found disk =>
      match peer.view disk with
      | none => found
      | some dir => scanDataDir (listedEntry cjson bucket pre) maxKeys dir found) []

/-- One round of `buckets_distributed_list_objects`: the node is asked for as many as are missing,
and the objects that were not seen before are added. -/
def mergeNode (bucket : CString) (pre : Option CString) (maxKeys : ℕ) (found : List ListedObject)
    (peer : ClusterNode cjson.Text) : List ListedObject :=
  if maxKeys ≤ found.length then found
  else if peer.endpoint = [] || !peer.reachable then found
  else
    match rpcHandlerListObjects peer bucket pre (maxKeys - found.length) with
    | none => found
    | some objects => LimitedScan.merge ListedObject.dedupKey maxKeys objects found

/-- `buckets_distributed_list_objects`; without a cluster there are no nodes. -/
def distributedListObjects (cluster : List (ClusterNode cjson.Text)) (bucket : CString)
    (pre : Option CString) (maxKeys : ℕ) : List ListedObject :=
  let maxKeys := if maxKeys = 0 then 1000 else maxKeys
  cluster.foldl (mergeNode bucket pre maxKeys) []

/-- The location made up for an object listed by a node. -/
def distributedLocation (now : ℤ) (obj : ListedObject) : RegistryLocation where
  bucket := some obj.bucket
  object := some obj.object
  versionId := some (cstr "latest")
  diskCount := 1
  generation := 1
  modTime := now
  size := obj.size.toSize

/-! ## 4. `buckets_registry_list` -/

/-- The directory that is scanned: `disk1`, if there is one. -/
def scannedDisk {Text : Type} (view : DirView Text) (base : CString) : CString :=
  if (view (joinPath base (cstr "disk1"))).isSome then joinPath base (cstr "disk1") else base

/-- The listing of this node alone. -/
def localList (node : Node) (view : DirView cjson.Text) (now : ℤ) (bucket : CString)
    (pre : Option CString) (maxKeys : ℕ) : Option (List RegistryLocation) :=
  node.dataDir.bind fun base =>
    (view (scannedDisk view base)).map fun dir =>
      scanDataDir (registryEntry parser now bucket pre) maxKeys dir []

/-- `buckets_registry_list`: `none` is its error return. -/
def registryList (node : Node) (cluster : List (ClusterNode cjson.Text)) (view : DirView cjson.Text)
    (now : ℤ) (bucket : CString) (pre : Option CString) (maxKeys : ℕ) :
    Option (List RegistryLocation) :=
  if !node.registryInitialized then none
  else
    let maxKeys := if maxKeys = 0 then 1000 else maxKeys
    match distributedListObjects cluster bucket pre maxKeys with
    | [] => localList parser node view now bucket pre maxKeys
    | objects => some (objects.map (distributedLocation now))

end Entries

/-! ## 5. The files a scan sees -/

section Files

variable {Text α : Type}

/-- The files of a hash directory, each with its object path. -/
def hashDirFiles (name : CString) (hashDir : HashDir Text) : List (CString × Text) :=
  hashDir.filterMap fun e =>
    if isHidden e.1 then none else e.2.map fun text => (joinPath name e.1 ++ cstr "/", text)

/-- The files of a data directory. -/
def DataDir.files (dir : DataDir Text) : List (CString × Text) :=
  dir.flatMap fun e => if isHashPrefix e.1 then e.2.elim [] (hashDirFiles e.1) else []

theorem scanHashDir_eq (entry : Text → Option α) {maxKeys : ℕ} (name : CString)
    (hashDir : HashDir Text) {found : List α} (hfound : found.length ≤ maxKeys) :
    scanHashDir entry maxKeys hashDir found =
      (found ++ (hashDirFiles name hashDir).filterMap fun file => entry file.2).take maxKeys := by
  rw [scanHashDir, LimitedScan.collect_eq _ _ _ hfound, hashDirFiles, List.filterMap_filterMap]
  congr 2
  refine List.filterMap_congr fun e _ => ?_
  split
  · rfl
  · cases e.2 <;> rfl

/-- **A scan** returns what the files give, up to the limit. -/
theorem scanDataDir_eq (entry : Text → Option α) {maxKeys : ℕ} (dir : DataDir Text)
    {found : List α} (hfound : found.length ≤ maxKeys) :
    scanDataDir entry maxKeys dir found =
      (found ++ dir.files.filterMap fun file => entry file.2).take maxKeys := by
  induction dir generalizing found with
  | nil =>
    rw [scanDataDir, DataDir.files, List.flatMap_nil, List.filterMap_nil, List.append_nil,
      List.take_of_length_le hfound]
  | cons e dir ih =>
    obtain ⟨name, hashDir⟩ := e
    cases hprefix : isHashPrefix name with
    | false => simpa [scanDataDir, DataDir.files, hprefix] using ih hfound
    | true =>
      cases hashDir with
      | none => simpa [scanDataDir, DataDir.files, hprefix] using ih hfound
      | some hashDir =>
        have hstep : (scanHashDir entry maxKeys hashDir found).length ≤ maxKeys :=
          LimitedScan.length_collect_le _ _ _ hfound
        simp only [scanDataDir, hprefix]
        rw [ih hstep, scanHashDir_eq entry name hashDir hfound, LimitedScan.take_take_append,
          List.append_assoc, ← List.filterMap_append]
        simp [DataDir.files, hprefix]

/-- The directory shows exactly these files, each once. -/
structure DataDir.Shows (dir : DataDir Text) (files : CString → Option Text) : Prop where
  nodup : (dir.files.map Prod.fst).Nodup
  mem_iff : ∀ path text, (path, text) ∈ dir.files ↔ files path = some text

/-- The directories show what is on the disks; a disk that cannot be opened has no files. -/
def DirView.Shows (view : DirView Text) (s : Disks Text) : Prop :=
  ∀ disk, match view disk with
    | none => ∀ path, s.xlMeta disk path = none
    | some dir => dir.Shows (s.xlMeta disk)

/-- All directories in the opposite order. -/
def DataDir.reversed (dir : DataDir Text) : DataDir Text :=
  (dir.map fun e => (e.1, e.2.map List.reverse)).reverse

def DirView.reversed (view : DirView Text) : DirView Text :=
  fun disk => (view disk).map DataDir.reversed

theorem DataDir.files_reversed (dir : DataDir Text) : dir.reversed.files = dir.files.reverse := by
  rw [DataDir.reversed, DataDir.files, DataDir.files, List.flatMap_reverse]
  congr 1
  rw [List.flatMap_map]
  refine List.flatMap_congr fun e _ => ?_
  dsimp only [Function.comp_apply]
  split
  · rcases e with ⟨name, _ | hashDir⟩
    · rfl
    · simp [hashDirFiles]
  · rfl

theorem DataDir.Shows.reversed {dir : DataDir Text} {files : CString → Option Text}
    (h : dir.Shows files) : dir.reversed.Shows files where
  nodup := by
    rw [DataDir.files_reversed, List.map_reverse]
    exact List.nodup_reverse.mpr h.nodup
  mem_iff := by
    intro path text
    rw [DataDir.files_reversed, List.mem_reverse]
    exact h.mem_iff path text

theorem DirView.Shows.reversed {view : DirView Text} {s : Disks Text} (h : view.Shows s) :
    view.reversed.Shows s := by
  intro disk
  have hdisk := h disk
  rw [DirView.reversed]
  cases hview : view disk with
  | none =>
    rw [hview] at hdisk
    exact hdisk
  | some dir =>
    rw [hview] at hdisk
    exact DataDir.Shows.reversed hdisk

end Files

/-! ## 6. Records of the old form -/

section OldRecords

theorem idxOf_base64Char (n : ℕ) : base64Chars.idxOf (base64Char n) = n % 64 := by
  have hall : ∀ v < 64, base64Chars.idxOf (base64Chars.getD v 0) = v := by decide +kernel
  exact hall (n % 64) (Nat.mod_lt n (by omega))

/-- The bits so far are kept modulo `2^32`, but a byte only needs the last two characters. -/
theorem accum_byte {accum v w k : ℕ} (haccum : accum % 64 = v)
    (hk : k = 0 ∨ k = 2 ∨ k = 4) :
    (accum * 64 + w) % 2 ^ 32 / 2 ^ k % 256 = (v * 64 + w) / 2 ^ k % 256 := by
  rcases hk with rfl | rfl | rfl <;> omega

theorem decodeInlineLoop_nil (accum bits : ℕ) : decodeInlineLoop accum bits [] = [] := by
  rw [decodeInlineLoop]

theorem decodeInlineLoop_pad (accum bits : ℕ) (rest : CString) :
    decodeInlineLoop accum bits (padChar :: rest) = [] := by
  rw [decodeInlineLoop, if_pos rfl]

theorem decodeInlineLoop_first (accum n : ℕ) (rest : CString) :
    decodeInlineLoop accum 0 (base64Char n :: rest) =
      decodeInlineLoop ((accum * 64 + n % 64) % 2 ^ 32) 6 rest := by
  have hlt : n % 64 < 64 := Nat.mod_lt n (by omega)
  rw [decodeInlineLoop, if_neg (base64Char_ne_padChar n), idxOf_base64Char, if_pos hlt]
  rfl

/-- A character that ends a byte. -/
theorem decodeInlineLoop_byte {accum v : ℕ} (haccum : accum % 64 = v) (n : ℕ) {bits : ℕ}
    (hbits : bits = 2 ∨ bits = 4 ∨ bits = 6) (rest : CString) :
    decodeInlineLoop accum bits (base64Char n :: rest) =
      UInt8.ofNat ((v * 64 + n % 64) / 2 ^ (bits - 2) % 256) ::
        decodeInlineLoop ((accum * 64 + n % 64) % 2 ^ 32) (bits - 2) rest := by
  have hlt : n % 64 < 64 := Nat.mod_lt n (by omega)
  have hshift : bits + 6 - 8 = bits - 2 := by omega
  rw [decodeInlineLoop, if_neg (base64Char_ne_padChar n), idxOf_base64Char, if_pos hlt]
  dsimp only
  rw [if_pos (by omega), hshift, accum_byte haccum (by omega)]

theorem accum_last (accum n : ℕ) : (accum * 64 + n % 64) % 2 ^ 32 % 64 = n % 64 := by
  omega

/-- The first two characters of a round. -/
theorem decodeInlineLoop_two (accum x y : ℕ) (rest : CString) :
    decodeInlineLoop accum 0 (base64Char x :: base64Char y :: rest) =
      UInt8.ofNat ((x % 64 * 64 + y % 64) / 2 ^ 4 % 256) ::
        decodeInlineLoop (((accum * 64 + x % 64) % 2 ^ 32 * 64 + y % 64) % 2 ^ 32) 4 rest := by
  rw [decodeInlineLoop_first, decodeInlineLoop_byte (accum_last accum x) y (by omega)]

theorem ofNat_of_eq_toNat {n : ℕ} {u : UInt8} (h : n = u.toNat) : UInt8.ofNat n = u := by
  rw [h, UInt8.ofNat_toNat]

theorem byte_first (a b c : UInt8) : UInt8.ofNat
    ((tripleOf a b c / 2 ^ 18 % 64 * 64 + tripleOf a b c / 2 ^ 12 % 64) / 2 ^ 4 % 256) = a := by
  have ha := a.toNat_lt
  have hb := b.toNat_lt
  have hc := c.toNat_lt
  refine ofNat_of_eq_toNat ?_
  unfold tripleOf
  omega

theorem byte_second (a b c : UInt8) : UInt8.ofNat
    ((tripleOf a b c / 2 ^ 12 % 64 * 64 + tripleOf a b c / 2 ^ 6 % 64) / 2 ^ 2 % 256) = b := by
  have ha := a.toNat_lt
  have hb := b.toNat_lt
  have hc := c.toNat_lt
  refine ofNat_of_eq_toNat ?_
  unfold tripleOf
  omega

theorem byte_third (a b c : UInt8) : UInt8.ofNat
    ((tripleOf a b c / 2 ^ 6 % 64 * 64 + tripleOf a b c % 64) / 2 ^ 0 % 256) = c := by
  have hc := c.toNat_lt
  refine ofNat_of_eq_toNat ?_
  unfold tripleOf
  omega

/-- A full round gives its three bytes. -/
theorem decodeInlineLoop_encodeTriple (accum : ℕ) (a b c : UInt8) (rest : CString) : ∃ accum',
    decodeInlineLoop accum 0 (encodeTriple a b c ++ rest) =
      a :: b :: c :: decodeInlineLoop accum' 0 rest := by
  simp only [encodeTriple, List.cons_append, List.nil_append]
  rw [decodeInlineLoop_two, decodeInlineLoop_byte (accum_last _ _) _ (by omega),
    decodeInlineLoop_byte (accum_last _ _) _ (by omega), byte_first, byte_second, byte_third]
  exact ⟨_, rfl⟩

/-- **The inline text of an object, read by the registry.** -/
theorem decodeInlineLoop_base64Encode : ∀ (data : Bytes) (accum : ℕ),
    decodeInlineLoop accum 0 (base64Encode data) = data
  | a :: b :: c :: rest, accum => by
    obtain ⟨accum', hround⟩ := decodeInlineLoop_encodeTriple accum a b c (base64Encode rest)
    rw [base64Encode_cons, hround, decodeInlineLoop_base64Encode rest accum']
  | [a, b], accum => by
    have henc : base64Encode [a, b] = [base64Char (tripleOf a b 0 / 2 ^ 18),
        base64Char (tripleOf a b 0 / 2 ^ 12), base64Char (tripleOf a b 0 / 2 ^ 6), padChar] := by
      simp [base64Encode, encodeLoop, encodeTriple]
    rw [henc, decodeInlineLoop_two, decodeInlineLoop_byte (accum_last _ _) _ (by omega),
      decodeInlineLoop_pad, byte_first, byte_second]
  | [a], accum => by
    have henc : base64Encode [a] = [base64Char (tripleOf a 0 0 / 2 ^ 18),
        base64Char (tripleOf a 0 0 / 2 ^ 12), padChar, padChar] := by
      simp [base64Encode, encodeLoop, encodeTriple]
    rw [henc, decodeInlineLoop_two, decodeInlineLoop_pad, byte_first]
  | [], accum => decodeInlineLoop_nil accum 0

theorem decodeBase64Inline_base64Encode {data : Bytes} (hne : data ≠ []) :
    decodeBase64Inline (base64Encode data) = some data := by
  have hlength : (base64Encode data).length ≠ 0 := by
    have hpos := List.length_pos_iff.mpr hne
    rw [length_base64Encode]
    omega
  rw [decodeBase64Inline, if_neg hlength, decodeInlineLoop_base64Encode]

theorem getObjectItem_xlMetaToJson (xl : XlMeta) {name : CString} {v : Option Json}
    (h : (name, v) ∈ xlMetaMembers xl) : (xlMetaToJson xl).getObjectItem name = v := by
  have hnodup := nodup_names (xlMetaMembers xl)
    ["version", "format", "bucket", "object", "stat", "erasure", "meta", "versioning", "inline"] rfl
    (by decide)
  exact getObjectItem_mkObject hnodup h

theorem stringItem_bucket (xl : XlMeta) :
    (xlMetaToJson xl).stringItem (cstr "bucket") = xl.bucket :=
  stringItem_eq (getObjectItem_xlMetaToJson xl (by simp [xlMetaMembers]))

theorem stringItem_object (xl : XlMeta) :
    (xlMetaToJson xl).stringItem (cstr "object") = xl.object :=
  stringItem_eq (getObjectItem_xlMetaToJson xl (by simp [xlMetaMembers]))

end OldRecords

/-! ## 7. What a cluster lists -/

section Cluster

variable {cjson : CJson}

/-- What a disk of a node is listed as, without a limit. -/
def diskEntries (view : DirView cjson.Text) (bucket : CString) (pre : Option CString)
    (disk : CString) : List ListedObject :=
  (view disk).elim [] fun dir => dir.files.filterMap fun file => listedEntry cjson bucket pre file.2

/-- What a node is listed as, without a limit. -/
def ClusterNode.entries (peer : ClusterNode cjson.Text) (bucket : CString) (pre : Option CString) :
    List ListedObject :=
  if peer.endpoint = [] || !peer.reachable then []
  else peer.dataDir.elim [] fun base =>
    (listedDisks base).flatMap (diskEntries peer.view bucket pre)

variable {bucket : CString} {pre : Option CString}

theorem scanDisks_eq (view : DirView cjson.Text) (maxKeys : ℕ) (disks : List CString)
    {found : List ListedObject} (hfound : found.length ≤ maxKeys) :
    disks.foldl (fun found disk =>
      match view disk with
      | none => found
      | some dir => scanDataDir (listedEntry cjson bucket pre) maxKeys dir found) found =
      (found ++ disks.flatMap (diskEntries view bucket pre)).take maxKeys := by
  induction disks generalizing found with
  | nil => rw [List.foldl_nil, List.flatMap_nil, List.append_nil, List.take_of_length_le hfound]
  | cons disk disks ih =>
    rw [List.foldl_cons, List.flatMap_cons]
    cases hview : view disk with
    | none =>
      have hnone : diskEntries view bucket pre disk = [] := by rw [diskEntries, hview]; rfl
      rw [hnone, List.nil_append]
      exact ih hfound
    | some dir =>
      have hsome : diskEntries view bucket pre disk =
          dir.files.filterMap fun file => listedEntry cjson bucket pre file.2 := by
        rw [diskEntries, hview]
        rfl
      dsimp only
      rw [scanDataDir_eq _ dir hfound, ih (List.length_take_le ..), ← hsome,
        LimitedScan.take_take_append, List.append_assoc]

/-- The answer of a node. -/
theorem rpcHandlerListObjects_eq {peer : ClusterNode cjson.Text}
    (hasked : (peer.endpoint = [] || !peer.reachable) = false) (maxKeys : ℕ) :
    (rpcHandlerListObjects peer bucket pre maxKeys).getD [] =
      (peer.entries bucket pre).take maxKeys := by
  rw [rpcHandlerListObjects, ClusterNode.entries, if_neg (by rw [hasked]; decide)]
  cases peer.dataDir with
  | none => exact List.take_nil.symm
  | some base =>
    rw [Option.map_some, Option.getD_some, scanDisks_eq _ _ _ (Nat.zero_le _)]
    rfl

/-- One round, when there is room for all that the node has. -/
theorem mergeNode_eq {maxKeys : ℕ} {found : List ListedObject} {peer : ClusterNode cjson.Text}
    (hroom : found.length + (peer.entries bucket pre).length ≤ maxKeys) :
    mergeNode bucket pre maxKeys found peer =
      LimitedScan.merge ListedObject.dedupKey maxKeys (peer.entries bucket pre) found := by
  unfold mergeNode
  split
  · -- no room is left, so the node has nothing
    have hnone : peer.entries bucket pre = [] := List.length_eq_zero_iff.mp (by omega)
    rw [hnone, LimitedScan.merge]
  · split
    · rename_i hskipped
      rw [ClusterNode.entries, if_pos hskipped, LimitedScan.merge]
    · rename_i hasked
      have hanswer : (rpcHandlerListObjects peer bucket pre (maxKeys - found.length)).getD [] = _ :=
        rpcHandlerListObjects_eq (Bool.eq_false_iff.mpr hasked) _
      rw [List.take_of_length_le (by omega)] at hanswer
      rw [← hanswer]
      cases rpcHandlerListObjects peer bucket pre (maxKeys - found.length) with
      | none => rfl
      | some objects => rfl

/-- What the rounds have found: keys without repetition, from entries of the nodes, and all of
them. -/
structure Merged (cluster : List (ClusterNode cjson.Text)) (bucket : CString) (pre : Option CString)
    (found result : List ListedObject) : Prop where
  nodup : (result.map ListedObject.dedupKey).Nodup
  mem : ∀ obj ∈ result, obj ∈ found ∨ ∃ peer ∈ cluster, obj ∈ peer.entries bucket pre
  all : ∀ key, key ∈ result.map ListedObject.dedupKey ↔ key ∈ found.map ListedObject.dedupKey ∨
    ∃ peer ∈ cluster, key ∈ (peer.entries bucket pre).map ListedObject.dedupKey

theorem merged_foldl {maxKeys : ℕ} (cluster : List (ClusterNode cjson.Text))
    {found : List ListedObject} (hnodup : (found.map ListedObject.dedupKey).Nodup)
    (hroom : found.length + (cluster.flatMap fun peer => peer.entries bucket pre).length ≤
      maxKeys) :
    Merged cluster bucket pre found (cluster.foldl (mergeNode bucket pre maxKeys) found) := by
  induction cluster generalizing found with
  | nil => exact ⟨hnodup, fun obj hobj => Or.inl hobj, fun key => by simp⟩
  | cons peer cluster ih =>
    rw [List.flatMap_cons, List.length_append] at hroom
    have hnode : found.length + (peer.entries bucket pre).length ≤ maxKeys := by omega
    have hlength : (LimitedScan.merge ListedObject.dedupKey maxKeys (peer.entries bucket pre)
        found).length ≤ _ := LimitedScan.length_merge_le _ found
    have hmerged : ((LimitedScan.merge ListedObject.dedupKey maxKeys (peer.entries bucket pre)
        found).map ListedObject.dedupKey).Nodup := LimitedScan.nodup_merge _ hnodup
    rw [List.foldl_cons, mergeNode_eq hnode]
    have hrest := ih hmerged (by omega)
    refine ⟨hrest.nodup, fun obj hobj => ?_, fun key => ?_⟩
    · rcases hrest.mem obj hobj with hround | ⟨peer', hpeer', hentry⟩
      · refine (LimitedScan.mem_of_mem_merge _ hround).imp_right fun hentry => ?_
        exact ⟨peer, List.mem_cons_self .., hentry⟩
      · exact Or.inr ⟨peer', List.mem_cons_of_mem _ hpeer', hentry⟩
    · rw [hrest.all key, LimitedScan.key_mem_merge_iff hnode]
      simp only [List.mem_cons, exists_eq_or_imp, or_assoc]

theorem bucket_of_mem_entries {peer : ClusterNode cjson.Text} {obj : ListedObject}
    (h : obj ∈ peer.entries bucket pre) : obj.bucket = bucket := by
  unfold ClusterNode.entries at h
  split at h
  · cases h
  · cases hbase : peer.dataDir with
    | none =>
      rw [hbase] at h
      cases h
    | some base =>
      rw [hbase, Option.elim_some] at h
      obtain ⟨disk, -, hdisk⟩ := List.mem_flatMap.mp h
      unfold diskEntries at hdisk
      cases hview : peer.view disk with
      | none =>
        rw [hview] at hdisk
        cases hdisk
      | some dir =>
        rw [hview, Option.elim_some] at hdisk
        obtain ⟨file, -, hentry⟩ := List.mem_filterMap.mp hdisk
        exact bucket_of_listedEntry hentry

/-- What a cluster lists comes from its nodes, each object once. -/
theorem registryList_merged {node : Node} (hinit : node.registryInitialized = true)
    {cluster : List (ClusterNode cjson.Text)}
    (hsome : ∃ peer ∈ cluster, peer.entries bucket pre ≠ [])
    (hroom : (cluster.flatMap fun peer => peer.entries bucket pre).length ≤ 1000)
    (parser : JsonParser cjson) (view : DirView cjson.Text) (now : ℤ) :
    ∃ objects : List ListedObject, registryList parser node cluster view now bucket pre 0 =
        some (objects.map (distributedLocation now)) ∧
      (objects.map ListedObject.object).Nodup ∧ (∀ obj ∈ objects, obj.bucket = bucket) ∧
      ∀ object, object ∈ objects.map ListedObject.object ↔
        ∃ peer ∈ cluster, ∃ obj ∈ peer.entries bucket pre, obj.object = object := by
  have hmerged : Merged cluster bucket pre [] (distributedListObjects cluster bucket pre 1000) :=
    merged_foldl cluster List.nodup_nil (by simpa using hroom)
  generalize hobjects : distributedListObjects cluster bucket pre 1000 = objects at hmerged
  have hbucket : ∀ obj ∈ objects, obj.bucket = bucket := by
    intro obj hobj
    obtain ⟨peer, -, hentry⟩ := (hmerged.mem obj hobj).resolve_left List.not_mem_nil
    exact bucket_of_mem_entries hentry
  have hkey : ∀ obj ∈ objects, obj.dedupKey = joinPath bucket obj.object := by
    intro obj hobj
    rw [ListedObject.dedupKey, hbucket obj hobj]
  have hne : objects ≠ [] := by
    obtain ⟨peer, hpeer, hentries⟩ := hsome
    obtain ⟨obj, hobj⟩ := List.exists_mem_of_ne_nil _ hentries
    have hkey := (hmerged.all obj.dedupKey).mpr
      (Or.inr ⟨peer, hpeer, List.mem_map_of_mem hobj⟩)
    exact List.ne_nil_of_mem (List.mem_map.mp hkey).choose_spec.1
  refine ⟨objects, ?_, ?_, hbucket, fun object => ?_⟩
  · simp only [registryList, hinit, Bool.not_true, Bool.false_eq_true, if_false, if_true, hobjects]
  · have hkeys := hmerged.nodup
    rw [List.map_congr_left hkey] at hkeys
    have hnames : ((objects.map ListedObject.object).map (joinPath bucket)).Nodup := by
      rwa [List.map_map]
    exact hnames.of_map
  · have hlisted : object ∈ objects.map ListedObject.object ↔
        joinPath bucket object ∈ objects.map ListedObject.dedupKey := by
      rw [List.map_congr_left hkey]
      simp [joinPath]
    rw [hlisted, hmerged.all]
    simp only [List.map_nil, List.not_mem_nil, false_or, List.mem_map]
    refine exists_congr fun peer => and_congr_right fun _ => exists_congr fun obj =>
      and_congr_right fun hobj => ?_
    rw [ListedObject.dedupKey, bucket_of_mem_entries hobj]
    simp [joinPath]

/-- **What a cluster lists**, as long as its nodes have at most a thousand entries together, and at
least one: every object on one of the listed disks of a reachable node, once, and nothing else. -/
theorem registryList_cluster {node : Node} (hinit : node.registryInitialized = true)
    {cluster : List (ClusterNode cjson.Text)}
    (hsome : ∃ peer ∈ cluster, peer.entries bucket pre ≠ [])
    (hroom : (cluster.flatMap fun peer => peer.entries bucket pre).length ≤ 1000)
    (parser : JsonParser cjson) (view : DirView cjson.Text) (now : ℤ) :
    ∃ locations, registryList parser node cluster view now bucket pre 0 = some locations ∧
      (locations.map RegistryLocation.object).Nodup ∧
      ∀ object, some object ∈ locations.map RegistryLocation.object ↔
        ∃ peer ∈ cluster, ∃ obj ∈ peer.entries bucket pre, obj.object = object := by
  obtain ⟨objects, hlist, hnodup, -, hall⟩ :=
    registryList_merged hinit hsome hroom parser view now
  refine ⟨_, hlist, ?_, fun object => ?_⟩
  · have hsome := hnodup.map (Option.some_injective CString)
    rwa [List.map_map] at hsome ⊢
  · rw [← hall]
    simp [distributedLocation]

/-- An `xl.meta` with the names of an object. -/
def namedMeta (bucket object : CString) : Json :=
  .object [(cstr "bucket", .string bucket), (cstr "object", .string object)]

/-- A node with one disk, which holds these objects of the bucket `b`. -/
def peerWith (endpoint : CString) (objects : List CString) : ClusterNode CJson.reference.Text where
  endpoint := endpoint
  reachable := true
  dataDir := some (cstr "/d")
  view disk :=
    if disk = cstr "/d/disk1" then
      some [(cstr "00", some (objects.map fun object =>
        (object, some (namedMeta (cstr "b") object))))]
    else none

def twoPeers : List (ClusterNode CJson.reference.Text) :=
  [peerWith (cstr "n1:9000") [cstr "o"], peerWith (cstr "n2:9000") [cstr "o", cstr "p"]]

/-- A node that only lists. -/
def listingNode : Node where
  placementInitialized := false
  siphashK0 := 0
  siphashK1 := 0
  ring := []
  topology := none
  multidisk := none
  dataDir := none
  defaultEcK := 2
  defaultEcM := 1
  registryInitialized := true

theorem twoPeers_entries :
    (twoPeers.flatMap fun peer => peer.entries (cstr "b") none).map ListedObject.object =
      [cstr "o", cstr "o", cstr "p"] := rfl

/-- Both nodes hold `o` and one holds `p`: three entries, two objects in the list. -/
theorem registryList_cluster_twoPeers :
    ∃ locations, registryList (JsonParser.strict CJson.reference) listingNode twoPeers
        (fun _ => none) 0 (cstr "b") none 0 = some locations ∧
      (locations.map RegistryLocation.object).Nodup ∧
      ∀ object, some object ∈ locations.map RegistryLocation.object ↔
        object = cstr "o" ∨ object = cstr "p" := by
  have hroom : (twoPeers.flatMap fun peer => peer.entries (cstr "b") none).length ≤ 1000 := by
    have hlength := congrArg List.length twoPeers_entries
    rw [List.length_map] at hlength
    rw [hlength]
    decide
  have hsome : ∃ peer ∈ twoPeers, peer.entries (cstr "b") none ≠ [] :=
    ⟨_, List.mem_cons_self, List.cons_ne_nil _ _⟩
  obtain ⟨locations, hlist, hnodup, hall⟩ := registryList_cluster
    (show listingNode.registryInitialized = true from rfl) hsome hroom
    (JsonParser.strict CJson.reference) (fun _ => none) 0
  refine ⟨locations, hlist, hnodup, fun object => (hall object).trans ?_⟩
  have hentries : (∃ peer ∈ twoPeers, ∃ obj ∈ peer.entries (cstr "b") none, obj.object = object) ↔
      object ∈ (twoPeers.flatMap fun peer => peer.entries (cstr "b") none).map
        ListedObject.object := by
    simp only [List.mem_map, List.mem_flatMap]
    exact ⟨fun ⟨peer, hpeer, obj, hobj, hname⟩ => ⟨obj, ⟨peer, hpeer, hobj⟩, hname⟩,
      fun ⟨obj, ⟨peer, hpeer, hobj⟩, hname⟩ => ⟨peer, hpeer, obj, hobj, hname⟩⟩
  rw [hentries, twoPeers_entries]
  simp

end Cluster

end Buckets
