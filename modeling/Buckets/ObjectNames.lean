/-
# Names of objects, and the string an object's directory is the hash of

`s3_ops.c` says which bucket names and object keys are valid, and `layout.c` puts an object in the
directory of the hash of `bucket/key`.  A bucket name has no slash, so the string would say which
object it is; but it is built in a buffer of 1024 bytes, and a valid key alone can fill that.

* `hashedKey_eq`: the bucket is always in the string, the key up to 1023 bytes in all;
* `hashedKey_ne_iff`: so two objects have different strings EXACTLY IF their buckets differ or their
  keys differ in what is left of the 1023 bytes.
-/
import Buckets.Placement

namespace Buckets

open CStr

/-! ## 1. Valid names -/

def isLower (c : UInt8) : Bool := 97 ≤ c && c ≤ 122

/-- `buckets_s3_validate_bucket_name`. -/
def validateBucketName (bucket : CString) : Bool :=
  !(bucket.length < 3 || 63 < bucket.length) &&
  (isLower (bucket.headD 0) || isDigit (bucket.headD 0)) &&
  (bucket.all fun c => isLower c || isDigit c || c == 46 || c == 45) &&
  bucket.getLastD 0 != 45 &&
  (strstr (cstr "..") bucket).isNone

/-- `buckets_s3_validate_object_key`. -/
def validateObjectKey (key : CString) : Bool :=
  !(key.length < 1 || 1024 < key.length) && key.headD 0 != 47

/-- A valid bucket name and a valid key. -/
structure ObjectName where
  bucket : CString
  key : CString
  bucket_valid : validateBucketName bucket = true
  key_valid : validateObjectKey key = true

/-- The string `buckets_compute_object_path` hashes. -/
def hashedKey (bucket object : CString) : CString := charArray 1024 (joinPath bucket object)

/-- The directory depends on nothing else. -/
theorem computeObjectPath_of_hashedKey {bucket object bucket' object' : CString}
    (h : hashedKey bucket object = hashedKey bucket' object') (hashes : Hashes) :
    computeObjectPath hashes bucket object = computeObjectPath hashes bucket' object' := by
  unfold hashedKey at h
  simp only [computeObjectPath, h]

/-! ## 2. The string -/

theorem slash_notMem (name : ObjectName) : (47 : UInt8) ∉ name.bucket := by
  intro hmem
  have hvalid := name.bucket_valid
  simp only [validateBucketName, Bool.and_eq_true] at hvalid
  have hslash := List.all_eq_true.mp hvalid.1.1.2 47 hmem
  exact absurd hslash (by decide)

theorem length_bucket_le (name : ObjectName) : name.bucket.length ≤ 63 := by
  have hvalid := name.bucket_valid
  simp only [validateBucketName, Bool.and_eq_true] at hvalid
  have hlength := hvalid.1.1.1.1
  simp at hlength
  omega

/-- The bucket and the slash are always there, and the key as far as it goes. -/
theorem hashedKey_eq (name : ObjectName) :
    hashedKey name.bucket name.key =
      name.bucket ++ 47 :: name.key.take (1022 - name.bucket.length) := by
  have hle := length_bucket_le name
  have hslash : cstr "/" = [47] := rfl
  have hrest : 1023 - name.bucket.length = 1022 - name.bucket.length + 1 := by omega
  rw [hashedKey, charArray, joinPath, hslash, List.append_assoc, List.take_append,
    List.take_of_length_le (by omega), show 1024 - 1 = 1023 from rfl, hrest]
  rfl

/-- **Two objects have different strings** exactly if they are in different buckets, or their keys
differ in the bytes that fit behind the bucket. -/
theorem hashedKey_ne_iff (name name' : ObjectName) :
    hashedKey name.bucket name.key ≠ hashedKey name'.bucket name'.key ↔
      name.bucket ≠ name'.bucket ∨
        name.key.take (1022 - name.bucket.length) ≠
          name'.key.take (1022 - name'.bucket.length) := by
  rw [hashedKey_eq, hashedKey_eq, ← not_and_or, not_iff_not]
  constructor
  · intro heq
    have hbucket := congrArg (List.takeWhile (· != 47)) heq
    have htake : ∀ (name : ObjectName) (rest : CString),
        (name.bucket ++ 47 :: rest).takeWhile (· != 47) = name.bucket := by
      intro name rest
      rw [List.takeWhile_append_of_pos, List.takeWhile_cons_of_neg (by simp), List.append_nil]
      intro c hc
      have hne : c ≠ 47 := fun h => slash_notMem name (h ▸ hc)
      simpa using hne
    rw [htake, htake] at hbucket
    rw [← hbucket] at heq
    refine ⟨hbucket, ?_⟩
    rw [← hbucket]
    exact (List.cons.inj (List.append_cancel_left heq)).2
  · rintro ⟨hbucket, hkey⟩
    rw [← hbucket] at hkey ⊢
    rw [hkey]

/-- A key of 1023 bytes, the most a request can name. -/
def longName (last : UInt8) : ObjectName where
  bucket := cstr "aaa"
  key := 97 :: (List.replicate 1021 97 ++ [last])
  bucket_valid := by decide
  key_valid := by
    have hlength : (97 :: (List.replicate 1021 97 ++ [last]) : CString).length = 1023 := by
      rw [List.length_cons, List.length_append, List.length_replicate, List.length_singleton]
    rw [validateObjectKey, hlength]
    rfl

/-- All long names of the bucket have one string. -/
theorem hashedKey_longName (last : UInt8) :
    hashedKey (longName last).bucket (longName last).key =
      cstr "aaa" ++ 47 :: 97 :: List.replicate 1018 97 := by
  have hcut : (List.replicate 1021 97 ++ [last]).take 1018 = List.replicate 1018 (97 : UInt8) := by
    rw [List.take_append_of_le_length (by rw [List.length_replicate]; omega), List.take_replicate]
    rfl
  rw [hashedKey_eq, ← hcut]
  rfl

/-- Two valid keys of a bucket that differ in their last byte have one directory. -/
theorem hashedKey_long_names : longName 98 ≠ longName 99 ∧
    hashedKey (longName 98).bucket (longName 98).key =
      hashedKey (longName 99).bucket (longName 99).key ∧
    ∀ hashes, computeObjectPath hashes (longName 98).bucket (longName 98).key =
      computeObjectPath hashes (longName 99).bucket (longName 99).key := by
  have hsame : hashedKey (longName 98).bucket (longName 98).key =
      hashedKey (longName 99).bucket (longName 99).key := by
    rw [hashedKey_longName, hashedKey_longName]
  refine ⟨?_, hsame, computeObjectPath_of_hashedKey hsame⟩
  intro heq
  have hkey := (List.cons.inj (congrArg ObjectName.key heq)).2
  exact absurd (List.append_cancel_left hkey) (by decide)

end Buckets
