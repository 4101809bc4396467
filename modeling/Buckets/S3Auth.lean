/-
# Signatures: `s3_auth.c`

`buckets_s3_verify_signature` recomputes the AWS V4 signature of a request and compares.  The
canonical request it signs ends with a PAYLOAD HASH, and there are two of them in the function:
the SHA-256 of the body, and the client's `x-amz-content-sha256` header.  The header wins whenever
it is there; nothing compares the two.

* `s3VerifySignature_ok_iff` -- what acceptance amounts to;
* `s3Verify_body` -- with the header, the body does not enter at all;
* `s3Verify_at_most_one_iff` -- so two bodies are accepted whenever one signature over the header's
  hash is (`SignedOver`).
-/
import Buckets.S3Request

namespace Buckets

open CStr

/-- What the program takes from OpenSSL. -/
structure Crypto where
  sha256 : Bytes → Vector UInt8 32
  hmacSha256 : (key data : Bytes) → Vector UInt8 32

/-- The answers of `buckets_s3_verify_signature`. -/
inductive AuthRet where
  | ok
  | errAccessDenied
  | errInternal
  | errCrypto
  deriving DecidableEq, Repr

/-- `bytes_to_hex`. -/
def bytesToHex (bytes : Vector UInt8 32) : CString := bytes.toList.flatMap hexByte

/-! ## 1. The canonical request -/

/-- `canonical_uri`: the path, or the first 2047 bytes of the URI if the path does not fit. -/
def canonicalUri (uri : CString) : CString :=
  if 63 ∈ uri ∧ (before uri 63).length < 2048 then before uri 63 else uri.take 2047

/-- The value of one signed header. -/
def signedHeaderValue (req : S3Request) (contentSha256 name : CString) : CString :=
  if name = cstr "host" then req.httpReq.headerOr "Host" (cstr "localhost")
  else if name = cstr "x-amz-content-sha256" then contentSha256
  else if name = cstr "x-amz-date" then req.date
  else (uvHttpGetHeader req.httpReq.headers name).getD []

/-- The loop over the signed headers: it stops when fewer than 256 bytes of the buffer are left,
and the last line written may be cut. -/
def canonicalHeaderLines (value : CString → CString) : CString → List CString → CString
  | lines, [] => lines
  | lines, name :: names =>
    if lines.length < 4096 - 256 then
      canonicalHeaderLines value ((lines ++ (name ++ 58 :: (value name ++ [10]))).take 4095) names
    else lines

/-- `signed_headers`: the client's list, or the usual one. -/
def signedHeadersOf (req : S3Request) : CString :=
  if req.auth.signedHeaders.length = 0 then cstr "host;x-amz-content-sha256;x-amz-date"
  else req.auth.signedHeaders

def canonicalHeaders (req : S3Request) (contentSha256 : CString) : CString :=
  canonicalHeaderLines (signedHeaderValue req contentSha256) []
    (strtok 59 ((signedHeadersOf req).take 511))

/-- `build_canonical_request`, into 8192 bytes. -/
def buildCanonicalRequest (req : S3Request) (contentSha256 : CString) : Option CString :=
  let query := ((req.httpReq.queryString.getD []).tail).take 2047
  let text := req.httpReq.method ++ [10] ++ canonicalUri req.httpReq.uri ++ [10] ++ query ++ [10] ++
    canonicalHeaders req contentSha256 ++ [10] ++ signedHeadersOf req ++ [10] ++ contentSha256
  if 8192 ≤ text.length then none else some text

/-! ## 2. The signature -/

/-- `build_string_to_sign`, into 4096 bytes. -/
def buildStringToSign (datetime date region hash : CString) : Option CString :=
  let text := cstr "AWS4-HMAC-SHA256\n" ++ datetime ++ [10] ++ date ++ [47] ++ region ++
    cstr "/s3/aws4_request\n" ++ hash
  if 4096 ≤ text.length then none else some text

/-- `calculate_signing_key`. -/
def calculateSigningKey (crypto : Crypto) (secret date region : CString) : Option Bytes :=
  if 256 ≤ (cstr "AWS4" ++ secret).length then none
  else
    let kDate := (crypto.hmacSha256 (cstr "AWS4" ++ secret) date).toList
    let kRegion := (crypto.hmacSha256 kDate region).toList
    let kService := (crypto.hmacSha256 kRegion (cstr "s3")).toList
    some (crypto.hmacSha256 kService (cstr "aws4_request")).toList

/-- The day of a date: its first eight bytes. -/
def dayOf (date : CString) : CString := if 8 ≤ date.length then date.take 8 else []

/-- `region`: from the credential scope, or the default. -/
def regionOf (req : S3Request) : CString :=
  if req.auth.region.length = 0 then cstr "us-east-1" else req.auth.region

/-- `content_sha256`: the client's header, or the hash of the body. -/
def contentSha256 (crypto : Crypto) (req : S3Request) : CString :=
  req.httpReq.headerOr "x-amz-content-sha256" (bytesToHex (crypto.sha256 req.body))

/-- The signature the server expects. -/
def expectedSignature (crypto : Crypto) (secret : CString) (req : S3Request) :
    Except AuthRet CString := do
  let some canonical := buildCanonicalRequest req (contentSha256 crypto req)
    | throw .errInternal
  let some stringToSign := buildStringToSign req.date (dayOf req.date) (regionOf req)
      (bytesToHex (crypto.sha256 canonical))
    | throw .errInternal
  let some signingKey := calculateSigningKey crypto secret (dayOf req.date) (regionOf req)
    | throw .errCrypto
  return bytesToHex (crypto.hmacSha256 signingKey stringToSign)

/-- `buckets_s3_verify_signature(req, NULL)` with authentication enabled.  `secrets` is
`buckets_credentials_get_secret`. -/
def s3VerifySignature (crypto : Crypto) (secrets : CString → Option CString) (req : S3Request) :
    AuthRet :=
  if req.auth.accessKey.length = 0 then .errAccessDenied
  else if req.auth.signature.length = 0 then .errAccessDenied
  else
    match secrets req.auth.accessKey with
    | none => .errAccessDenied
    | some secret =>
      if req.date.length = 0 then .errAccessDenied
      else
        match expectedSignature crypto secret req with
        | .error ret => ret
        | .ok expected => if expected = req.auth.signature then .ok else .errAccessDenied

/-- A request as the handler sees it: parsed, then verified. -/
def s3Verify (crypto : Crypto) (secrets : CString → Option CString) (httpReq : HttpRequest) :
    AuthRet :=
  match s3ParseRequest httpReq with
  | none => .errInternal
  | some req => s3VerifySignature crypto secrets req

/-! ## 3. What is signed -/

variable (crypto : Crypto) (secrets : CString → Option CString)

theorem s3VerifySignature_ok_iff (req : S3Request) :
    s3VerifySignature crypto secrets req = .ok ↔
      req.auth.accessKey ≠ [] ∧ req.auth.signature ≠ [] ∧ req.date ≠ [] ∧
        ∃ secret, secrets req.auth.accessKey = some secret ∧
          expectedSignature crypto secret req = .ok req.auth.signature := by
  have herror : ∀ {secret ret}, expectedSignature crypto secret req = .error ret → ret ≠ .ok := by
    intro secret ret h
    unfold expectedSignature at h
    split at h
    · split at h
      · split at h
        · cases h
        · cases h
          exact AuthRet.noConfusion
      · cases h
        exact AuthRet.noConfusion
    · cases h
      exact AuthRet.noConfusion
  unfold s3VerifySignature
  simp only [List.length_eq_zero_iff]
  split
  · simp_all
  · split
    · simp_all
    · cases hsecret : secrets req.auth.accessKey with
      | none => simp
      | some secret =>
        dsimp only
        split
        · simp_all
        · cases hexpected : expectedSignature crypto secret req with
          | error ret =>
            simp only [Option.some.injEq, exists_eq_left']
            refine iff_of_false (herror hexpected) ?_
            rintro ⟨-, -, -, h⟩
            rw [hexpected] at h
            cases h
          | ok expected =>
            simp only [Option.some.injEq, exists_eq_left', hexpected, Except.ok.injEq]
            split
            · simp_all
            · simp_all

/-- What a SHA-256 digest looks like as text. -/
def IsHexDigest (digest : CString) : Prop :=
  digest.length = 64 ∧ (digest.all fun c => (hexValue c).isSome) = true

theorem headerOr_of_digest {httpReq : HttpRequest} {name : String} {digest : CString}
    (hheader : httpReq.getHeader name = some digest) (hdigest : IsHexDigest digest)
    (default : CString) : httpReq.headerOr name default = digest := by
  have hlen : ¬digest.length = 0 := by rw [hdigest.1]; decide
  rw [HttpRequest.headerOr, hheader]
  exact if_neg hlen

/-- With the client's hash in a header, the expected signature does not depend on the body. -/
theorem expectedSignature_body {req : S3Request} {digest : CString}
    (hheader : req.httpReq.getHeader "x-amz-content-sha256" = some digest)
    (hdigest : IsHexDigest digest) (secret : CString) (body : Bytes) :
    expectedSignature crypto secret
        { req with body := body, httpReq := { req.httpReq with body := body } } =
      expectedSignature crypto secret req := by
  have hsame : contentSha256 crypto
      { req with body := body, httpReq := { req.httpReq with body := body } } =
      contentSha256 crypto req := by
    rw [contentSha256, contentSha256, headerOr_of_digest hheader hdigest]
    exact headerOr_of_digest (by exact hheader) hdigest _
  have hcanonical : buildCanonicalRequest
      { req with body := body, httpReq := { req.httpReq with body := body } } =
      buildCanonicalRequest req := rfl
  unfold expectedSignature
  rw [hsame, hcanonical]
  rfl

theorem httpReq_of_parse {httpReq : HttpRequest} {req : S3Request}
    (h : s3ParseRequest httpReq = some req) : req.httpReq = httpReq := by
  unfold s3ParseRequest at h
  obtain ⟨path, -, rfl⟩ := Option.map_eq_some_iff.mp h
  rfl

/-- **The body does not enter the verification** when the client sent a hash. -/
theorem s3Verify_body {httpReq : HttpRequest} {digest : CString}
    (hheader : httpReq.getHeader "x-amz-content-sha256" = some digest)
    (hdigest : IsHexDigest digest) (body : Bytes) :
    s3Verify crypto secrets { httpReq with body := body } = s3Verify crypto secrets httpReq := by
  rw [s3Verify, s3Verify, s3ParseRequest_body]
  cases hparse : s3ParseRequest httpReq with
  | none => rfl
  | some req =>
    obtain rfl := httpReq_of_parse hparse
    simp only [Option.map_some]
    unfold s3VerifySignature
    simp only [expectedSignature_body crypto hheader hdigest]

theorem expectedSignature_ok_iff (secret : CString) (req : S3Request) (signature : CString) :
    expectedSignature crypto secret req = .ok signature ↔
      ∃ canonical stringToSign signingKey,
        buildCanonicalRequest req (contentSha256 crypto req) = some canonical ∧
        buildStringToSign req.date (dayOf req.date) (regionOf req)
          (bytesToHex (crypto.sha256 canonical)) = some stringToSign ∧
        calculateSigningKey crypto secret (dayOf req.date) (regionOf req) = some signingKey ∧
        bytesToHex (crypto.hmacSha256 signingKey stringToSign) = signature := by
  unfold expectedSignature
  cases hcanonical : buildCanonicalRequest req (contentSha256 crypto req) with
  | none => simp [throw, throwThe, MonadExceptOf.throw]
  | some canonical =>
    cases hstring : buildStringToSign req.date (dayOf req.date) (regionOf req)
        (bytesToHex (crypto.sha256 canonical)) with
    | none => simp [hstring, throw, throwThe, MonadExceptOf.throw]
    | some stringToSign =>
      cases hkey : calculateSigningKey crypto secret (dayOf req.date) (regionOf req) with
      | none => simp [hstring, throw, throwThe, MonadExceptOf.throw]
      | some signingKey => simp [hstring, pure, Except.pure]

/-- The request is signed over `digest`: it names an access key whose secret the server knows, and
its signature is that secret's for its method, URI and headers with `digest` as the payload hash.
The body does not come in. -/
structure SignedOver (digest : CString) (req : S3Request) : Prop where
  accessKey : req.auth.accessKey ≠ []
  signature : req.auth.signature ≠ []
  date : req.date ≠ []
  signed : ∃ secret canonical stringToSign signingKey,
    secrets req.auth.accessKey = some secret ∧
    buildCanonicalRequest req digest = some canonical ∧
    buildStringToSign req.date (dayOf req.date) (regionOf req)
      (bytesToHex (crypto.sha256 canonical)) = some stringToSign ∧
    calculateSigningKey crypto secret (dayOf req.date) (regionOf req) = some signingKey ∧
    bytesToHex (crypto.hmacSha256 signingKey stringToSign) = req.auth.signature

/-- With a hash in the header, a request is accepted if it is signed over that hash. -/
theorem s3VerifySignature_ok_iff_signedOver {req : S3Request} {digest : CString}
    (hheader : req.httpReq.getHeader "x-amz-content-sha256" = some digest)
    (hdigest : IsHexDigest digest) :
    s3VerifySignature crypto secrets req = .ok ↔ SignedOver crypto secrets digest req := by
  have hhash : contentSha256 crypto req = digest := headerOr_of_digest hheader hdigest _
  rw [s3VerifySignature_ok_iff]
  simp only [expectedSignature_ok_iff, hhash]
  constructor
  · rintro ⟨hkey, hsignature, hdate, secret, hsecret, canonical, stringToSign, signingKey, hsigned⟩
    exact ⟨hkey, hsignature, hdate, secret, canonical, stringToSign, signingKey, hsecret, hsigned⟩
  · rintro ⟨hkey, hsignature, hdate, secret, canonical, stringToSign, signingKey, hsecret, hsigned⟩
    exact ⟨hkey, hsignature, hdate, secret, hsecret, canonical, stringToSign, signingKey, hsigned⟩

/-- **When at most one of two bodies is accepted.**  The requests are the same but for the body,
whatever the two bodies are, with a hash in `x-amz-content-sha256`: exactly when the request is
NOT SIGNED over that hash. -/
theorem s3Verify_at_most_one_iff {httpReq : HttpRequest} {digest : CString}
    (hheader : httpReq.getHeader "x-amz-content-sha256" = some digest)
    (hdigest : IsHexDigest digest) (body body' : Bytes) :
    ¬(s3Verify crypto secrets { httpReq with body := body } = .ok ∧
        s3Verify crypto secrets { httpReq with body := body' } = .ok) ↔
      ∀ req, s3ParseRequest httpReq = some req → ¬SignedOver crypto secrets digest req := by
  rw [s3Verify_body crypto secrets hheader hdigest body,
    s3Verify_body crypto secrets hheader hdigest body', and_self, s3Verify]
  cases hparse : s3ParseRequest httpReq with
  | none => simp
  | some req =>
    obtain rfl := httpReq_of_parse hparse
    simp only [s3VerifySignature_ok_iff_signedOver crypto secrets hheader hdigest,
      Option.some.injEq, forall_eq']

/-! ## 4. A request that is accepted with two bodies -/

/-- Functions of the right shape: the first 32 bytes, and the same mixed with the key. -/
def Crypto.reference : Crypto where
  sha256 data := Vector.ofFn fun i => data.getD i 0
  hmacSha256 key data := Vector.ofFn fun i => key.getD i 0 ^^^ data.getD (i + 28) 0

/-- A request with one secret, `sk`, known for its access key, `ak`. -/
def signedPut (digest signature body : String) : HttpRequest where
  method := cstr "PUT"
  uri := cstr "/b/o"
  headers := [(cstr "Host", cstr "h"), (cstr "x-amz-date", cstr "20260101T000000Z"),
    (cstr "x-amz-content-sha256", cstr digest),
    (cstr "Authorization", cstr "AWS4-HMAC-SHA256 Credential=ak/20260101/r/s3/aws4_request," ++
      cstr "SignedHeaders=host;x-amz-content-sha256;x-amz-date,Signature=" ++ cstr signature)]
  body := cstr body

/-- The digest of the body `a`. -/
def digestOfA : String := "6100000000000000000000000000000000000000000000000000000000000000"

def oneSecret (accessKey : CString) : Option CString :=
  if accessKey = cstr "ak" then some (cstr "sk") else none

theorem isHexDigest_digestOfA : IsHexDigest (cstr digestOfA) := ⟨by decide, by decide⟩

theorem getHeader_signedPut (signature body : String) :
    (signedPut digestOfA signature body).getHeader "x-amz-content-sha256" =
      some (cstr digestOfA) := by
  have hfind : ((signedPut digestOfA signature body).headers.find? fun header =>
      eqNoCase header.1 (cstr "x-amz-content-sha256")) =
      some (cstr "x-amz-content-sha256", cstr digestOfA) := by
    simp only [signedPut]
    rw [List.find?_cons_of_neg (by decide), List.find?_cons_of_neg (by decide),
      List.find?_cons_of_pos (by decide)]
  rw [HttpRequest.getHeader, uvHttpGetHeader, hfind]
  rfl

/-- Nobody's access key is known: neither body is accepted. -/
theorem s3Verify_at_most_one_unknown_key :
    ¬(s3Verify Crypto.reference (fun _ => none)
          { signedPut digestOfA "00" "a" with body := cstr "a" } = .ok ∧
      s3Verify Crypto.reference (fun _ => none)
          { signedPut digestOfA "00" "a" with body := cstr "b" } = .ok) :=
  (s3Verify_at_most_one_iff Crypto.reference _ (getHeader_signedPut "00" "a")
    isHexDigest_digestOfA _ _).mpr fun _ _ hsigned => by
      obtain ⟨secret, _, _, _, hsecret, -⟩ := hsigned.signed
      cases hsecret

/-- **One signature, two bodies.**  The header holds the digest of `a`, the signature is right, the
digests of the two bodies are different, and both are accepted. -/
theorem s3Verify_accepts_two_bodies : ∃ (httpReq : HttpRequest) (body body' : Bytes),
    httpReq.getHeader "x-amz-content-sha256" =
      some (bytesToHex (Crypto.reference.sha256 body)) ∧
    IsHexDigest (bytesToHex (Crypto.reference.sha256 body)) ∧
    Crypto.reference.sha256 body ≠ Crypto.reference.sha256 body' ∧
    s3Verify Crypto.reference oneSecret { httpReq with body := body } = .ok ∧
    s3Verify Crypto.reference oneSecret { httpReq with body := body' } = .ok := by
  have hdigest : cstr digestOfA = bytesToHex (Crypto.reference.sha256 (cstr "a")) := by
    decide +kernel
  have hheader := getHeader_signedPut
    "71676304296132303236303130312f722f73332f617773345f72657175657374" "a"
  have hok : s3Verify Crypto.reference oneSecret (signedPut digestOfA
      "71676304296132303236303130312f722f73332f617773345f72657175657374" "a") = .ok := by
    decide +kernel
  have hbody := s3Verify_body Crypto.reference oneSecret hheader isHexDigest_digestOfA
  refine ⟨_, cstr "a", cstr "b", hdigest ▸ hheader, hdigest ▸ isHexDigest_digestOfA, ?_,
    (hbody _).trans hok, (hbody _).trans hok⟩
  decide +kernel

end Buckets
