/-
# S3 requests: the first half of `s3_handler.c`

What the S3 handler makes of an HTTP request before it decides anything: the bucket and the key
from the path, the query parameters, the metadata headers, and the parts of the `Authorization`
header.  Everything is parsed by `strchr`, `strstr` and `strtok_r` into arrays of fixed size; the
arrays are zeroed, so a part that was not found or did not fit stays empty.

The parsers below return what they leave in the arrays, also on the paths that end in an error:
an `Authorization` header without a region still sets the access key.
-/
import Buckets.Json
import Buckets.Lib.CStr

namespace Buckets

open CStr

/-! ## 1. HTTP requests -/

/-- `buckets_http_request_t`, as `s3_legacy_uv_handler` fills it from a connection. -/
structure HttpRequest where
  method : CString
  uri : CString
  headers : List (CString × CString)
  body : Bytes
  deriving DecidableEq, Repr

/-- `uv_http_get_header`: the first header of that name, in any case of letters. -/
def uvHttpGetHeader (headers : List (CString × CString)) (name : CString) : Option CString :=
  (headers.find? fun header => eqNoCase header.1 name).map Prod.snd

/-- `uv_http_iterate_headers_with_prefix`: the headers the callback is called with. -/
def headersWithPrefix (headers : List (CString × CString)) (start : CString) :
    List (CString × CString) :=
  headers.filter fun header =>
    start.length ≤ header.1.length && eqNoCase (header.1.take start.length) start

namespace HttpRequest

def getHeader (req : HttpRequest) (name : String) : Option CString :=
  uvHttpGetHeader req.headers (cstr name)

/-- A header that is there and not empty, or else a default. -/
def headerOr (req : HttpRequest) (name : String) (default : CString) : CString :=
  match req.getHeader name with
  | some value => if value.length = 0 then default else value
  | none => default

/-- `query_string`: from the `?` on. -/
def queryString (req : HttpRequest) : Option CString := strchr req.uri 63

end HttpRequest

/-! ## 2. Paths and query strings -/

/-- `url_decode` and `url_decode_inplace` of `s3_handler.c`: `%XX` with two hexadecimal digits,
and `+`.  A decoded zero ends the string. -/
def urlDecodeBytes : CString → Bytes
  | 37 :: a :: b :: src =>
    match hexValue a, hexValue b with
    | some x, some y => UInt8.ofNat (16 * x + y) :: urlDecodeBytes src
    | _, _ => 37 :: urlDecodeBytes (a :: b :: src)
  | 43 :: src => 32 :: urlDecodeBytes src
  | c :: src => c :: urlDecodeBytes src
  | [] => []

def urlDecode (src : CString) : CString := text (urlDecodeBytes src)

/-- `sizeof(req->bucket)` and `sizeof(req->key)`. -/
def bucketSize : ℕ := 256

def keySize : ℕ := 1024

/-- `parse_s3_path`: bucket and key.  A path without a second slash is not decoded; a `?` before
the slash that ends the bucket makes the length of the key negative, which does not fit. -/
def parseS3Path (uri : CString) : Option (CString × CString) :=
  let uri := if uri.head? = some 47 then uri.tail else uri
  match strchr uri 47 with
  | none =>
    let bucket := before uri 63
    if bucketSize ≤ bucket.length then none else some (bucket, [])
  | some slash =>
    let bucket := before uri 47
    let key := slash.tail
    if bucketSize ≤ bucket.length then none
    else if 63 ∈ bucket then none
    else if keySize ≤ (before key 63).length then none
    else some (urlDecode bucket, urlDecode (before key 63))

/-- The pairs of a query string, in order. -/
def parseQuery (query : Option CString) : List (CString × CString) :=
  match query with
  | none => []
  | some query =>
    (strtok 38 query.tail).map fun pair =>
      match strchr pair 61 with
      | some equals => (urlDecode (before pair 61), urlDecode equals.tail)
      | none => (urlDecode pair, [])

/-! ## 3. The `Authorization` header -/

/-- The arrays `buckets_s3_parse_auth_header` writes to. -/
structure AuthHeader where
  accessKey : CString
  region : CString
  signedHeaders : CString
  signature : CString
  deriving DecidableEq, Repr

def AuthHeader.empty : AuthHeader := ⟨[], [], [], []⟩

/-- A text that fits `char[size]`, or else nothing is copied. -/
def fitting (size : ℕ) (s : CString) : CString := if s.length < size then s else []

/-- `buckets_s3_parse_auth_header`, and whether it returned `BUCKETS_OK`. -/
def s3ParseAuthHeader (auth : CString) : AuthHeader × Bool :=
  if (cstr "AWS4-HMAC-SHA256").isPrefixOf auth = false then (.empty, false)
  else
    match after (cstr "Credential=") auth with
    | none => (.empty, false)
    | some cred =>
      match strchr cred 47 with
      | none => (.empty, false)
      | some slash1 =>
        if 128 ≤ (before cred 47).length then (.empty, false)
        else
          let out := { AuthHeader.empty with accessKey := before cred 47 }
          match strchr slash1.tail 47 with
          | none => (out, false)
          | some slash2 =>
            match strchr slash2.tail 47 with
            | none => (out, false)
            | some _ =>
              let region := fitting 64 (before slash2.tail 47)
              let signedHeaders :=
                match after (cstr "SignedHeaders=") auth with
                | none => []
                | some list => if 44 ∈ list then fitting 512 (before list 44) else []
              let out := { out with signedHeaders := signedHeaders }
              match after (cstr "Signature=") auth with
              | none => (out, false)
              | some sig =>
                -- the signature ends at a comma or a blank
                let sig := sig.takeWhile fun c => c != 44 && c != 32
                if 512 ≤ sig.length then (out, false)
                else ({ out with region := region, signature := sig }, true)

/-! ## 4. The request -/

/-- `buckets_s3_request_t`, without the members that no parser sets. -/
structure S3Request where
  bucket : CString
  key : CString
  body : Bytes
  contentType : CString
  userMeta : List (CString × CString)
  query : List (CString × CString)
  date : CString
  auth : AuthHeader
  httpReq : HttpRequest
  deriving DecidableEq, Repr

/-- `BUCKETS_S3_MAX_USER_METADATA`. -/
def maxUserMetadata : ℕ := 32

/-- `buckets_s3_parse_request`. -/
def s3ParseRequest (httpReq : HttpRequest) : Option S3Request :=
  (parseS3Path httpReq.uri).map fun path =>
    { bucket := path.1
      key := path.2
      body := httpReq.body
      contentType := charArray 128 (httpReq.headerOr "Content-Type" [])
      userMeta :=
        ((headersWithPrefix httpReq.headers (cstr "x-amz-meta-")).take maxUserMetadata).map
        fun header => (header.1.drop 11, header.2)
      query := parseQuery httpReq.queryString
      date := charArray 64 (httpReq.headerOr "x-amz-date" (httpReq.headerOr "Date" []))
      auth :=
        match httpReq.getHeader "Authorization" with
        | none => .empty
        | some auth => if auth.length = 0 then .empty else (s3ParseAuthHeader auth).1
      httpReq := httpReq }

/-- **The body is not looked at**: requests that differ in the body alone are parsed alike. -/
theorem s3ParseRequest_body (httpReq : HttpRequest) (body : Bytes) :
    s3ParseRequest { httpReq with body := body } =
      (s3ParseRequest httpReq).map fun req =>
        { req with body := body, httpReq := { httpReq with body := body } } := by
  unfold s3ParseRequest
  cases parseS3Path httpReq.uri <;> rfl

/-- `has_query_param`. -/
def S3Request.hasQueryParam (req : S3Request) (key : String) : Bool :=
  req.query.any fun pair => pair.1 == cstr key

end Buckets
