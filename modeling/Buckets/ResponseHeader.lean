/-
# `net/uv_server.c`: the header of a response

`uv_http_response_start` sends the header of a direct response, `send_buffered_response` that of a
response a worker thread has buffered.  Both put it together in an array of 4096 bytes on the stack
with `offset += snprintf(..)`, and then copy `offset` bytes of the array to the socket.  Nothing
compares the offset with 4096.

* `header_sound_iff` -- the offset stays in the array, and every byte sent was written, exactly for
  the headers whose text has at most 4096 bytes;
* `header_sent` -- with one byte less the text itself is sent (at 4096 its last byte is the `NUL`).
-/
import Buckets.Lib.Snprintf
import Buckets.Lib.Strtoull
import Buckets.Json

namespace Buckets.ResponseHeader

open Snprintf Strtoull

/-! ## 1. The pieces -/

/-- `http_status_string`. -/
def httpStatusString (status : ℤ) : CString :=
  cstr <| match status with
    | 200 => "OK"
    | 201 => "Created"
    | 204 => "No Content"
    | 206 => "Partial Content"
    | 301 => "Moved Permanently"
    | 302 => "Found"
    | 304 => "Not Modified"
    | 400 => "Bad Request"
    | 401 => "Unauthorized"
    | 403 => "Forbidden"
    | 404 => "Not Found"
    | 405 => "Method Not Allowed"
    | 409 => "Conflict"
    | 411 => "Length Required"
    | 413 => "Payload Too Large"
    | 416 => "Range Not Satisfiable"
    | 500 => "Internal Server Error"
    | 501 => "Not Implemented"
    | 503 => "Service Unavailable"
    | _ => "Unknown"

def crlf : CString := [13, 10]

/-- What a handler passes to `uv_http_response_start`, and the state of its connection. -/
structure Response where
  status : ℤ
  /-- Names and values, up to the first name that is `NULL`. -/
  headers : List (CString × CString)
  contentLength : ℕ
  keepAlive : Bool

def headerLine (h : CString × CString) : CString := h.1 ++ cstr ": " ++ h.2 ++ crlf

/-- The arguments of the `snprintf`s, in order. -/
def pieces (status : ℤ) (headers : List (CString × CString)) (contentLength : ℕ)
    (keepAlive : Bool) : List CString :=
  [cstr "HTTP/1.1 " ++ printInt status ++ cstr " " ++ httpStatusString status ++ crlf] ++
    headers.map headerLine ++
    [cstr "Content-Length: " ++ printDec contentLength ++ crlf,
     cstr "Connection: " ++ cstr (if keepAlive then "keep-alive" else "close") ++ crlf, crlf]

/-- The two ways of a response; the body of a buffered one is already there. -/
inductive Path where
  | direct
  | buffered (responseBodyLen : ℕ)

/-- A worker's headers are copied first, at most 31 of them, and its length is that of the body
unless one was given. -/
def Path.pieces (r : Response) : Path → List CString
  | direct => ResponseHeader.pieces r.status r.headers r.contentLength r.keepAlive
  | buffered responseBodyLen =>
    ResponseHeader.pieces r.status (r.headers.take 31)
      (if 0 < r.contentLength then r.contentLength else responseBodyLen) r.keepAlive

/-- `sizeof(header_buf)`. -/
def headerBufSize : ℕ := 4096

/-- `header_buf` and `offset` after the first `n` pieces. -/
def headerAfter (path : Path) (r : Response) (n : ℕ) : Line :=
  Line.empty.appendAll headerBufSize ((path.pieces r).take n)

/-- `header_buf` and `offset` at the end. -/
def header (path : Path) (r : Response) : Line :=
  Line.empty.appendAll headerBufSize (path.pieces r)

/-- `memcpy(write_buf, header_buf, offset)`. -/
def sent (path : Path) (r : Response) : List (Option UInt8) :=
  (List.range (header path r).offset).map (header path r).cell

/-! ## 2. What is sent -/

/-- The offset never leaves the array, and every byte sent was written by `snprintf`. -/
structure Sound (path : Path) (r : Response) : Prop where
  offset_le : ∀ n, (headerAfter path r n).offset ≤ headerBufSize
  written : none ∉ sent path r

variable {path : Path} {r : Response}

theorem Sound.length_le (h : Sound path r) : (path.pieces r).flatten.length ≤ 4096 := by
  have hle := h.offset_le (path.pieces r).length
  rw [headerAfter, List.take_length, Line.offset_appendAll] at hle
  exact (Nat.zero_add _).symm.trans_le hle

/-- **Exactly the headers that fit.** -/
theorem header_sound_iff (path : Path) (r : Response) :
    Sound path r ↔ (path.pieces r).flatten.length ≤ 4096 := by
  constructor
  · exact Sound.length_le
  · intro h
    refine ⟨fun n => ?_, ?_⟩
    · have hle : ((path.pieces r).take n).flatten.length ≤ (path.pieces r).flatten.length := by
        have hsplit := congrArg List.length
          (congrArg List.flatten (List.take_append_drop n (path.pieces r)))
        rw [List.flatten_append, List.length_append] at hsplit
        omega
      rw [headerAfter, Line.offset_appendAll]
      exact (Nat.zero_add _).trans_le (hle.trans h)
    · have hw : (header path r).Written :=
        Line.written_appendAll (by norm_num [headerBufSize])
          (fun i hi => absurd hi (Nat.not_lt_zero i)) ((Nat.zero_add _).trans_le h)
      intro hnone
      obtain ⟨i, hi, hcell⟩ := List.mem_map.mp hnone
      exact hw i (List.mem_range.mp hi) hcell

/-- **With a byte to spare it is the text that is sent.** -/
theorem header_sent (h : (path.pieces r).flatten.length < 4096) :
    sent path r = (path.pieces r).flatten.map some := by
  have hh : (header path r).Holds ([] ++ (path.pieces r).flatten) :=
    Line.holds_appendAll (by norm_num [headerBufSize])
      ⟨rfl, fun i hi => absurd hi (Nat.not_lt_zero i)⟩ ((Nat.zero_add _).trans_lt h)
  rw [List.nil_append] at hh
  apply List.ext_getElem
  · rw [sent, List.length_map, List.length_range, List.length_map, hh.1]
  · intro i h1 h2
    rw [List.length_map] at h2
    simp only [sent, List.getElem_map, List.getElem_range]
    rw [hh.2 i h2, List.getElem?_eq_getElem h2]

/-- The answer to a `GET` of an object with eight metadata values of 511 bytes. -/
def eightValues : Response where
  status := 200
  headers := (cstr "Content-Type", cstr "text/plain") ::
    (List.range 8).map fun k =>
      (cstr "x-amz-meta-k" ++ printDec k, List.replicate 511 118)
  contentLength := 5
  keepAlive := true

/-- **Bytes of the stack are sent**, on both ways. -/
theorem header_eightValues : ¬ Sound .direct eightValues ∧ ¬ Sound (.buffered 5) eightValues := by
  have hlen : ¬ (Path.direct.pieces eightValues).flatten.length ≤ 4096 := by decide +kernel
  have hlen' : ¬ ((Path.buffered 5).pieces eightValues).flatten.length ≤ 4096 := by decide +kernel
  exact ⟨fun h => hlen h.length_le, fun h => hlen' h.length_le⟩

end Buckets.ResponseHeader
