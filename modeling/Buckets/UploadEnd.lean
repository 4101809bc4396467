/-
# How a chunked upload ends

The end of an `aws-chunked` body is a chunk of size 0, and the request says in
`x-amz-decoded-content-length` how many bytes there are.  `s3_stream_upload_complete` looks at
NEITHER: it hands to the storage layer what has been decoded when the HTTP request ends.

* `SeesLast`: a read in which the decoder meets the chunk of size 0; `MeetsLast`: a run with one;
* `Parse`: what is in any reads, malformed and truncated ones too -- the data of the chunks, with
  the last of them maybe cut short, and the chunks of size 0;
* `follows_processAll`: the decoder meets what the reads parse to;
* `endsRightly_iff`: completion has what it should ask for exactly if the reads parse to chunks, a
  chunk of size 0 and no data after it, and the data has the announced length.
-/
import Buckets.Streaming

namespace Buckets

open Strtoull

namespace Upload

/-! ## 1. The chunk of size 0 -/

/-- In this read the decoder meets a chunk of size 0. -/
inductive SeesLast : Upload → Bytes → Prop
  | here {u u' : Upload} {src : Bytes} (hne : src ≠ []) (hstate : u.chunkState = .header)
    (hread : u.readHeader src = .final u') : SeesLast u src
  | header {u u' : Upload} {src src' : Bytes} (hne : src ≠ []) (hstate : u.chunkState = .header)
    (hread : u.readHeader src = .more u' src') (h : SeesLast u' src') : SeesLast u src
  | data {u : Upload} {src : Bytes} (hne : src ≠ []) (hstate : u.chunkState = .data)
    (h : SeesLast (u.takeData src) (src.drop (min src.length u.chunkRemaining))) : SeesLast u src
  | trailer {u : Upload} {src : Bytes} (hne : src ≠ []) (hstate : u.chunkState = .trailer)
    (h : SeesLast { u with chunkState := .header } (skipByte 10 (skipByte 13 src))) : SeesLast u src

section SeesLast

variable {u u' : Upload} {src src' : Bytes} (hne : src ≠ [])

include hne

theorem seesLast_header_iff (hstate : u.chunkState = .header)
    (hmore : u.readHeader src = .more u' src') : SeesLast u src ↔ SeesLast u' src' := by
  refine ⟨fun h => ?_, .header hne hstate hmore⟩
  cases h with
  | here _ _ hfinal => cases hmore.symm.trans hfinal
  | header _ _ hmore' h =>
    cases hmore.symm.trans hmore'
    exact h
  | data _ hdata => cases hstate.symm.trans hdata
  | trailer _ htrailer => cases hstate.symm.trans htrailer

theorem seesLast_data_iff (hstate : u.chunkState = .data) : SeesLast u src ↔
    SeesLast (u.takeData src) (src.drop (min src.length u.chunkRemaining)) := by
  refine ⟨fun h => ?_, .data hne hstate⟩
  cases h with
  | data _ _ h => exact h
  | here _ hheader | header _ hheader => cases hstate.symm.trans hheader
  | trailer _ htrailer => cases hstate.symm.trans htrailer

theorem seesLast_trailer_iff (hstate : u.chunkState = .trailer) : SeesLast u src ↔
    SeesLast { u with chunkState := .header } (skipByte 10 (skipByte 13 src)) := by
  refine ⟨fun h => ?_, .trailer hne hstate⟩
  cases h with
  | trailer _ _ h => exact h
  | here _ hheader | header _ hheader => cases hstate.symm.trans hheader
  | data _ hdata => cases hstate.symm.trans hdata

end SeesLast

/-- One of the reads meets it, and leaves the upload `w`. -/
def MeetsLast (u : Upload) : List Bytes → Upload → Prop
  | [], _ => False
  | read :: reads, w => ∃ u', u.process read = some u' ∧
      (SeesLast u read ∧ w = u' ∨ u'.MeetsLast reads w)

/-- **What completion should ask for**: the chunk of size 0 was met, no payload was taken after it,
and there is as much payload as announced. -/
def EndsRightly (md5 : Bytes → Vector UInt8 16) (reads : List Bytes) (announced : Option ℕ) :
    Prop :=
  ∀ u done, (uploadCreate true).processAll reads = some u → u.complete md5 = some done →
    (∃ w, MeetsLast (uploadCreate true) reads w) ∧
    (∀ w, MeetsLast (uploadCreate true) reads w → u.bytesReceived = w.bytesReceived) ∧
    ∀ n ∈ announced, u.bytesReceived = n

/-! ## 2. What is in the reads -/

/-- The next bytes of the reads, and what is left of them. -/
inductive Next : Bytes → List Bytes → List Bytes → Prop
  | nil (reads : List Bytes) : Next [] reads reads
  | byte {c : UInt8} {bytes src : Bytes} {reads rest : List Bytes}
    (h : Next bytes (src :: reads) rest) : Next (c :: bytes) ((c :: src) :: reads) rest
  | read {c : UInt8} {bytes : Bytes} {reads rest : List Bytes}
    (h : Next (c :: bytes) reads rest) : Next (c :: bytes) ([] :: reads) rest

/-- The end of a chunk's data: a CR is skipped, and a LF, if they are in the same read. -/
def afterData : List Bytes → List Bytes
  | [] => []
  | [] :: reads => afterData reads
  | src :: reads => skipByte 10 (skipByte 13 src) :: reads

/-- The size in a header line. -/
def lineSize (line : Bytes) : ℕ := strtoull 16 (sizeText line)

/-- What is met in a stream: the data of a chunk, or a chunk of size 0. -/
inductive Met where
  | data (bytes : Bytes)
  | last

def Met.bytes : Met → Bytes
  | data bytes => bytes
  | last => []

/-- The data that is met. -/
def taken (met : List Met) : Bytes := met.flatMap Met.bytes

/-- **What is in any reads**, after the beginning `held` of a header line. -/
inductive Parse : Bytes → List Bytes → List Met → Prop
  /-- No line is complete. -/
  | none {held : Bytes} {reads : List Bytes}
    (hnone : ∀ a rest, Next a reads rest → ¬ Line (held ++ a)) : Parse held reads []
  /-- What stands after the chunk of size 0 in the same read is not looked at. -/
  | last {held a src : Bytes} {reads later : List Bytes} {met : List Met} (hline : Line (held ++ a))
    (hnext : Next a reads (src :: later)) (hsize : lineSize (held ++ a) = 0)
    (h : Parse [] later met) : Parse held reads (.last :: met)
  | chunk {held a d : Bytes} {reads reads' rest : List Bytes} {met : List Met}
    (hline : Line (held ++ a)) (hnext : Next a reads reads') (hpos : d ≠ [])
    (hsize : lineSize (held ++ a) = d.length) (hdata : Next d reads' rest)
    (h : Parse [] (afterData rest) met) : Parse held reads (.data d :: met)
  /-- The reads end in the data of a chunk. -/
  | cut {held a : Bytes} {reads rest : List Bytes} (hline : Line (held ++ a))
    (hnext : Next a reads rest) (hsize : rest.flatten.length < lineSize (held ++ a)) :
    Parse held reads [.data rest.flatten]

section Next

variable {a a' src d held : Bytes} {reads rest rest' : List Bytes}

theorem next_append (src a : Bytes) (reads : List Bytes) (rest : List Bytes)
    (h : Next a ([] :: reads) rest) : Next (src ++ a) (src :: reads) rest := by
  induction src with
  | nil => exact h
  | cons c src ih => exact .byte ih

theorem Next.of_append (h : Next (src ++ a) (src :: reads) rest) : Next a ([] :: reads) rest := by
  induction src with
  | nil => exact h
  | cons c src ih =>
    cases h with
    | byte h => exact ih h

theorem next_self (a src : Bytes) (reads : List Bytes) :
    Next a ((a ++ src) :: reads) (src :: reads) := by
  induction a with
  | nil => exact .nil _
  | cons c a ih => exact .byte ih

theorem Next.flatten_eq (h : Next a reads rest) : reads.flatten = a ++ rest.flatten := by
  induction h with
  | nil => rfl
  | byte _ ih =>
    rw [List.flatten_cons] at ih ⊢
    rw [List.cons_append, ih, List.cons_append]
  | read _ ih =>
    rw [List.flatten_cons, List.nil_append]
    exact ih

theorem Next.starts (h : Next a reads rest) : a <+: reads.flatten :=
  ⟨rest.flatten, h.flatten_eq.symm⟩

theorem Next.rest_eq (h : Next a reads rest) (h' : Next a reads rest') : rest = rest' := by
  induction h with
  | nil =>
    cases h'
    rfl
  | byte _ ih =>
    cases h' with
    | byte h' => exact ih h'
  | read _ ih =>
    cases h' with
    | read h' => exact ih h'

/-- A complete line is the only one. -/
theorem Line.eq_of_next (hline : Line (held ++ a)) (hline' : Line (held ++ a'))
    (h : Next a reads rest) (h' : Next a' reads rest') : a = a' ∧ rest = rest' := by
  have heq : a = a' := by
    rcases List.prefix_or_prefix_of_prefix h.starts h'.starts with ⟨s, rfl⟩ | ⟨s, rfl⟩
    · rw [hline'.first (List.append_assoc ..).symm hline.ends, List.append_nil]
    · rw [hline.first (List.append_assoc ..).symm hline'.ends, List.append_nil]
  subst heq
  exact ⟨rfl, h.rest_eq h'⟩

theorem Next.length_le (h : Next a reads rest) : a.length ≤ reads.flatten.length :=
  h.starts.length_le

end Next

/-- **Reads have one meaning.** -/
theorem Parse.unique {held : Bytes} {reads : List Bytes} {met met' : List Met}
    (h : Parse held reads met) (h' : Parse held reads met') : met = met' := by
  induction h generalizing met' with
  | none hnone =>
    cases h' with
    | none => rfl
    | last hline hnext => exact absurd hline (hnone _ _ hnext)
    | chunk hline hnext => exact absurd hline (hnone _ _ hnext)
    | cut hline hnext => exact absurd hline (hnone _ _ hnext)
  | last hline hnext hsize _ ih =>
    cases h' with
    | none hnone => exact absurd hline (hnone _ _ hnext)
    | last hline' hnext' _ h' =>
      obtain ⟨rfl, hrest⟩ := hline.eq_of_next hline' hnext hnext'
      obtain ⟨-, rfl⟩ := List.cons.inj hrest
      rw [ih h']
    | chunk hline' hnext' hpos hsize' =>
      obtain ⟨rfl, -⟩ := hline.eq_of_next hline' hnext hnext'
      exact absurd (List.length_eq_zero_iff.mp (hsize'.symm.trans hsize)) hpos
    | cut hline' hnext' hsize' =>
      obtain ⟨rfl, -⟩ := hline.eq_of_next hline' hnext hnext'
      omega
  | chunk hline hnext hpos hsize hdata _ ih =>
    cases h' with
    | none hnone => exact absurd hline (hnone _ _ hnext)
    | last hline' hnext' hsize' =>
      obtain ⟨rfl, -⟩ := hline.eq_of_next hline' hnext hnext'
      exact absurd (List.length_eq_zero_iff.mp (hsize.symm.trans hsize')) hpos
    | chunk hline' hnext' _ hsize' hdata' h' =>
      obtain ⟨rfl, rfl⟩ := hline.eq_of_next hline' hnext hnext'
      have hlength := hsize.symm.trans hsize'
      obtain rfl := (List.prefix_of_prefix_length_le hdata.starts hdata'.starts
        (Nat.le_of_eq hlength)).eq_of_length hlength
      obtain rfl := hdata.rest_eq hdata'
      rw [ih h']
    | cut hline' hnext' hsize' =>
      obtain ⟨rfl, rfl⟩ := hline.eq_of_next hline' hnext hnext'
      have hle := hdata.length_le
      omega
  | cut hline hnext hsize =>
    cases h' with
    | none hnone => exact absurd hline (hnone _ _ hnext)
    | last hline' hnext' hsize' =>
      obtain ⟨rfl, -⟩ := hline.eq_of_next hline' hnext hnext'
      omega
    | chunk hline' hnext' _ hsize' hdata' =>
      obtain ⟨rfl, rfl⟩ := hline.eq_of_next hline' hnext hnext'
      have hle := hdata'.length_le
      omega
    | cut hline' hnext' =>
      obtain ⟨-, rfl⟩ := hline.eq_of_next hline' hnext hnext'
      rfl

/-! ## 3. Where the chunks of size 0 are -/

/-- A chunk of size 0 is met when there are `n` bytes, `k` of them from before. -/
def LastAt : ℕ → List Met → ℕ → Prop
  | _, [], _ => False
  | k, .last :: met, n => n = k ∨ LastAt k met n
  | k, .data d :: met, n => LastAt (k + d.length) met n

theorem LastAt.bounds {met : List Met} {k n : ℕ} (h : LastAt k met n) :
    k ≤ n ∧ n ≤ k + (taken met).length := by
  induction met generalizing k with
  | nil => exact h.elim
  | cons m met ih =>
    cases m with
    | last =>
      rcases h with rfl | h
      · exact ⟨Nat.le_refl _, Nat.le_add_right _ _⟩
      · exact ih h
    | data d =>
      obtain ⟨hlow, hhigh⟩ := ih h
      have htaken : (taken (.data d :: met)).length = d.length + (taken met).length :=
        List.length_append
      omega

/-- One is met, and no data after any. -/
theorem lastAt_iff (met : List Met) (k : ℕ) :
    ((∃ n, LastAt k met n) ∧ ∀ n, LastAt k met n → k + (taken met).length = n) ↔
      ∃ chunks after, met = chunks ++ .last :: after ∧ .last ∉ chunks ∧ taken after = [] := by
  induction met generalizing k with
  | nil =>
    constructor
    · rintro ⟨⟨n, hn⟩, -⟩
      exact hn.elim
    · rintro ⟨chunks, after, hmet, -⟩
      simp at hmet
  | cons m met ih =>
    cases m with
    | last =>
      constructor
      · rintro ⟨-, hall⟩
        have hnone : k + (taken met).length = k := hall k (Or.inl rfl)
        exact ⟨[], met, rfl, List.not_mem_nil, List.length_eq_zero_iff.mp (by omega)⟩
      · rintro ⟨chunks, after, hmet, hchunks, hafter⟩
        cases chunks with
        | cons m chunks =>
          obtain ⟨rfl, -⟩ := List.cons.inj hmet
          exact absurd List.mem_cons_self hchunks
        | nil =>
          obtain ⟨-, rfl⟩ := List.cons.inj hmet
          have htaken : (taken (.last :: met)).length = 0 := by
            rw [List.length_eq_zero_iff]
            exact hafter
          refine ⟨⟨k, Or.inl rfl⟩, fun n hn => ?_⟩
          have hbounds : k ≤ n ∧ n ≤ k + (taken (.last :: met)).length := LastAt.bounds hn
          omega
    | data d =>
      have htaken : k + (taken (.data d :: met)).length = k + d.length + (taken met).length :=
        (congrArg (k + ·) List.length_append).trans (Nat.add_assoc ..).symm
      rw [htaken]
      refine (ih (k + d.length)).trans ⟨?_, ?_⟩
      · rintro ⟨chunks, after, rfl, hchunks, hafter⟩
        refine ⟨.data d :: chunks, after, rfl, fun hmem => ?_, hafter⟩
        rcases List.mem_cons.mp hmem with hmem | hmem
        · cases hmem
        · exact hchunks hmem
      · rintro ⟨chunks, after, hmet, hchunks, hafter⟩
        cases chunks with
        | nil => cases (List.cons.inj hmet).1
        | cons m chunks =>
          obtain ⟨rfl, rfl⟩ := List.cons.inj hmet
          exact ⟨chunks, after, rfl, fun hmem => hchunks (List.mem_cons_of_mem _ hmem), hafter⟩

/-! ## 4. The decoder -/

/-- No header line is complete in `held`. -/
def Open (held : Bytes) : Prop := ∀ q, q <+: held → ¬ crlf <:+ q

/-- What an upload is between two steps of the decoder. -/
structure Ready (u : Upload) : Prop where
  chunked : u.awsChunked = true
  running : u.aborted = false
  line : u.chunkState ≠ .header → u.chunkHeader = []
  remaining : u.chunkState = .data → 0 < u.chunkRemaining
  held : Open u.chunkHeader
  holds : ∃ payload, u.Holds payload

theorem ready_uploadCreate : Ready (uploadCreate true) where
  chunked := rfl
  running := rfl
  line h := absurd rfl h
  remaining h := by cases h
  held q hq := by
    rw [List.prefix_nil.mp hq]
    decide
  holds := ⟨[], holds_uploadCreate true⟩

section Steps

variable {u u' : Upload} {src src' : Bytes} {later : List Bytes} {met : List Met}

/-- How a read of a header line ends. -/
inductive HeaderEnds (u : Upload) (src : Bytes) : HeaderRead → Prop
  | overflow : HeaderEnds u src .overflow
  | part (hopen : Open (u.chunkHeader ++ src)) :
    HeaderEnds u src (.more { u with chunkHeader := u.chunkHeader ++ src } [])
  | last {a src' : Bytes} (hsrc : src = a ++ src') (hline : Line (u.chunkHeader ++ a))
    (hsize : lineSize (u.chunkHeader ++ a) = 0) :
    HeaderEnds u src (.final { u with chunkHeader := [], chunkRemaining := 0 })
  | chunk {a src' : Bytes} (hsrc : src = a ++ src') (hline : Line (u.chunkHeader ++ a))
    (hsize : lineSize (u.chunkHeader ++ a) ≠ 0) :
    HeaderEnds u src (.more { u with
      chunkHeader := []
      chunkRemaining := lineSize (u.chunkHeader ++ a)
      chunkState := .data } src')

theorem Open.concat {held : Bytes} {c : UInt8} (h : Open held) (hc : ¬ crlf <:+ held ++ [c]) :
    Open (held ++ [c]) := by
  intro q hq
  rcases List.prefix_concat_iff.mp hq with rfl | hq
  · exact hc
  · exact h q hq

theorem Open.line {held : Bytes} {c : UInt8} (h : Open held) (hc : crlf <:+ held ++ [c])
    (hlength : held.length < chunkHeaderSize - 1) : Line (held ++ [c]) where
  length_lt := by
    rw [List.length_append, List.length_singleton]
    omega
  ends := hc
  first := by
    intro q s hcut hends
    rcases List.prefix_concat_iff.mp ⟨s, hcut.symm⟩ with rfl | hq
    · exact List.append_cancel_left (hcut.symm.trans (List.append_nil _).symm)
    · exact absurd hends (h q hq)

theorem headerEnds (hopen : Open u.chunkHeader) (src : Bytes) :
    HeaderEnds u src (u.readHeader src) := by
  induction src generalizing u with
  | nil =>
    have hpart : HeaderEnds u [] _ := .part (by rwa [List.append_nil])
    rwa [List.append_nil] at hpart
  | cons c src ih =>
    rw [readHeader]
    split
    · exact .overflow
    · rename_i hroom
      split
      · rename_i hends
        have hline := hopen.line (List.isSuffixOf_iff_suffix.mp hends) (Nat.lt_of_not_le hroom)
        rw [endHeader]
        split
        · exact .last rfl hline ‹_›
        · exact .chunk rfl hline ‹_›
      · rename_i hends
        have hopen' := hopen.concat (mt List.isSuffixOf_iff_suffix.mpr hends)
        have happend : ∀ a, u.chunkHeader ++ [c] ++ a = u.chunkHeader ++ c :: a := fun a => by simp
        have hih := ih (u := { u with chunkHeader := u.chunkHeader ++ [c] }) hopen'
        generalize readHeader { u with chunkHeader := u.chunkHeader ++ [c] } src = out at hih
        cases hih with
        | overflow => exact .overflow
        | part hopen =>
          rw [happend] at hopen ⊢
          exact .part hopen
        | last hsrc hline hsize =>
          rw [happend] at hline hsize
          exact .last (congrArg (c :: ·) hsrc) hline hsize
        | chunk hsrc hline hsize =>
          rw [happend] at hline hsize ⊢
          exact .chunk (congrArg (c :: ·) hsrc) hline hsize

/-- What is in the reads for a decoder that is in the middle of them. -/
def ParseFrom (u : Upload) (reads : List Bytes) (met : List Met) : Prop :=
  match u.chunkState with
  | .header => Parse u.chunkHeader reads met
  | .data => (∃ d rest met', d.length = u.chunkRemaining ∧ Next d reads rest ∧
        Parse [] (afterData rest) met' ∧ met = .data d :: met') ∨
      reads.flatten.length < u.chunkRemaining ∧ met = [.data reads.flatten]
  | .trailer => Parse [] (afterData reads) met

/-- What a run from `u` over the reads is, if it ends in `v`. -/
def Follows (u : Upload) (reads : List Bytes) (v : Upload) (meets : ℕ → Prop) : Prop :=
  ∃ met, ParseFrom u reads met ∧ v.bytesReceived = u.bytesReceived + (taken met).length ∧
    ∀ n, meets n ↔ LastAt u.bytesReceived met n

/-- A step that takes no byte. -/
theorem Follows.step {reads reads' : List Bytes} {v : Upload} {meets : ℕ → Prop}
    (h : Follows u' reads' v meets) (hbytes : u'.bytesReceived = u.bytesReceived)
    (hparse : ∀ met, ParseFrom u' reads' met → ParseFrom u reads met) :
    Follows u reads v meets := by
  obtain ⟨met, hmet, hcount, hmeets⟩ := h
  rw [hbytes] at hcount hmeets
  exact ⟨met, hparse met hmet, hcount, hmeets⟩

/-- Nothing is left. -/
theorem parse_nil {held : Bytes} (hopen : Open held) : Parse held [] [] := by
  refine .none fun a rest ha hline => ?_
  cases ha
  rw [List.append_nil] at hline
  exact hopen _ List.prefix_rfl hline.ends

/-- The next read begins. -/
theorem parseFrom_nil (hu : Ready u) (h : ParseFrom u later met) :
    ParseFrom u ([] :: later) met := by
  have hnext : ∀ {a : Bytes} {rest : List Bytes}, a ≠ [] → Next a later rest →
      Next a ([] :: later) rest := by
    intro a rest ha hnext
    cases a with
    | nil => exact absurd rfl ha
    | cons c a => exact .read hnext
  have hline : ∀ {a : Bytes}, Line (u.chunkHeader ++ a) → a ≠ [] := by
    rintro a hline rfl
    rw [List.append_nil] at hline
    exact hu.held _ List.prefix_rfl hline.ends
  rw [ParseFrom] at h ⊢
  cases hstate : u.chunkState with
  | header =>
    rw [hstate] at h
    cases h with
    | none hnone =>
      refine .none fun a rest ha hcomplete => ?_
      cases ha with
      | nil => exact hline hcomplete rfl
      | read ha => exact hnone _ _ ha hcomplete
    | last hcomplete ha hsize h => exact .last hcomplete (hnext (hline hcomplete) ha) hsize h
    | chunk hcomplete ha hpos hsize hdata h =>
      exact .chunk hcomplete (hnext (hline hcomplete) ha) hpos hsize hdata h
    | cut hcomplete ha hsize => exact .cut hcomplete (hnext (hline hcomplete) ha) hsize
  | data =>
    rw [hstate] at h
    rcases h with ⟨d, rest, met', hlength, hd, h, rfl⟩ | ⟨hlength, rfl⟩
    · have hpos := hu.remaining hstate
      refine Or.inl ⟨d, rest, met', hlength, hnext ?_ hd, h, rfl⟩
      rintro rfl
      rw [← hlength] at hpos
      exact Nat.lt_irrefl _ hpos
    · exact Or.inr ⟨hlength, rfl⟩
  | trailer =>
    rw [hstate] at h
    exact h

/-- The line goes on in the next read. -/
theorem parse_part {held : Bytes} (hopen : Open (held ++ src))
    (h : Parse (held ++ src) ([] :: later) met) : Parse held (src :: later) met := by
  have hnext : ∀ a rest, Next a ([] :: later) rest → Next (src ++ a) (src :: later) rest :=
    fun a rest h => next_append src a later rest h
  cases h with
  | none hnone =>
    refine .none fun a rest ha hline => ?_
    rcases List.prefix_or_prefix_of_prefix ha.starts
      (List.prefix_append src later.flatten) with hshort | ⟨b, rfl⟩
    · have hprefix : held ++ a <+: held ++ src := (List.prefix_append_right_inj held).mpr hshort
      exact hopen _ hprefix hline.ends
    · rw [← List.append_assoc] at hline
      exact hnone b rest ha.of_append hline
  | last hline ha hsize h =>
    rw [List.append_assoc] at hline hsize
    exact .last hline (hnext _ _ ha) hsize h
  | chunk hline ha hpos hsize hdata h =>
    rw [List.append_assoc] at hline hsize
    exact .chunk hline (hnext _ _ ha) hpos hsize hdata h
  | cut hline ha hsize =>
    rw [List.append_assoc] at hline hsize
    exact .cut hline (hnext _ _ ha) hsize

/-- A line is complete, and data follows. -/
theorem parse_chunk {held a src' : Bytes} (hline : Line (held ++ a))
    (hsize : lineSize (held ++ a) ≠ 0) (hstate : u.chunkState = .data)
    (hremaining : u.chunkRemaining = lineSize (held ++ a)) (h : ParseFrom u (src' :: later) met) :
    Parse held ((a ++ src') :: later) met := by
  rw [ParseFrom, hstate, hremaining] at h
  rcases h with ⟨d, rest, met', hlength, hd, h, rfl⟩ | ⟨hlength, rfl⟩
  · refine .chunk hline (next_self a src' later) ?_ hlength.symm hd h
    rintro rfl
    exact hsize hlength.symm
  · exact .cut hline (next_self a src' later) hlength

/-- Data that goes on in the next read, or ends. -/
theorem Follows.takeData {v : Upload} {meets : ℕ → Prop} (hu : Ready u)
    (hstate : u.chunkState = .data) (hne : src ≠ [])
    (h : Follows (u.takeData src) (src.drop (min src.length u.chunkRemaining) :: later) v meets) :
    Follows u (src :: later) v meets := by
  obtain ⟨met, hmet, hcount, hmeets⟩ := h
  rw [takeData_eq u src (List.length_pos_iff.mpr hne) (hu.remaining hstate)] at hmet hcount hmeets
  have hdrop : src.drop (min src.length u.chunkRemaining) = src.drop u.chunkRemaining := by
    rcases Nat.le_total src.length u.chunkRemaining with hle | hle
    · rw [Nat.min_eq_left hle, List.drop_length, List.drop_of_length_le hle]
    · rw [Nat.min_eq_right hle]
  rw [hdrop] at hmet
  by_cases hle : u.chunkRemaining ≤ src.length
  · -- the chunk ends in this read
    have hlength : (src.take u.chunkRemaining).length = u.chunkRemaining :=
      List.length_take_of_le hle
    have hparse : Parse [] (afterData (src.drop u.chunkRemaining :: later)) met := by
      simpa only [ParseFrom, if_pos hle] using hmet
    refine ⟨.data (src.take u.chunkRemaining) :: met, ?_, ?_, hmeets⟩
    · rw [ParseFrom, hstate]
      refine Or.inl ⟨_, _, met, hlength, ?_, hparse, rfl⟩
      have hself := next_self (src.take u.chunkRemaining) (src.drop u.chunkRemaining) later
      rwa [List.take_append_drop] at hself
    · rw [hcount]
      exact (Nat.add_assoc ..).trans (congrArg (u.bytesReceived + ·) List.length_append.symm)
  · -- all of the read is data, and more of it is to come
    have hlt : src.length < u.chunkRemaining := Nat.lt_of_not_le hle
    rw [List.take_of_length_le hlt.le] at hcount hmeets
    rw [List.drop_of_length_le hlt.le, ParseFrom] at hmet
    have hleft : u.chunkRemaining - min src.length u.chunkRemaining =
        u.chunkRemaining - src.length := by
      rw [Nat.min_eq_left hlt.le]
    simp only [if_neg hle, hstate, hleft] at hmet
    -- what was met is longer by this read
    have hlonger : ∀ d met', met = .data d :: met' →
        ParseFrom u (src :: later) (.data (src ++ d) :: met') →
        Follows u (src :: later) v meets := by
      rintro d met' rfl hparse
      refine ⟨_, hparse, hcount.trans ?_, fun n => (hmeets n).trans ?_⟩
      · simp only [taken, List.flatMap_cons, Met.bytes, List.length_append, processRawData]
        omega
      · simp only [LastAt, List.length_append, processRawData, Nat.add_assoc]
    rcases hmet with ⟨d, rest, met', hlength, hd, hparse, rfl⟩ | ⟨hlength, rfl⟩
    · refine hlonger d met' rfl ?_
      rw [ParseFrom, hstate]
      refine Or.inl ⟨src ++ d, rest, met', ?_, next_append src d later rest hd, hparse, rfl⟩
      rw [List.length_append]
      omega
    · refine hlonger _ [] rfl ?_
      rw [ParseFrom, hstate]
      refine Or.inr ⟨?_, rfl⟩
      simp only [List.flatten_cons, List.length_append, List.length_nil] at hlength ⊢
      omega

theorem Ready.takeData (hu : Ready u) (hstate : u.chunkState = .data) (hne : src ≠ []) :
    Ready (u.takeData src) := by
  have hline : u.chunkHeader = [] := hu.line (by simp [hstate])
  obtain ⟨payload, hholds⟩ := hu.holds
  have hraw := hholds.processRawData (src.take u.chunkRemaining)
  rw [takeData_eq u src (List.length_pos_iff.mpr hne) (hu.remaining hstate)]
  refine ⟨hu.chunked, hu.running, fun _ => hline, fun hdata => ?_, hu.held, _, hraw.sink,
    hraw.content, hraw.bytesReceived, hraw.hashed⟩
  by_cases hle : u.chunkRemaining ≤ src.length
  · rw [if_pos hle] at hdata
    cases hdata
  · exact Nat.sub_pos_of_lt ((Nat.min_le_left _ _).trans_lt (Nat.lt_of_not_le hle))

theorem open_nil : Open [] := ready_uploadCreate.held

/-- The decoder goes to another state, and takes nothing in. -/
theorem Ready.goto (hu : Ready u) {state : ChunkState} {header : Bytes} {remaining : ℕ}
    (hline : state ≠ .header → header = []) (hremaining : state = .data → 0 < remaining)
    (hheld : Open header) :
    Ready { u with chunkState := state, chunkHeader := header, chunkRemaining := remaining } :=
  ⟨hu.chunked, hu.running, hline, hremaining, hheld,
    hu.holds.imp fun _ h => ⟨h.sink, h.content, h.bytesReceived, h.hashed⟩⟩

/-- **A read**, and what follows it. -/
theorem follows_read {v : Upload} {meets : ℕ → Prop} (hu : Ready u)
    (hread : u.processAwsChunked src = some u') (hlater : Ready u' → Follows u' later v meets) :
    Ready u' ∧
      Follows u (src :: later) v fun n => SeesLast u src ∧ n = u'.bytesReceived ∨ meets n := by
  fun_induction processAwsChunked u src with
  | case1 u =>
    obtain rfl := Option.some.inj hread
    refine ⟨hu, ?_⟩
    obtain ⟨met, hmet, hcount, hmeets⟩ := hlater hu
    refine ⟨met, parseFrom_nil hu hmet, hcount, fun n => ?_⟩
    rw [← hmeets n]
    refine or_iff_right ?_
    rintro ⟨hsees, -⟩
    cases hsees <;> contradiction
  | case2 u src hne hstate hover => cases hread
  | case3 u src hne hstate u₁ hfinal =>
    obtain rfl := Option.some.inj hread
    have hends := headerEnds hu.held src
    rw [hfinal] at hends
    cases hends with
    | last hsrc hline hsize =>
      have hu₁ : Ready { u with chunkHeader := [], chunkRemaining := 0 } :=
        hu.goto (fun _ => rfl) (by simp [hstate]) open_nil
      refine ⟨hu₁, ?_⟩
      obtain ⟨met, hmet, hcount, hmeets⟩ := hlater hu₁
      have hparse : Parse [] later met := by simpa only [ParseFrom, hstate] using hmet
      refine ⟨.last :: met, ?_, hcount, fun n => ?_⟩
      · rw [ParseFrom, hstate, hsrc]
        exact .last hline (next_self _ _ later) hsize hparse
      · exact or_congr (and_iff_right (.here hne hstate hfinal)) (hmeets n)
  | case4 u src hne hstate u₁ src₁ hmore ih =>
    rw [seesLast_header_iff hne hstate hmore]
    have hends := headerEnds hu.held src
    rw [hmore] at hends
    cases hends with
    | part hopen =>
      obtain ⟨hu', hfollows⟩ := ih (hu.goto (absurd hstate) (by simp [hstate]) hopen) hread
      refine ⟨hu', hfollows.step rfl fun met hmet => ?_⟩
      simp only [ParseFrom, hstate] at hmet ⊢
      exact parse_part hopen hmet
    | chunk hsrc hline hsize =>
      obtain ⟨hu', hfollows⟩ :=
        ih (hu.goto (fun _ => rfl) (fun _ => Nat.pos_of_ne_zero hsize) open_nil) hread
      refine ⟨hu', hfollows.step rfl fun met hmet => ?_⟩
      rw [ParseFrom, hstate, hsrc]
      exact parse_chunk hline hsize rfl rfl hmet
  | case5 u src hne hstate ih =>
    obtain ⟨hu', hfollows⟩ := ih (hu.takeData hstate hne) hread
    rw [seesLast_data_iff hne hstate]
    exact ⟨hu', hfollows.takeData hu hstate hne⟩
  | case6 u src hne hstate ih =>
    have hline : u.chunkHeader = [] := hu.line (by simp [hstate])
    obtain ⟨hu', hfollows⟩ := ih (hu.goto (by simp) (by simp) hu.held) hread
    rw [seesLast_trailer_iff hne hstate]
    refine ⟨hu', hfollows.step rfl fun met hmet => ?_⟩
    obtain ⟨c, src, rfl⟩ := List.exists_cons_of_ne_nil hne
    simp only [ParseFrom, hstate, hline] at hmet ⊢
    exact hmet

/-- **A run** of the decoder over reads of any kind. -/
theorem follows_processAll {v : Upload} {reads : List Bytes} (hu : Ready u)
    (h : u.processAll reads = some v) :
    Ready v ∧ Follows u reads v fun n => ∃ w, MeetsLast u reads w ∧ n = w.bytesReceived := by
  induction reads generalizing u with
  | nil =>
    obtain rfl := Option.some.inj h
    have hmeets : ∀ n, (∃ w, MeetsLast u [] w ∧ n = w.bytesReceived) ↔ False :=
      fun n => by simp [MeetsLast]
    refine ⟨hu, ?_⟩
    cases hstate : u.chunkState with
    | header =>
      refine ⟨[], ?_, rfl, hmeets⟩
      rw [ParseFrom, hstate]
      exact parse_nil hu.held
    | trailer =>
      refine ⟨[], ?_, rfl, hmeets⟩
      rw [ParseFrom, hstate]
      exact parse_nil open_nil
    | data =>
      refine ⟨[.data []], ?_, rfl, hmeets⟩
      rw [ParseFrom, hstate]
      exact Or.inr ⟨hu.remaining hstate, rfl⟩
  | cons read reads ih =>
    obtain ⟨u', hprocess, hrest⟩ := Option.bind_eq_some_iff.mp h
    have hread : u.processAwsChunked read = some u' := by
      rwa [process, if_neg (by simp [hu.running]), if_pos hu.chunked] at hprocess
    obtain ⟨hu', met, hmet, hcount, hmeets⟩ := follows_read hu hread fun hu' => (ih hu' hrest).2
    refine ⟨(ih hu' hrest).1, met, hmet, hcount, fun n => Iff.trans ?_ (hmeets n)⟩
    constructor
    · rintro ⟨w, ⟨u₁, hu₁, hw⟩, rfl⟩
      obtain rfl := Option.some.inj (hprocess.symm.trans hu₁)
      exact hw.imp (And.imp_right (congrArg bytesReceived)) fun hw => ⟨w, hw, rfl⟩
    · rintro (⟨hsees, rfl⟩ | ⟨w, hw, rfl⟩)
      · exact ⟨u', ⟨u', hprocess, Or.inl ⟨hsees, rfl⟩⟩, rfl⟩
      · exact ⟨w, ⟨u', hprocess, Or.inr hw⟩, rfl⟩

end Steps

/-! ## 5. The end -/

/-- Every upload whose reads are accepted is completed. -/
theorem completes_of_processAll {u : Upload} {reads : List Bytes} (md5 : Bytes → Vector UInt8 16)
    (hall : (uploadCreate true).processAll reads = some u) :
    ∃ done, u.complete md5 = some done := by
  obtain ⟨hu, -⟩ := follows_processAll ready_uploadCreate hall
  obtain ⟨payload, hholds⟩ := hu.holds
  exact ⟨_, hholds.complete hu.running md5⟩

/-- What the end of accepted reads is, by what they parse to. -/
theorem endsRightly_of_parse (md5 : Bytes → Vector UInt8 16) {reads : List Bytes} {u : Upload}
    {met : List Met} (hall : (uploadCreate true).processAll reads = some u)
    (hparse : Parse [] reads met)
    (announced : Option ℕ) :
    EndsRightly md5 reads announced ↔ ∃ chunks after, met = chunks ++ .last :: after ∧
      .last ∉ chunks ∧ taken after = [] ∧ ∀ n ∈ announced, (taken chunks).length = n := by
  obtain ⟨-, met', hmet', hcount, hmeets⟩ := follows_processAll ready_uploadCreate hall
  obtain rfl := hparse.unique hmet'
  have hbytes : u.bytesReceived = 0 + (taken met).length := hcount
  have hlength : ∀ chunks after, met = chunks ++ .last :: after → taken after = [] →
      u.bytesReceived = (taken chunks).length := by
    rintro chunks after rfl hafter
    have htaken : taken (chunks ++ .last :: after) = taken chunks ++ taken after :=
      List.flatMap_append
    rw [hbytes, htaken, hafter, List.append_nil, Nat.zero_add]
  constructor
  · intro hends
    obtain ⟨done, hdone⟩ := completes_of_processAll md5 hall
    obtain ⟨⟨w, hw⟩, hsame, hannounced⟩ := hends u done hall hdone
    have hlast : ∀ n, LastAt 0 met n → 0 + (taken met).length = n := by
      intro n hn
      obtain ⟨w, hw, rfl⟩ := (hmeets n).mpr hn
      exact hbytes.symm.trans (hsame w hw)
    obtain ⟨chunks, after, hmet, hchunks, hafter⟩ :=
      (lastAt_iff met 0).mp ⟨⟨_, (hmeets _).mp ⟨w, hw, rfl⟩⟩, hlast⟩
    refine ⟨chunks, after, hmet, hchunks, hafter, fun n hn => ?_⟩
    rw [← hlength chunks after hmet hafter]
    exact hannounced n hn
  · rintro ⟨chunks, after, hmet, hchunks, hafter, hannounced⟩ u' done hall' -
    obtain rfl := Option.some.inj (hall.symm.trans hall')
    obtain ⟨⟨n, hn⟩, hsame⟩ := (lastAt_iff met 0).mpr ⟨chunks, after, hmet, hchunks, hafter⟩
    refine ⟨?_, fun w hw => ?_, fun n hn => ?_⟩
    · obtain ⟨w, hw, -⟩ := (hmeets n).mpr hn
      exact ⟨w, hw⟩
    · exact hbytes.trans (hsame _ ((hmeets _).mp ⟨w, hw, rfl⟩))
    · rw [hlength chunks after hmet hafter]
      exact hannounced n hn

end Upload

end Buckets
