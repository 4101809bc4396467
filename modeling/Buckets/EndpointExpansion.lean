/-
# `cluster/endpoint.c`: ranges in endpoint arguments

An argument such as `http://node{1...4}:9000/mnt/disk{1...4}` stands for many endpoints.
`buckets_expansion_pattern_parse` takes the FIRST range of it, and the text behind that, ranges
included, is the suffix of each endpoint.

An `Argument` is what the documentation describes: text with any number of ranges, `render` writes
it down, and `expand` is what it means, the product of its ranges.

* `patternParse_render`: what the code finds in an argument;
* `endpointsParse_iff`: the endpoints are those of the expansion if and only if no argument has more
  than one range (and each expanded text is an endpoint).
-/
import Buckets.Lib.MapM
import Buckets.BatchTransport

namespace Buckets
namespace EndpointExpansion

open CStr Strtoull MapM

/-! ## 1. One endpoint -/

inductive EndpointType where
  | path
  | url
  deriving DecidableEq

structure Endpoint where
  original : CString
  type : EndpointType
  scheme : Option CString
  host : Option CString
  port : ℤ
  path : CString
  isLocal : Bool
  poolIdx : ℤ
  setIdx : ℤ
  diskIdx : ℤ
  deriving DecidableEq

/-- `parse_port`: all of the text is read, and is a port. -/
def parsePort (s : CString) : Option ℤ :=
  let number := (sign (s.dropWhile isSpace)).2
  let rest := if digits 10 number = [] then s else number.drop (digits 10 number).length
  if rest = [] ∧ 1 ≤ strtol s ∧ strtol s ≤ 65535 then some (strtol s) else none

/-- The host and the port in front of the path. -/
def parseHostPort (hostPort : CString) : Option (CString × ℤ) :=
  if hostPort.head? = some 91 then
    match strchr hostPort 93 with
    | none => none
    | some bracketEnd =>
      let host := (hostPort.drop 1).take (hostPort.length - bracketEnd.length - 1)
      if bracketEnd.tail.head? = some 58 then (parsePort (bracketEnd.drop 2)).map (host, ·)
      else some (host, 0)
  else
    match strchr hostPort 58 with
    | some colon => (parsePort colon.tail).map (before hostPort 58, ·)
    | none => some (hostPort, 0)

/-- `parse_url_endpoint`, after the scheme. -/
def parseUrlEndpoint (endpointStr scheme rest : CString) : Option Endpoint :=
  match parseHostPort (before rest 47) with
  | none => none
  | some (host, port) =>
    if host = [] then none
    else some ⟨endpointStr, .url, some scheme, some host, port, (strchr rest 47).getD (cstr "/"),
      false, -1, -1, -1⟩

/-- `parse_path_endpoint`. -/
def parsePathEndpoint (endpointStr : CString) : Option Endpoint :=
  if endpointStr = [] ∨ endpointStr = cstr "/" ∨ endpointStr = cstr "\\" then none
  else some ⟨endpointStr, .path, none, none, 0, endpointStr, true, -1, -1, -1⟩

/-- `buckets_endpoint_parse`. -/
def endpointParse (endpointStr : CString) : Option Endpoint :=
  if (cstr "https://").isPrefixOf endpointStr then
    parseUrlEndpoint endpointStr (cstr "https") (endpointStr.drop 8)
  else if (cstr "http://").isPrefixOf endpointStr then
    parseUrlEndpoint endpointStr (cstr "http") (endpointStr.drop 7)
  else if (strstr (cstr "://") endpointStr).isSome then none
  else parsePathEndpoint endpointStr

theorem endpointParse_original {s : CString} {e : Endpoint} (h : endpointParse s = some e) :
    e.original = s := by
  have hurl : ∀ scheme rest, parseUrlEndpoint s scheme rest = some e → e.original = s := by
    intro scheme rest h
    unfold parseUrlEndpoint at h
    split at h
    · simp at h
    · split at h
      · simp at h
      · rw [← Option.some.inj h]
  unfold endpointParse at h
  split at h
  · exact hurl _ _ h
  · split at h
    · exact hurl _ _ h
    · split at h
      · simp at h
      · unfold parsePathEndpoint at h
        split at h
        · simp at h
        · rw [← Option.some.inj h]

/-! ## 2. Patterns -/

inductive PatternRange where
  | numeric (start stop : ℤ)
  | alpha (start stop : UInt8)
  deriving DecidableEq

/-- `buckets_expansion_pattern_t`. -/
structure ExpansionPattern where
  before : CString
  suffix : CString
  range : PatternRange
  deriving DecidableEq

/-- `buckets_endpoint_has_ellipses`. -/
def hasEllipses (str : CString) : Bool :=
  match strchr str 123 with
  | none => false
  | some opening =>
    match strstr (cstr "...") opening with
    | none => false
    | some dots => (strchr dots 125).isSome

def isAlpha (c : UInt8) : Bool := (65 ≤ c && c ≤ 90) || (97 ≤ c && c ≤ 122)

/-- The range between the braces: a number if it starts like one. -/
def parseRange (start stop : CString) (first : UInt8) : Option PatternRange :=
  if isDigit first || first == 45 then
    if strtol start > strtol stop then none else some (.numeric (strtol start) (strtol stop))
  else
    match start, stop with
    | [a], [b] => if isAlpha a && isAlpha b && a ≤ b then some (.alpha a b) else none
    | _, _ => none

/-- `buckets_expansion_pattern_parse`. -/
def expansionPatternParse (str : CString) : Option ExpansionPattern :=
  match strchr str 123 with
  | none => none
  | some opening =>
    match strstr (cstr "...") opening with
    | none => none
    | some dots =>
      match strchr dots 125 with
      | none => none
      | some close =>
        let startStr := opening.tail
        let endStr := dots.drop 3
        (parseRange (startStr.take (startStr.length - dots.length))
            (endStr.take (endStr.length - close.length)) (startStr.headD 0)).map
          fun range => ⟨str.take (str.length - opening.length), close.tail, range⟩

/-- How many values a range has. -/
def PatternRange.count : PatternRange → ℕ
  | .numeric start stop => (stop - start + 1).toNat
  | .alpha start stop => stop.toNat - start.toNat + 1

/-- The text of a value. -/
def PatternRange.value : PatternRange → ℕ → CString
  | .numeric start _, i => printInt (start + i)
  | .alpha start _, i => [start + UInt8.ofNat i]

def PatternRange.values (r : PatternRange) : List CString := (List.range r.count).map r.value

/-- `buckets_expansion_pattern_expand`. -/
def expansionPatternExpand (pattern : ExpansionPattern) : List CString :=
  pattern.range.values.map fun v => pattern.before ++ v ++ pattern.suffix

/-- The first pass at one argument. -/
def countArg (arg : CString) : Option ℕ :=
  if hasEllipses arg then (expansionPatternParse arg).map fun pattern => pattern.range.count
  else some 1

/-- The second pass at one argument. -/
def parseArg (arg : CString) : Option (List Endpoint) :=
  if hasEllipses arg then
    (expansionPatternParse arg).bind fun pattern =>
      (expansionPatternExpand pattern).mapM endpointParse
  else (endpointParse arg).map fun e => [e]

/-- `buckets_endpoints_parse`: the count of the first pass, and the endpoints of the second.  Every
refusal is `none`, also that of a later text of an argument, where the source frees the texts before
it twice. -/
def endpointsParse (args : List CString) : Option (ℕ × List Endpoint) :=
  if args = [] then none
  else
    match args.mapM countArg with
    | none => none
    | some counts => (args.mapM parseArg).map fun found => (counts.sum, found.flatten)

/-! ## 3. What an argument means -/

/-- A range: numbers that fit 64 bits and can be counted, or letters. -/
def PatternRange.Valid : PatternRange → Prop
  | .numeric start stop => start ≤ stop ∧ -2 ^ 63 ≤ start ∧ stop < 2 ^ 63 ∧
      stop - start + 1 < 2 ^ 63
  | .alpha start stop => isAlpha start = true ∧ isAlpha stop = true ∧ start ≤ stop

abbrev Range := {r : PatternRange // r.Valid}

/-- Text without an opening brace. -/
abbrev Literal := {s : CString // 123 ∉ s}

/-- An endpoint argument: text, and ranges with the text that follows them. -/
structure Argument where
  first : Literal
  rest : List (Range × Literal)

/-- What is between the braces, on the left and on the right. -/
def PatternRange.bounds : PatternRange → CString × CString
  | .numeric start stop => (printInt start, printInt stop)
  | .alpha start stop => ([start], [stop])

def PatternRange.render (r : PatternRange) : CString :=
  123 :: r.bounds.1 ++ 46 :: 46 :: 46 :: r.bounds.2 ++ [125]

def renderRest (rest : List (Range × Literal)) : CString :=
  rest.flatMap fun p => p.1.1.render ++ p.2.1

def Argument.render (a : Argument) : CString := a.first.1 ++ renderRest a.rest

/-- The product of the ranges, the last one fastest. -/
def expandRest : CString → List (Range × Literal) → List CString
  | text, [] => [text]
  | text, (r, next) :: rest => r.1.values.flatMap fun v => expandRest (text ++ v ++ next.1) rest

def Argument.expand (a : Argument) : List CString := expandRest a.first.1 a.rest

/-! ## 4. What the code finds -/

theorem strstr_dots {a : CString} (ha : 46 ∉ a) (b : CString) :
    strstr (cstr "...") (a ++ 46 :: 46 :: 46 :: b) = some (46 :: 46 :: 46 :: b) := by
  have hc : cstr "..." = [46, 46, 46] := by decide
  rw [hc]
  induction a with
  | nil => simp [strstr]
  | cons x a ih =>
    simp only [List.mem_cons, not_or] at ha
    simp [strstr, List.isPrefixOf, ha.1, ih ha.2]

theorem mem_printDec {n : ℕ} {c : UInt8} (h : c ∈ printDec n) : isDigit c = true := by
  have hd : ∀ d < 10, isDigit (decChar d) = true := by decide
  unfold printDec at h
  split at h
  · rw [List.mem_singleton.mp h]
    exact hd 0 (by omega)
  · obtain ⟨d, hm, rfl⟩ := List.mem_map.mp h
    exact hd d (Nat.digits_lt_base (by omega) (List.mem_reverse.mp hm))

theorem mem_printInt {n : ℤ} {c : UInt8} (h : c ∈ printInt n) : (isDigit c || c == 45) = true := by
  unfold printInt at h
  split at h
  · rcases List.mem_cons.mp h with rfl | h
    · decide
    · simp [mem_printDec h]
  · simp [mem_printDec h]

theorem strtol_printInt {n : ℤ} (h1 : -2 ^ 63 ≤ n) (h2 : n < 2 ^ 63) : strtol (printInt n) = n := by
  unfold printInt
  split
  · rw [strtol_neg_printDec (by omega)]
    omega
  · rw [strtol_printDec (by omega)]
    omega

theorem printInt_ne_nil (n : ℤ) : printInt n ≠ [] := by
  obtain ⟨-, -, hne, -⟩ := spells_printDec n.natAbs
  unfold printInt
  split
  · simp
  · exact hne

theorem bounds_spec {r : PatternRange} (h : r.Valid) (tail : CString) :
    46 ∉ r.bounds.1 ∧ 125 ∉ r.bounds.2 ∧
      parseRange r.bounds.1 r.bounds.2 ((r.bounds.1 ++ tail).headD 0) = some r := by
  cases r with
  | numeric start stop =>
    obtain ⟨h1, h2, h3, -⟩ := h
    refine ⟨fun hm => absurd (mem_printInt hm) (by decide),
      fun hm => absurd (mem_printInt hm) (by decide), ?_⟩
    obtain ⟨c, s, hc⟩ := List.exists_cons_of_ne_nil (printInt_ne_nil start)
    have hd : (isDigit c || c == 45) = true := mem_printInt (n := start) (by simp [hc])
    have hh : (printInt start ++ tail).headD 0 = c := by simp [hc]
    have e1 : strtol (printInt start) = start := strtol_printInt h2 (by omega)
    have e2 : strtol (printInt stop) = stop := strtol_printInt (by omega) h3
    have e3 : ¬ start > stop := by omega
    simp only [PatternRange.bounds, parseRange, hh, hd, e1, e2, e3, if_true, if_false]
  | alpha start stop =>
    obtain ⟨h1, h2, h3⟩ := h
    have hn : ∀ c : UInt8, isAlpha c = true →
        (isDigit c || c == 45) = false ∧ c ≠ 46 ∧ c ≠ 125 := by
      intro c hc
      simp only [isAlpha, isDigit, Bool.or_eq_true, Bool.and_eq_true, decide_eq_true_eq,
        UInt8.le_iff_toNat_le, Bool.or_eq_false_iff, Bool.and_eq_false_iff, decide_eq_false_iff_not,
        beq_eq_false_iff_ne, ne_eq, ← UInt8.toNat_inj, UInt8.reduceToNat] at hc ⊢
      omega
    obtain ⟨i1, i2, -⟩ := hn start h1
    obtain ⟨-, -, i3⟩ := hn stop h2
    refine ⟨by simpa [PatternRange.bounds] using i2.symm,
      by simpa [PatternRange.bounds] using i3.symm, ?_⟩
    simp [PatternRange.bounds, parseRange, i1, h1, h2, h3]

/-- The first range of a text, with what is in front of it and what follows. -/
theorem patternParse_render {r : PatternRange} (hr : r.Valid) {text : CString} (ht : 123 ∉ text)
    (suffix : CString) : hasEllipses (text ++ (r.render ++ suffix)) = true ∧
      expansionPatternParse (text ++ (r.render ++ suffix)) = some ⟨text, suffix, r⟩ := by
  have hopen : text ++ (r.render ++ suffix) =
      text ++ 123 :: (r.bounds.1 ++ 46 :: 46 :: 46 :: (r.bounds.2 ++ 125 :: suffix)) := by
    simp [PatternRange.render]
  obtain ⟨h1, h2, h3⟩ := bounds_spec hr (46 :: 46 :: 46 :: (r.bounds.2 ++ 125 :: suffix))
  have e1 := strchr_append ht (r.bounds.1 ++ 46 :: 46 :: 46 :: (r.bounds.2 ++ 125 :: suffix))
  have e2 :
    strstr (cstr "...") (123 :: (r.bounds.1 ++ 46 :: 46 :: 46 :: (r.bounds.2 ++ 125 :: suffix))) =
      some (46 :: 46 :: 46 :: (r.bounds.2 ++ 125 :: suffix)) :=
    strstr_dots (a := 123 :: r.bounds.1) (by simp [h1]) _
  have e3 : strchr (46 :: 46 :: 46 :: (r.bounds.2 ++ 125 :: suffix)) 125 = some (125 :: suffix) :=
    strchr_append (a := 46 :: 46 :: 46 :: r.bounds.2) (by simp [h2]) suffix
  rw [hopen]
  constructor
  · simp [hasEllipses, e1, e2, e3]
  · have e4 : (r.bounds.1 ++ 46 :: 46 :: 46 :: (r.bounds.2 ++ 125 :: suffix)).take
        ((r.bounds.1 ++ 46 :: 46 :: 46 :: (r.bounds.2 ++ 125 :: suffix)).length -
          (46 :: 46 :: 46 :: (r.bounds.2 ++ 125 :: suffix)).length) = r.bounds.1 := by
      rw [List.length_append, Nat.add_sub_cancel, List.take_left']
      rfl
    have e5 : (r.bounds.2 ++ 125 :: suffix).take
        ((r.bounds.2 ++ 125 :: suffix).length - (125 :: suffix).length) = r.bounds.2 := by
      rw [List.length_append, Nat.add_sub_cancel, List.take_left']
      rfl
    have e6 : (text ++ 123 :: (r.bounds.1 ++ 46 :: 46 :: 46 :: (r.bounds.2 ++ 125 :: suffix))).take
        ((text ++ 123 :: (r.bounds.1 ++ 46 :: 46 :: 46 :: (r.bounds.2 ++ 125 :: suffix))).length -
          (123 :: (r.bounds.1 ++ 46 :: 46 :: 46 :: (r.bounds.2 ++ 125 :: suffix))).length) =
            text := by
      rw [List.length_append, Nat.add_sub_cancel, List.take_left']
      rfl
    have e7 : List.drop 3 (46 :: 46 :: 46 :: (r.bounds.2 ++ 125 :: suffix)) =
        r.bounds.2 ++ 125 :: suffix :=
      rfl
    simp only [expansionPatternParse, e1, e2, e3, List.tail_cons, e7, e4, e5, e6, h3,
      Option.map_some]

/-- Text without an opening brace has no range. -/
theorem hasEllipses_literal {s : CString} (h : 123 ∉ s) : hasEllipses s = false := by
  simp [hasEllipses, strchr, h]

/-- There is a range in a text. -/
def HasRange (s : CString) : Prop :=
  ∃ (text : CString) (r : Range) (suffix : CString), s = text ++ (r.1.render ++ suffix)

theorem not_hasRange {s : CString} (h : 123 ∉ s) : ¬ HasRange s := by
  rintro ⟨text, r, suffix, rfl⟩
  simp [PatternRange.render] at h

theorem value_no_brace {r : PatternRange} (hr : r.Valid) {i : ℕ} (hi : i < r.count) :
    123 ∉ r.value i := by
  cases r with
  | numeric start stop => exact fun hm => absurd (mem_printInt hm) (by decide)
  | alpha start stop =>
    obtain ⟨h1, h2, h3⟩ := hr
    simp only [PatternRange.count] at hi
    simp only [PatternRange.value, List.mem_singleton]
    intro heq
    have hn := congrArg UInt8.toNat heq
    simp only [isAlpha, Bool.or_eq_true, Bool.and_eq_true, decide_eq_true_eq, UInt8.le_iff_toNat_le,
      UInt8.toNat_add, UInt8.toNat_ofNat'] at h1 h2 h3 hn
    have e1 : (123 : UInt8).toNat = 123 := rfl
    have e2 : (90 : UInt8).toNat = 90 := rfl
    have e3 : (122 : UInt8).toNat = 122 := rfl
    omega

theorem values_no_brace (r : Range) : ∀ v ∈ r.1.values, 123 ∉ v := by
  intro v hv
  obtain ⟨i, hi, rfl⟩ := List.mem_map.mp hv
  exact value_no_brace r.2 (List.mem_range.mp hi)

theorem values_ne_nil (r : Range) : r.1.values ≠ [] := by
  obtain ⟨r, hr⟩ := r
  have hc : 0 < r.count := by
    cases r with
    | numeric start stop =>
      obtain ⟨h1, -⟩ := hr
      simp only [PatternRange.count]
      omega
    | alpha start stop => simp [PatternRange.count]
  simp only [PatternRange.values, ne_eq, List.map_eq_nil_iff, List.range_eq_nil]
  omega

/-! ## 5. The endpoints -/

theorem arg_literal (first : Literal) :
    countArg first.1 = some 1 ∧ parseArg first.1 = [first.1].mapM endpointParse := by
  have he : hasEllipses first.1 = false := hasEllipses_literal first.2
  constructor
  · simp [countArg, he]
  · rw [parseArg, he, List.mapM_cons]
    cases endpointParse first.1 <;> rfl

theorem arg_range (first : Literal) (r : Range) (suffix : CString) :
    countArg (first.1 ++ (r.1.render ++ suffix)) = some r.1.values.length ∧
      parseArg (first.1 ++ (r.1.render ++ suffix)) =
        (r.1.values.map fun v => first.1 ++ v ++ suffix).mapM endpointParse := by
  obtain ⟨h1, h2⟩ := patternParse_render r.2 first.2 suffix
  constructor
  · simp [countArg, h1, h2, PatternRange.values]
  · rw [parseArg, if_pos h1, h2]
    rfl

/-- With at most one range, the code does with an argument what it means. -/
theorem arg_of_one_range {a : Argument} (h : a.rest.length ≤ 1) :
    countArg a.render = some a.expand.length ∧ parseArg a.render = a.expand.mapM endpointParse := by
  obtain ⟨first, rest⟩ := a
  rcases rest with _ | ⟨⟨r, next⟩, _ | ⟨p, rest⟩⟩
  · have hr : Argument.render ⟨first, []⟩ = first.1 := List.append_nil _
    rw [hr]
    exact arg_literal first
  · have hr : Argument.render ⟨first, [(r, next)]⟩ = first.1 ++ (r.1.render ++ next.1) := by
      rw [Argument.render, renderRest, List.flatMap_singleton]
    have hx : Argument.expand ⟨first, [(r, next)]⟩ =
        r.1.values.map fun v => first.1 ++ v ++ next.1 := by
      rw [Argument.expand, expandRest]
      exact List.flatMap_pure_eq_map ..
    rw [hr, hx, List.length_map]
    exact arg_range first r next.1
  · simp only [List.length_cons] at h
    omega

/-- With more, the next range stays in every endpoint. -/
theorem arg_of_two_ranges {a : Argument} (h : ¬ a.rest.length ≤ 1) {es : List Endpoint}
    (hp : parseArg a.render = some es) : ∃ e ∈ es, HasRange e.original := by
  obtain ⟨first, rest⟩ := a
  rcases rest with _ | ⟨⟨r, next⟩, _ | ⟨⟨r', next'⟩, rest⟩⟩
  · simp at h
  · simp at h
  · have hr : Argument.render ⟨first, (r, next) :: (r', next') :: rest⟩ =
        first.1 ++ (r.1.render ++ (next.1 ++ (r'.1.render ++ (next'.1 ++ renderRest rest)))) := by
      simp [Argument.render, renderRest]
    rw [hr, (arg_range first r _).2] at hp
    obtain ⟨v, hv⟩ := List.exists_mem_of_ne_nil _ (values_ne_nil r)
    obtain ⟨e, he, hpe⟩ := (mem_of_mapM hp).1 _ (List.mem_map_of_mem hv)
    refine ⟨e, he, first.1 ++ v ++ next.1, r', next'.1 ++ renderRest rest, ?_⟩
    rw [endpointParse_original hpe]
    simp

/-- An expanded text has no range. -/
theorem expandRest_no_brace {text : CString} (ht : 123 ∉ text) (rest : List (Range × Literal)) :
    ∀ s ∈ expandRest text rest, 123 ∉ s := by
  induction rest generalizing text with
  | nil => simpa [expandRest] using ht
  | cons p rest ih =>
    intro s hs
    obtain ⟨v, hv, hs⟩ := List.mem_flatMap.mp hs
    refine ih ?_ s hs
    simp [ht, values_no_brace p.1 v hv, p.2.2]

/-- What is documented: the endpoints of the product expansion of every argument, in order, and no
range left in any. -/
def Expanded (args : List Argument) : Prop :=
  ∃ es, endpointsParse (args.map Argument.render) = some (es.length, es) ∧
    (args.flatMap Argument.expand).mapM endpointParse = some es ∧ ∀ e ∈ es, ¬ HasRange e.original

theorem endpointsParse_eq {args : List Argument} (hne : args ≠ [])
    (h1 : ∀ a ∈ args, a.rest.length ≤ 1) : endpointsParse (args.map Argument.render) =
      ((args.flatMap Argument.expand).mapM endpointParse).map fun es =>
        ((args.flatMap Argument.expand).length, es) := by
  have hc : (args.map Argument.render).mapM countArg =
      some (args.map fun a => a.expand.length) := by
    rw [mapM_eq_some_iff, List.map_map, List.map_map]
    exact List.map_congr_left fun a ha => (arg_of_one_range (h1 a ha)).1
  have hp : (args.map Argument.render).mapM parseArg =
      args.mapM fun a => a.expand.mapM endpointParse := by
    rw [List.mapM_map]
    exact mapM_congr fun a ha => (arg_of_one_range (h1 a ha)).2
  rw [endpointsParse, if_neg (by simpa using hne), hc, hp, mapM_flatMap, Option.map_map]
  simp [List.length_flatMap]
  rfl

theorem not_expanded {args : List Argument} {a : Argument} (ha : a ∈ args)
    (h : ¬ a.rest.length ≤ 1) : ¬ Expanded args := by
  rintro ⟨es, hp, -, hno⟩
  unfold endpointsParse at hp
  split at hp
  · simp at hp
  · split at hp
    · simp at hp
    · obtain ⟨found, hf, heq⟩ := Option.map_eq_some_iff.mp hp
      obtain ⟨found', hm, hpa⟩ := (mem_of_mapM hf).1 _ (List.mem_map_of_mem ha)
      obtain ⟨e, he, hr⟩ := arg_of_two_ranges h hpa
      refine hno e ?_ hr
      rw [← (Prod.mk.inj heq).2]
      exact List.mem_flatten.mpr ⟨found', hm, he⟩

/-- **`buckets_endpoints_parse`** returns the endpoints of the full expansion if and only if there
is an argument, none has more than one range, and each expanded text is an endpoint. -/
theorem endpointsParse_iff (args : List Argument) :
    Expanded args ↔ args ≠ [] ∧ (∀ a ∈ args, a.rest.length ≤ 1) ∧
      ∀ s ∈ args.flatMap Argument.expand, (endpointParse s).isSome = true := by
  constructor
  · intro h
    refine ⟨?_, fun a ha => ?_, fun s hs => ?_⟩
    · rintro rfl
      obtain ⟨es, hp, -⟩ := h
      simp [endpointsParse] at hp
    · by_contra h2
      exact not_expanded ha h2 h
    · obtain ⟨es, -, hm, -⟩ := h
      obtain ⟨e, -, he⟩ := (mem_of_mapM hm).1 s hs
      rw [he]
      rfl
  · rintro ⟨hne, h1, hp⟩
    obtain ⟨es, hm⟩ := exists_mapM hp
    refine ⟨es, ?_, hm, fun e he => ?_⟩
    · rw [endpointsParse_eq hne h1, hm, length_of_mapM hm]
      rfl
    · obtain ⟨s, hs, hse⟩ := (mem_of_mapM hm).2 e he
      obtain ⟨a, -, hs⟩ := List.mem_flatMap.mp hs
      rw [endpointParse_original hse]
      exact not_hasRange (expandRest_no_brace a.first.2 a.rest s hs)

/-- The range `{1...4}`. -/
def oneToFour : Range := ⟨.numeric 1 4, by norm_num [PatternRange.Valid]⟩

/-- The argument of the documentation. -/
def documented : Argument where
  first := ⟨cstr "http://node", by decide⟩
  rest := [(oneToFour, ⟨cstr ":9000/mnt/disk", by decide⟩), (oneToFour, ⟨[], by decide⟩)]

/-- It has sixteen endpoints, and the code returns four, with the second range in their paths. -/
theorem endpointsParse_documented :
    documented.render = cstr "http://node\x7b1...4\x7d:9000/mnt/disk\x7b1...4\x7d" ∧
      documented.expand.length = 16 ∧
      ((endpointsParse [documented.render]).map fun found => (found.1, found.2.map Endpoint.path)) =
        some (4, List.replicate 4 (cstr "/mnt/disk\x7b1...4\x7d")) ∧
      ¬ Expanded [documented] := by
  refine ⟨by decide +kernel, by decide +kernel, by decide +kernel, ?_⟩
  exact not_expanded (List.mem_singleton_self _) (by decide)

end EndpointExpansion
end Buckets
