/-
# C strings, numbers and JSON trees as the program handles them

Every file the program writes except the raw chunks is JSON text made and read through the
vendored cJSON.  The library itself is a parameter (`CJson`): a printer and a parser that return
the tree that was printed.  What the PROGRAM does with the trees is modelled: looking a member up
without regard to case, taking the first match, converting numbers to and from `double` and
`int`, and copying strings into fixed-size arrays.

* `Double` is a number a C `double` holds; converting an integer rounds above `2^53`
  (`Double.ofInt`), and below it is exact (`Double.ofInt_val`).
* `mkObject` builds an object from its optional members; `getObjectItem_mkObject` says that a
  member is found again, present or absent, if no two names are equal up to case.  Topologies are
  read by the helpers of `json_helpers.c` instead, which compare names exactly and take a default.
* `CJson.reference` is a library that keeps the contract, so nothing below is about an empty type.
-/
import Buckets.Erasure

namespace Buckets

/-! ## 1. C strings -/

/-- A C string: the bytes before the terminator. -/
abbrev CString := Bytes

/-- A string literal of the source. -/
def cstr (s : String) : CString := s.toList.map fun c => UInt8.ofNat c.toNat

/-- What a `char[size]` holds after a bounded copy (`strncpy`, `snprintf`). -/
def charArray (size : ℕ) (s : CString) : CString := s.take (size - 1)

theorem charArray_of_lt {size : ℕ} {s : CString} (h : s.length < size) : charArray size s = s :=
  List.take_of_length_le (by omega)

/-- `tolower`. -/
def toLower (c : UInt8) : UInt8 := if 65 ≤ c ∧ c ≤ 90 then c + 32 else c

/-- `case_insensitive_strcmp(s, t) == 0`. -/
def eqNoCase (s t : CString) : Bool := s.map toLower == t.map toLower

theorem eqNoCase_iff {s t : CString} : eqNoCase s t = true ↔ s.map toLower = t.map toLower :=
  beq_iff_eq

/-- The two lower-case hexadecimal digits `%02x` prints. -/
def hexDigit (n : ℕ) : UInt8 := if n < 10 then UInt8.ofNat (48 + n) else UInt8.ofNat (87 + n)

def hexByte (b : UInt8) : CString := [hexDigit (b.toNat / 16), hexDigit (b.toNat % 16)]

/-- The value of a hexadecimal digit, upper or lower case. -/
def hexValue (c : UInt8) : Option ℕ :=
  if 48 ≤ c ∧ c ≤ 57 then some (c.toNat - 48)
  else if 97 ≤ c ∧ c ≤ 102 then some (c.toNat - 87)
  else if 65 ≤ c ∧ c ≤ 70 then some (c.toNat - 55)
  else none

theorem hexValue_hexDigit {n : ℕ} (h : n < 16) : hexValue (hexDigit n) = some n := by
  interval_cases n <;> decide

/-! ## 2. Numbers -/

/-- Round a natural number to 53 significant bits, ties to even. -/
def roundTo53 (n : ℕ) : ℕ :=
  if n < 2 ^ 53 then n
  else
    let unit := 2 ^ (Nat.log2 n - 52)
    let quotient := n / unit
    let remainder := n % unit
    let up := decide (2 * remainder > unit) || decide (2 * remainder = unit ∧ quotient % 2 = 1)
    (if up then quotient + 1 else quotient) * unit

theorem roundTo53_of_lt {n : ℕ} (h : n < 2 ^ 53) : roundTo53 n = n := if_pos h

theorem roundTo53_representable (n : ℕ) : ∃ m e : ℕ, m ≤ 2 ^ 53 ∧ roundTo53 n = m * 2 ^ e := by
  unfold roundTo53
  split
  · exact ⟨n, 0, by omega, by simp⟩
  · rename_i hn
    have hlog : 53 ≤ Nat.log2 n := (Nat.le_log2 (by omega)).mpr (by omega)
    have hlt : n / 2 ^ (Nat.log2 n - 52) < 2 ^ 53 := by
      rw [Nat.div_lt_iff_lt_mul (by positivity), ← pow_add,
        show 53 + (Nat.log2 n - 52) = Nat.log2 n + 1 by omega]
      exact Nat.lt_log2_self
    dsimp only
    split
    · exact ⟨_, _, hlt, rfl⟩
    · exact ⟨_, _, hlt.le, rfl⟩

/-- A number with an integer value that a C `double` holds exactly. -/
structure Double where
  val : ℤ
  representable : ∃ m e : ℕ, m ≤ 2 ^ 53 ∧ val.natAbs = m * 2 ^ e

namespace Double

theorem ext_val {d d' : Double} (h : d.val = d'.val) : d = d' := by
  cases d; cases d'; simpa using h

/-- The conversion of an integer to `double`. -/
def ofInt (n : ℤ) : Double where
  val := n.sign * roundTo53 n.natAbs
  representable := by
    obtain ⟨m, e, hm, he⟩ := roundTo53_representable n.natAbs
    rcases lt_trichotomy n 0 with h | h | h
    · exact ⟨m, e, hm, by rw [Int.sign_eq_neg_one_of_neg h]; simpa using he⟩
    · exact ⟨0, 0, by omega, by simp [h]⟩
    · exact ⟨m, e, hm, by rw [Int.sign_eq_one_of_pos h]; simpa using he⟩

/-- Below `2^53` the conversion is exact. -/
theorem ofInt_val {n : ℤ} (h : n.natAbs < 2 ^ 53) : (ofInt n).val = n := by
  show n.sign * (roundTo53 n.natAbs : ℤ) = n
  rw [roundTo53_of_lt h, Int.sign_mul_natAbs]

/-- cJSON's `valueint`: the value clamped to the range of `int`. -/
def valueInt (d : Double) : ℤ :=
  if d.val ≥ 2 ^ 31 - 1 then 2 ^ 31 - 1 else if d.val ≤ -2 ^ 31 then -2 ^ 31 else d.val

/-- `(size_t)valuedouble`. -/
def toSize (d : Double) : ℕ := d.val.toNat

theorem valueInt_ofInt {n : ℤ} (h1 : -2 ^ 31 ≤ n) (h2 : n < 2 ^ 31) : (ofInt n).valueInt = n := by
  rw [valueInt, ofInt_val (by omega)]
  split
  · omega
  · split <;> omega

theorem toSize_ofInt {n : ℕ} (h : n < 2 ^ 53) : (ofInt n).toSize = n := by
  rw [toSize, ofInt_val (by simpa using h), Int.toNat_natCast]

end Double

/-- `(u32)i` for an `int`. -/
def u32OfInt (i : ℤ) : ℕ := (i % 2 ^ 32).toNat

theorem u32OfInt_natCast {n : ℕ} (h : n < 2 ^ 31) : u32OfInt n = n := by
  unfold u32OfInt
  omega

/-! ## 3. Trees -/

/-- A cJSON tree.  Object members are in order and may repeat a name. -/
inductive Json where
  | null
  | bool (b : Bool)
  | number (d : Double)
  | string (s : CString)
  | array (items : List Json)
  | object (members : List (CString × Json))

namespace Json

def asNumber : Json → Option Double
  | number d => some d
  | _ => none

def asString : Json → Option CString
  | string s => some s
  | _ => none

def asBool : Json → Option Bool
  | bool b => some b
  | _ => none

def asArray : Json → Option (List Json)
  | array items => some items
  | _ => none

@[simp] theorem asString_string (s : CString) : asString (string s) = some s := rfl

/-- `cJSON_GetObjectItem`: the first member of that name, up to case. -/
def getObjectItem (j : Json) (name : CString) : Option Json :=
  match j with
  | object members => (members.find? fun member => eqNoCase name member.1).map Prod.snd
  | _ => none

/-- The object with the members that are present. -/
def mkObject (members : List (CString × Option Json)) : Json :=
  object (members.filterMap fun member => member.2.map fun v => (member.1, v))

/-- The names of an object under construction, up to case. -/
def names (members : List (CString × Option Json)) : List CString :=
  members.map fun member => member.1.map toLower

theorem find?_filterMap_eq_none : ∀ (ms : List (CString × Option Json)) (name : CString),
    name.map toLower ∉ names ms →
    (ms.filterMap fun member => member.2.map fun v => (member.1, v)).find?
      (fun member => eqNoCase name member.1) = none
  | [], _, _ => rfl
  | (n, v) :: t, name, h => by
    simp only [names, List.map_cons, List.mem_cons, not_or] at h
    have ih := find?_filterMap_eq_none t name h.2
    cases v with
    | none => simpa using ih
    | some v =>
      have hne : eqNoCase name n = false := by
        rw [← Bool.not_eq_true, eqNoCase_iff]
        exact h.1
      simpa [List.find?_cons, hne] using ih

/-- **A member is found again**, present or absent, if no other has its name. -/
theorem getObjectItem_mkObject_append : ∀ {front back : List (CString × Option Json)}
    {name : CString} {v : Option Json}, (names front).Nodup → (name, v) ∈ front →
    name.map toLower ∉ names back → (mkObject (front ++ back)).getObjectItem name = v
  | (n, w) :: t, back, name, v, hnodup, hmem, hback => by
    simp only [names, List.map_cons, List.nodup_cons] at hnodup
    rcases List.mem_cons.mp hmem with heq | hmem
    · obtain ⟨rfl, rfl⟩ := Prod.mk.inj heq
      have hrest := find?_filterMap_eq_none (t ++ back) name (by
        simp only [names, List.map_append, List.mem_append, not_or]
        exact ⟨hnodup.1, hback⟩)
      cases v with
      | none => simpa [mkObject, getObjectItem] using hrest
      | some v => simp [mkObject, getObjectItem, eqNoCase]
    · have ih := getObjectItem_mkObject_append hnodup.2 hmem hback
      have hne : eqNoCase name n = false := by
        rw [← Bool.not_eq_true, eqNoCase_iff]
        intro heq
        exact hnodup.1 (heq ▸ List.mem_map.mpr ⟨(name, v), hmem, rfl⟩)
      cases w with
      | none => simpa [mkObject, getObjectItem] using ih
      | some w =>
        simp only [mkObject, getObjectItem] at ih ⊢
        simpa [List.find?_cons, hne] using ih

variable {name : CString} {j : Json}

theorem getObjectItem_mkObject {ms : List (CString × Option Json)}
    {v : Option Json} (hnodup : (names ms).Nodup) (hmem : (name, v) ∈ ms) :
    (mkObject ms).getObjectItem name = v := by
  have hback : name.map toLower ∉ names [] := List.not_mem_nil
  have h := getObjectItem_mkObject_append hnodup hmem hback
  rwa [List.append_nil] at h

/-- The member `name` as an unsigned integer, 0 if there is none. -/
def u32Item (j : Json) (name : CString) : ℕ :=
  (((j.getObjectItem name).bind asNumber).map fun d => u32OfInt d.valueInt).getD 0

/-- The member `name` as a size, 0 if there is none. -/
def sizeItem (j : Json) (name : CString) : ℕ :=
  (((j.getObjectItem name).bind asNumber).map Double.toSize).getD 0

/-- The member `name`, if it is a string. -/
def stringItem (j : Json) (name : CString) : Option CString := (j.getObjectItem name).bind asString

/-- The member `name`, if it is a truth value. -/
def boolItem (j : Json) (name : CString) : Option Bool := (j.getObjectItem name).bind asBool

/-- The member `name`, if it is an array. -/
def arrayItem (j : Json) (name : CString) : Option (List Json) :=
  (j.getObjectItem name).bind asArray

/-- The members of an object. -/
def members : Json → List (CString × Json)
  | object ms => ms
  | _ => []

/-- `cJSON_CreateNumber` of an integer. -/
def int (n : ℤ) : Json := number (Double.ofInt n)

theorem u32Item_eq {n : ℕ} (h : j.getObjectItem name = some (int n))
    (hn : n < 2 ^ 31) : j.u32Item name = n := by
  have hval := Double.valueInt_ofInt (n := n) (by omega) (by omega)
  simp only [u32Item, h, int, Option.bind_some, asNumber, Option.map_some, Option.getD_some, hval,
    u32OfInt_natCast hn]

theorem sizeItem_eq {n : ℕ} (h : j.getObjectItem name = some (int n))
    (hn : n < 2 ^ 53) : j.sizeItem name = n := by
  simp only [sizeItem, h, int, Option.bind_some, asNumber, Option.map_some, Option.getD_some,
    Double.toSize_ofInt hn]

theorem stringItem_eq {s : Option CString}
    (h : j.getObjectItem name = s.map string) : j.stringItem name = s := by
  cases s <;> simp [stringItem, h, asString]

theorem boolItem_eq {b : Bool}
    (h : j.getObjectItem name = some (bool b)) : j.boolItem name = some b := by
  simp [boolItem, h, asBool]

theorem arrayItem_eq {items : List Json}
    (h : j.getObjectItem name = some (array items)) : j.arrayItem name = some items := by
  simp [arrayItem, h, asArray]

/-! ## 4. The helpers of `json_helpers.c` -/

/-- `cJSON_GetObjectItemCaseSensitive`: the first member of that very name. -/
def getObjectItemCaseSensitive (j : Json) (name : CString) : Option Json :=
  match j with
  | object members => (members.find? fun member => name == member.1).map Prod.snd
  | _ => none

theorem getObjectItemCaseSensitive_object {ms : List (CString × Json)} {v : Json}
    (hnodup : (ms.map Prod.fst).Nodup) (hmem : (name, v) ∈ ms) :
    (object ms).getObjectItemCaseSensitive name = some v := by
  induction ms with
  | nil => exact absurd hmem List.not_mem_nil
  | cons m ms ih =>
    rw [List.map_cons, List.nodup_cons] at hnodup
    rcases List.mem_cons.mp hmem with rfl | hmem
    · simp [getObjectItemCaseSensitive]
    · have hne : (name == m.1) = false := by
        rw [beq_eq_false_iff_ne]
        rintro rfl
        exact hnodup.1 (List.mem_map.mpr ⟨_, hmem, rfl⟩)
      have := ih hnodup.2 hmem
      simpa [getObjectItemCaseSensitive, List.find?_cons, hne] using this

/-- `buckets_json_get_int`. -/
def getInt (j : Json) (name : CString) (default : ℤ) : ℤ :=
  (((j.getObjectItemCaseSensitive name).bind asNumber).map Double.valueInt).getD default

/-- `buckets_json_get_string`, `none` for a default of `NULL`. -/
def getString (j : Json) (name : CString) (default : Option CString) : Option CString :=
  ((j.getObjectItemCaseSensitive name).bind asString).or default

/-- `buckets_json_get_array`. -/
def getArray (j : Json) (name : CString) : Option (List Json) :=
  (j.getObjectItemCaseSensitive name).bind asArray

theorem getInt_eq {n default : ℤ}
    (h : j.getObjectItemCaseSensitive name = some (int n)) (h1 : -2 ^ 31 ≤ n) (h2 : n < 2 ^ 31) :
    j.getInt name default = n := by
  simp [getInt, h, int, asNumber, Double.valueInt_ofInt h1 h2]

theorem getString_eq {s : CString} {default : Option CString}
    (h : j.getObjectItemCaseSensitive name = some (string s)) :
    j.getString name default = some s := by
  simp [getString, h]

theorem getArray_eq {items : List Json}
    (h : j.getObjectItemCaseSensitive name = some (array items)) :
    j.getArray name = some items := by
  simp [getArray, h, asArray]

end Json

/-! ## 5. The library -/

/-- **cJSON**: printing and parsing return the tree. -/
structure CJson where
  Text : Type
  /-- `cJSON_Print`. -/
  print : Json → Text
  /-- `cJSON_PrintUnformatted`. -/
  printUnformatted : Json → Text
  /-- `cJSON_Parse`. -/
  parse : Text → Option Json
  /-- The characters of a text. -/
  chars : Text → Bytes
  chars_injective : Function.Injective chars
  parse_print : ∀ j, parse (print j) = some j
  parse_printUnformatted : ∀ j, parse (printUnformatted j) = some j

theorem CJson.chars_printUnformatted_injective (cjson : CJson) :
    Function.Injective fun j => cjson.chars (cjson.printUnformatted j) := by
  intro j j' h
  have htext : cjson.printUnformatted j = cjson.printUnformatted j' := cjson.chars_injective h
  have := cjson.parse_printUnformatted j
  rw [htext, cjson.parse_printUnformatted] at this
  exact (Option.some.inj this).symm

namespace Json

/-! Trees as bytes, each with an end that the bytes themselves show. -/

def encodeNat (n : ℕ) : Bytes := List.replicate n 1 ++ [0]

def encodeString (s : CString) : Bytes := s.flatMap (fun c => [1, c]) ++ [0]

mutual
def encode : Json → Bytes
  | null => [0]
  | bool b => [1, if b then 1 else 0]
  | number d => 2 :: (if d.val < 0 then 1 else 0) :: encodeNat d.val.natAbs
  | string s => 3 :: encodeString s
  | array items => 4 :: encodeItems items
  | object members => 5 :: encodeMembers members

def encodeItems : List Json → Bytes
  | [] => [0]
  | j :: items => 1 :: (encode j ++ encodeItems items)

def encodeMembers : List (CString × Json) → Bytes
  | [] => [0]
  | (name, j) :: members => 1 :: (encodeString name ++ (encode j ++ encodeMembers members))
end

theorem encodeNat_append_inj : ∀ {n n' : ℕ} {r r' : Bytes},
    encodeNat n ++ r = encodeNat n' ++ r' → n = n' ∧ r = r'
  | 0, 0, r, r', h => by simpa [encodeNat] using h
  | 0, n' + 1, r, r', h => by simp [encodeNat, List.replicate_succ] at h
  | n + 1, 0, r, r', h => by simp [encodeNat, List.replicate_succ] at h
  | n + 1, n' + 1, r, r', h => by
    have h' : encodeNat n ++ r = encodeNat n' ++ r' := by
      simpa [encodeNat, List.replicate_succ] using h
    obtain ⟨rfl, hr⟩ := encodeNat_append_inj h'
    exact ⟨rfl, hr⟩

theorem encodeString_append_inj : ∀ {s s' : CString} {r r' : Bytes},
    encodeString s ++ r = encodeString s' ++ r' → s = s' ∧ r = r'
  | [], [], r, r', h => by simpa [encodeString] using h
  | [], c :: s', r, r', h => by simp [encodeString] at h
  | c :: s, [], r, r', h => by simp [encodeString] at h
  | c :: s, c' :: s', r, r', h => by
    have h' : c = c' ∧ encodeString s ++ r = encodeString s' ++ r' := by
      simpa [encodeString] using h
    obtain ⟨rfl, hr⟩ := encodeString_append_inj h'.2
    exact ⟨by rw [h'.1], hr⟩

mutual
theorem encode_append_inj : ∀ (j j' : Json) {r r' : Bytes},
    encode j ++ r = encode j' ++ r' → j = j' ∧ r = r'
  | null, j', r, r', h => by
    cases j' <;> simp [encode] at h
    exact ⟨rfl, h⟩
  | bool b, j', r, r', h => by
    cases j' <;> simp [encode] at h
    rename_i b'
    refine ⟨?_, h.2⟩
    cases b <;> cases b' <;> simp_all
  | number d, j', r, r', h => by
    cases j' <;> simp [encode] at h
    rename_i d'
    obtain ⟨habs, hr⟩ := encodeNat_append_inj h.2
    refine ⟨congrArg number (Double.ext_val ?_), hr⟩
    have hsign := h.1
    split_ifs at hsign <;> simp at hsign <;> omega
  | string s, j', r, r', h => by
    cases j' <;> simp [encode] at h
    obtain ⟨rfl, hr⟩ := encodeString_append_inj h
    exact ⟨rfl, hr⟩
  | array items, j', r, r', h => by
    cases j' <;> simp [encode] at h
    rename_i items'
    obtain ⟨rfl, hr⟩ := encodeItems_append_inj items items' h
    exact ⟨rfl, hr⟩
  | object members, j', r, r', h => by
    cases j' <;> simp [encode] at h
    rename_i members'
    obtain ⟨rfl, hr⟩ := encodeMembers_append_inj members members' h
    exact ⟨rfl, hr⟩

theorem encodeItems_append_inj : ∀ (items items' : List Json) {r r' : Bytes},
    encodeItems items ++ r = encodeItems items' ++ r' → items = items' ∧ r = r'
  | [], [], r, r', h => by simpa [encodeItems] using h
  | [], j' :: items', r, r', h => by simp [encodeItems] at h
  | j :: items, [], r, r', h => by simp [encodeItems] at h
  | j :: items, j' :: items', r, r', h => by
    simp only [encodeItems, List.cons_append, List.append_assoc, List.cons.injEq, true_and] at h
    obtain ⟨rfl, hitems⟩ := encode_append_inj j j' h
    obtain ⟨rfl, hr⟩ := encodeItems_append_inj items items' hitems
    exact ⟨rfl, hr⟩

theorem encodeMembers_append_inj : ∀ (members members' : List (CString × Json)) {r r' : Bytes},
    encodeMembers members ++ r = encodeMembers members' ++ r' → members = members' ∧ r = r'
  | [], [], r, r', h => by simpa [encodeMembers] using h
  | [], (name', j') :: members', r, r', h => by simp [encodeMembers] at h
  | (name, j) :: members, [], r, r', h => by simp [encodeMembers] at h
  | (name, j) :: members, (name', j') :: members', r, r', h => by
    simp only [encodeMembers, List.cons_append, List.append_assoc, List.cons.injEq,
      true_and] at h
    obtain ⟨rfl, hvalue⟩ := encodeString_append_inj h
    obtain ⟨rfl, hmembers⟩ := encode_append_inj j j' hvalue
    obtain ⟨rfl, hr⟩ := encodeMembers_append_inj members members' hmembers
    exact ⟨rfl, hr⟩
end

theorem encode_injective : Function.Injective encode := by
  intro j j' h
  have h' : encode j ++ [] = encode j' ++ [] := by rw [h]
  exact (encode_append_inj j j' h').1

end Json

/-- The library whose texts are the trees themselves. -/
def CJson.reference : CJson where
  Text := Json
  print := id
  printUnformatted := id
  parse := some
  chars := Json.encode
  chars_injective := Json.encode_injective
  parse_print := fun _ => rfl
  parse_printUnformatted := fun _ => rfl

/-! ## 6. Files -/

/-- The outcome of `buckets_atomic_write`, which replaces the file at one stroke: done, or failed
with the new file in place or not (it is in place if only the sync of the directory failed). -/
inductive AtomicWrite where
  | ok
  | failed (installed : Bool)

namespace AtomicWrite

def isOk : AtomicWrite → Bool
  | ok => true
  | failed _ => false

def installs : AtomicWrite → Bool
  | ok => true
  | failed installed => installed

theorem installs_of_isOk : ∀ {r : AtomicWrite}, r.isOk = true → r.installs = true
  | ok, _ => rfl

end AtomicWrite

/-- The file after `buckets_json_save(path, json, true)`. -/
def jsonSave (cjson : CJson) (r : AtomicWrite) (old : Option cjson.Text) (j : Json) :
    Option cjson.Text :=
  if r.installs then some (cjson.print j) else old

/-- `buckets_json_load`. -/
def jsonLoad (cjson : CJson) (file : Option cjson.Text) : Option Json := file.bind cjson.parse

end Buckets
