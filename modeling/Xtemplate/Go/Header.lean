import Xtemplate.Go.Http
import Xtemplate.Go.Map

/-!
`http.Header` with the key canonicalization of `net/textproto`, and the header
and status a response sends.

`Header.Add`, `Set`, `Values` and `Del` canonicalize the key first with
`textproto.CanonicalMIMEHeaderKey`: a key of token bytes (the `tchar`s of
RFC 7230) gets its first letter and every letter after a `-` in upper case
and every other letter in lower case; a key with any other byte is used as
it is. `maps.Copy` copies the entries of one header into another as they are.

Which keys name one field is `sameField`: keys of token bytes that are equal
up to ASCII case, and otherwise equal keys (`canonicalMIMEHeaderKey_eq_iff`).
Through it, `Header.values_add`, `Header.values_set` and `Header.values_del`
say what each operation does to the values of every key.

A response sends the status of its first `WriteHeader`, or 200 when a `Write`
or `Flush` comes first or nothing is written, and the header the writer held
at that point (`sentStatus`, `sentHeader`).
-/

namespace Go

/-! ### `textproto.CanonicalMIMEHeaderKey` -/

/-- The bytes `validHeaderFieldByte` accepts in a header key: the `tchar`s of
RFC 7230, all of them ASCII. -/
def tokenChars : List Char :=
  "!#$%&\x27*+-.^_\x60|~0123456789abcdefghijklmnopqrstuvwxyzABCDEFGHIJKLMNOPQRSTUVWXYZ".toList

/-- `validHeaderFieldByte`. -/
def validHeaderFieldByte (c : Char) : Bool := tokenChars.contains c

/-- The rewrite loop of `canonicalMIMEHeaderKey`: a letter is upper case at
the start and after a `-`, and lower case elsewhere. -/
def canonicalizeKey : Bool → List Char → List Char
  | _, [] => []
  | upper, c :: cs =>
    let c := if upper then c.toUpper else c.toLower
    c :: canonicalizeKey (c == '-') cs

/-- `textproto.CanonicalMIMEHeaderKey`. Its quick check returns a key with a
byte that is no token byte as it is, and so does `canonicalMIMEHeaderKey`
when it meets one later (a space included); a key of token bytes is
rewritten. -/
def canonicalMIMEHeaderKey (s : List Char) : List Char :=
  if s.all validHeaderFieldByte then canonicalizeKey true s else s

/-- Two keys name the same header field: keys of token bytes equal up to
ASCII case, and any other keys that are equal. -/
def sameField (a b : List Char) : Bool :=
  if a.all validHeaderFieldByte && b.all validHeaderFieldByte then
    a.map Char.toLower == b.map Char.toLower
  else a == b

/-- What the case changes do to each token byte, checked on each. -/
theorem tokenChars_case : tokenChars.all (fun c =>
    c.toLower.toUpper == c.toUpper && c.toUpper.toLower == c.toLower &&
    c.toLower.toLower == c.toLower && validHeaderFieldByte c.toUpper && validHeaderFieldByte c.toLower &&
    ((c.toUpper == '-') == (c == '-')) && ((c.toLower == '-') == (c == '-'))) = true := rfl

section Case

variable {c : Char} (h : validHeaderFieldByte c = true)

include h

theorem case_of_valid :
    c.toLower.toUpper = c.toUpper ∧ c.toUpper.toLower = c.toLower ∧ c.toLower.toLower = c.toLower ∧
      validHeaderFieldByte c.toUpper = true ∧ validHeaderFieldByte c.toLower = true ∧
      (c.toUpper == '-') = (c == '-') ∧ (c.toLower == '-') = (c == '-') := by
  have := List.all_eq_true.mp tokenChars_case c (List.contains_iff_mem.mp h)
  simpa only [Bool.and_eq_true, beq_iff_eq, and_assoc] using this

end Case

/-- The rewritten key has token bytes only. -/
theorem all_valid_canonicalizeKey (upper : Bool) {s : List Char}
    (h : s.all validHeaderFieldByte = true) : (canonicalizeKey upper s).all validHeaderFieldByte = true := by
  induction s generalizing upper with
  | nil => rfl
  | cons c s ih =>
    simp only [List.all_cons, Bool.and_eq_true] at h
    obtain ⟨-, -, -, hup, hlow, -, -⟩ := case_of_valid h.1
    cases upper <;> simp [canonicalizeKey, hup, hlow, ih _ h.2]

/-- Rewriting a key of token bytes changes only the case of its letters. -/
theorem map_toLower_canonicalizeKey (upper : Bool) {s : List Char}
    (h : s.all validHeaderFieldByte = true) :
    (canonicalizeKey upper s).map Char.toLower = s.map Char.toLower := by
  induction s generalizing upper with
  | nil => rfl
  | cons c s ih =>
    simp only [List.all_cons, Bool.and_eq_true] at h
    obtain ⟨-, hupLow, hlowLow, -, -, -, -⟩ := case_of_valid h.1
    cases upper <;> simp [canonicalizeKey, hupLow, hlowLow, ih _ h.2]

/-- Keys of token bytes equal up to case are rewritten alike: the case of each
letter is chosen by the letter before it, which is a `-` in both or in
neither. -/
theorem canonicalizeKey_congr (upper : Bool) {s t : List Char}
    (hs : s.all validHeaderFieldByte = true) (ht : t.all validHeaderFieldByte = true)
    (h : s.map Char.toLower = t.map Char.toLower) : canonicalizeKey upper s = canonicalizeKey upper t := by
  induction s generalizing t upper with
  | nil =>
    cases t with
    | nil => rfl
    | cons d t => cases h
  | cons c s ih =>
    cases t with
    | nil => cases h
    | cons d t =>
      simp only [List.all_cons, Bool.and_eq_true] at hs ht
      simp only [List.map_cons, List.cons.injEq] at h
      -- both letters get the same case
      have hcd : (if upper then c.toUpper else c.toLower) = (if upper then d.toUpper else d.toLower) := by
        cases upper
        · exact h.1
        · rw [← (case_of_valid hs.1).1, ← (case_of_valid ht.1).1, h.1]
      simp only [canonicalizeKey, hcd, ih _ hs.2 ht.2 h.2]

/-- **The keys that name one field.** Two keys canonicalize alike exactly
when they are keys of token bytes equal up to ASCII case, or are equal. -/
theorem canonicalMIMEHeaderKey_eq_iff (a b : List Char) :
    canonicalMIMEHeaderKey a = canonicalMIMEHeaderKey b ↔ sameField a b = true := by
  unfold canonicalMIMEHeaderKey sameField
  by_cases ha : a.all validHeaderFieldByte = true <;> by_cases hb : b.all validHeaderFieldByte = true
  · simp only [ha, hb, ↓reduceIte, Bool.and_self, beq_iff_eq]
    constructor
    · intro h
      rw [← map_toLower_canonicalizeKey true ha, ← map_toLower_canonicalizeKey true hb, h]
    · exact canonicalizeKey_congr true ha hb
  · -- a rewritten key has token bytes only, the other key does not
    simp only [ha, hb, ↓reduceIte, Bool.true_and, Bool.false_eq_true, beq_iff_eq]
    constructor
    · intro h
      exact absurd (h ▸ all_valid_canonicalizeKey true ha) hb
    · intro h
      exact absurd (h ▸ ha) hb
  · simp only [ha, hb, ↓reduceIte, Bool.false_and, Bool.false_eq_true, beq_iff_eq]
    constructor
    · intro h
      exact absurd (h ▸ all_valid_canonicalizeKey true hb) ha
    · intro h
      exact absurd (h ▸ hb) ha
  · simp [ha, hb]

@[simp] theorem sameField_self (a : List Char) : sameField a a = true := by
  unfold sameField
  split <;> simp

/-- Keys of different lengths name different fields. -/
theorem sameField_of_length_ne {a b : List Char} (h : a.length ≠ b.length) :
    sameField a b = false := by
  unfold sameField
  split
  · rw [beq_eq_false_iff_ne]
    intro heq
    exact h (by simpa using congrArg List.length heq)
  · rw [beq_eq_false_iff_ne]
    rintro rfl
    exact h rfl

/-- Keys whose first letters differ in any case name different fields. -/
theorem sameField_of_head_ne {a b : List Char}
    (h : a.head?.map Char.toLower ≠ b.head?.map Char.toLower) : sameField a b = false := by
  unfold sameField
  split
  · rw [beq_eq_false_iff_ne]
    intro heq
    exact h (by simpa [List.head?_map] using congrArg List.head? heq)
  · rw [beq_eq_false_iff_ne]
    rintro rfl
    exact h rfl

/-! ### `http.Header` -/

namespace Header

/-- `h.Values(key)`: `h[CanonicalMIMEHeaderKey(key)]`, nil when absent. -/
def values (h : Header) (key : List Char) : List (List Char) :=
  (List.lookup (canonicalMIMEHeaderKey key) h).getD []

/-- `h.Get(key)`: the first value, or the empty string. -/
def get (h : Header) (key : List Char) : List Char := (h.values key).headD []

/-- `h.Add(key, value)`. -/
def add (h : Header) (key value : List Char) : Header :=
  let key := canonicalMIMEHeaderKey key
  Map.set (h : Map (List Char) (List (List Char))) key ((List.lookup key h).getD [] ++ [value])

/-- `h.Set(key, value)`. -/
def set (h : Header) (key value : List Char) : Header :=
  Map.set (h : Map (List Char) (List (List Char))) (canonicalMIMEHeaderKey key) [value]

/-- `h.Del(key)`. -/
def del (h : Header) (key : List Char) : Header :=
  Map.delete (h : Map (List Char) (List (List Char))) (canonicalMIMEHeaderKey key)

/-- A header has one entry per key, as every header made by its operations. -/
def WF (h : Header) : Prop := (h.map Prod.fst).Nodup

theorem values_add (h : Header) (key value x : List Char) :
    (h.add key value).values x = if sameField x key then h.values x ++ [value] else h.values x := by
  unfold values add
  rw [lookup_set]
  by_cases hx : canonicalMIMEHeaderKey x = canonicalMIMEHeaderKey key
  · rw [if_pos (by simp [hx]), if_pos ((canonicalMIMEHeaderKey_eq_iff x key).mp hx), hx]
    rfl
  · rw [if_neg (by simpa using hx), if_neg (by simpa [canonicalMIMEHeaderKey_eq_iff] using hx)]

theorem values_set (h : Header) (key value x : List Char) :
    (h.set key value).values x = if sameField x key then [value] else h.values x := by
  unfold values set
  rw [lookup_set]
  by_cases hx : canonicalMIMEHeaderKey x = canonicalMIMEHeaderKey key
  · rw [if_pos (by simp [hx]), if_pos ((canonicalMIMEHeaderKey_eq_iff x key).mp hx)]
    rfl
  · rw [if_neg (by simpa using hx), if_neg (by simpa [canonicalMIMEHeaderKey_eq_iff] using hx)]

theorem values_del (h : Header) (key x : List Char) :
    (h.del key).values x = if sameField x key then [] else h.values x := by
  unfold values del Map.delete
  rw [lookup_filter_ne]
  by_cases hx : canonicalMIMEHeaderKey x = canonicalMIMEHeaderKey key
  · rw [if_pos (by simp [hx]), if_pos ((canonicalMIMEHeaderKey_eq_iff x key).mp hx)]
    rfl
  · rw [if_neg (by simpa using hx), if_neg (by simpa [canonicalMIMEHeaderKey_eq_iff] using hx)]

theorem WF.add {h : Header} (hh : h.WF) (key value : List Char) : (h.add key value).WF :=
  nodup_map_fst_set hh _ _

theorem WF.set {h : Header} (hh : h.WF) (key value : List Char) : (h.set key value).WF :=
  nodup_map_fst_set hh _ _

theorem WF.del {h : Header} (hh : h.WF) (key : List Char) : (h.del key).WF :=
  nodup_map_fst_delete hh _

end Header

/-- `maps.Copy(dst, src)`: every entry of `src` set in `dst`. -/
def mapsCopy (dst src : Header) : Header :=
  src.foldl (fun (d : Map (List Char) (List (List Char))) e => d.set e.1 e.2) dst

/-- Copied into an empty header, a header keeps the values of every key. -/
theorem values_mapsCopy_nil {src : Header} (hsrc : src.WF) (x : List Char) :
    (mapsCopy [] src).values x = src.values x := by
  have hfold := Map.get_foldl_set src (Map.empty : Map (List Char) (List (List Char)))
    (canonicalMIMEHeaderKey x)
  rw [Map.get_empty, Option.or_none, lookup_reverse_of_nodup hsrc] at hfold
  exact congrArg (fun o => o.getD []) hfold

/-! ### What a response sends -/

/-- The header the client receives, from the one the writer holds before the
calls: the edits up to the first status write, after which `net/http` has
sent the header. -/
def sentHeaderFrom (h : Header) : List WriterCall → Header
  | [] => h
  | .headerSet key value :: calls => sentHeaderFrom (h.set key value) calls
  | .headerAdd key value :: calls => sentHeaderFrom (h.add key value) calls
  | .headerDel key :: calls => sentHeaderFrom (h.del key) calls
  | .headerCopy src :: calls => sentHeaderFrom (mapsCopy h src) calls
  | .writeHeader _ :: _ | .write _ :: _ | .flush :: _ => h

/-- The header the client receives from a handler that starts with an empty one. -/
def sentHeader (calls : List WriterCall) : Header := sentHeaderFrom [] calls

/-- The status the client receives: the first `WriteHeader`'s, or 200 when a
`Write` or a `Flush` comes first or when the handler writes nothing. -/
def sentStatus : List WriterCall → Int
  | [] => 200
  | .writeHeader code :: _ => code
  | .write _ :: _ | .flush :: _ => 200
  | _ :: calls => sentStatus calls


/-- A call on the body: a write or a flush. -/
def WriterCall.onBody : WriterCall → Bool
  | .write _ | .flush => true
  | _ => false

/-- Calls that only write and flush send the header the writer already holds. -/
theorem sentHeaderFrom_of_onBody (h : Header) {calls : List WriterCall}
    (hc : ∀ c ∈ calls, c.onBody = true) : sentHeaderFrom h calls = h := by
  cases calls with
  | nil => rfl
  | cons c calls =>
    have hc' := hc c List.mem_cons_self
    cases c <;> first | rfl | cases hc'

/-- Calls that only write and flush send status 200. -/
theorem sentStatus_of_onBody {calls : List WriterCall} (hc : ∀ c ∈ calls, c.onBody = true) :
    sentStatus calls = 200 := by
  cases calls with
  | nil => rfl
  | cons c calls =>
    have hc' := hc c List.mem_cons_self
    cases c <;> first | rfl | cases hc'

end Go
