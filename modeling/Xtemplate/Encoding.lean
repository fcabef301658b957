import Mathlib.Tactic.Linarith
import Mathlib.Data.Prod.Lex
import Xtemplate.Basic
import Xtemplate.Go.Strconv

/-!
Static-file encodings and their negotiation (`negiotiateEncoding`,
`handlers.go`).

A static file is stored in one or more encodings, identity and the
compressed copies found beside it, sorted by size. A request's
`Accept-Encoding` values are read entry by entry; each entry that names a
stored encoding competes with the encoding selected so far under a rule with
a tolerance of 0.1: a weight more than 0.1 higher wins, and a weight within
0.1 wins when its encoding is listed earlier. The selection starts at
identity with weight 0.

The weights are `float64`s (`Go.F64`): `strconv.ParseFloat` is
`Go.parseFloat`, and the rule computes `q-maxq` rounded to a double, its
`math.Abs`, and compares them with the double nearest to 0.1. Rounding
decides near ties: `br;q=0.3, gzip;q=0.4` serves gzip, since `0.4-0.3` is a
little above the double 0.1.

The header loops are first shown to be one fold over the header's entries,
`acceptEntries`; what the selection guarantees is stated over those entries.
-/

namespace Xtemplate

open Go

/-- `encodingInfo`: a stored encoding of a static file. Its `modtime` is
only logged and passed to `http.ServeContent`, and is left out. -/
structure EncodingInfo where
  encoding : List Char
  path : List Char
  size : Int
  deriving DecidableEq, Repr

/-- The first stored encoding of a name, as the loops
`for i, e := range encodings { if e.encoding == name { ...; break } }` find it. -/
def encodingIndex (encodings : List EncodingInfo) (name : List Char) : Option Nat :=
  encodings.findIdx? (·.encoding == name)

/-- The loop over an entry's parameters: the first `q=` parameter whose value
parses with no error, and `1.0` when there is none. -/
def qValue : List (List Char) → F64
  | [] => F64.one
  | part :: parts =>
    let part := trimSpace part
    if hasPrefix part "q=".toList then
      match parseFloat (trimSpace (trimPrefix part "q=".toList)) with
      | (parsed, none) => parsed
      | (_, some _) => qValue parts
    else qValue parts

/-- The rule that replaces the selection `(maxq, maxqIdx)`:
`q-maxq > 0.1 || (math.Abs(q-maxq) <= 0.1 && requestedIdx < maxqIdx)`. -/
def selectEncoding (st : F64 × Nat) (q : F64) (requestedIdx : Nat) : F64 × Nat :=
  if F64.tenth.lt (q.sub st.1) || ((q.sub st.1).abs.le F64.tenth && decide (requestedIdx < st.2))
  then (q, requestedIdx)
  else st

/-- The body of the loop over the comma-separated entries of a header. -/
def considerEntry (encodings : List EncodingInfo) (st : F64 × Nat)
    (requestedEncoding : List Char) : F64 × Nat :=
  let requestedEncoding := trimSpace requestedEncoding
  if requestedEncoding = [] then st
  else
    let parts := split requestedEncoding ';'
    let encpart := trimSpace (parts.headD [])
    match encodingIndex encodings encpart with
    -- we don't support that encoding, try next
    | none => st
    | some requestedIdx => selectEncoding st (qValue parts.tail) requestedIdx

/-- The body of the loop over the header values. -/
def considerHeader (encodings : List EncodingInfo) (st : F64 × Nat) (header : List Char) :
    F64 × Nat :=
  let header := trimSpace header
  if header = [] then st else (split header ',').foldl (considerEntry encodings) st

/-- The starting selection: the first identity encoding, or the last encoding
and an error when there is none. -/
def initialEncoding (encodings : List EncodingInfo) : Nat × Option Err :=
  match encodingIndex encodings "identity".toList with
  | some i => (i, none)
  | none => (encodings.length - 1, some (errorf "identity encoding missing"))

/-- `negiotiateEncoding(acceptHeaders, encodings)`: the selected encoding (Go's
pointer, `none` for nil) and the error. -/
def negiotiateEncoding (acceptHeaders : List (List Char)) (encodings : List EncodingInfo) :
    Option EncodingInfo × Option Err :=
  match encodings with
  | [] => (none, some (errorf "impossible condition, fileInfo contains no encodings"))
  | [e] =>
    -- identity should always be present, but return whatever we got anyway
    (some e, if e.encoding ≠ "identity".toList then some (errorf "identity encoding missing")
      else none)
  | _ =>
    let (maxqIdx, err) := initialEncoding encodings
    let (_, maxqIdx) := acceptHeaders.foldl (considerHeader encodings) (F64.zero, maxqIdx)
    (encodings[maxqIdx]?, err)

/-! ### The entries of a header -/

/-- An entry as the selection reads it: the encoding it names and its weight. -/
def parseEntry (entry : List Char) : Option (List Char × F64) :=
  let entry := trimSpace entry
  if entry = [] then none
  else
    let parts := split entry ';'
    some (trimSpace (parts.headD []), qValue parts.tail)

/-- The entries of a list of header values, in order. -/
def acceptEntries (acceptHeaders : List (List Char)) : List (List Char × F64) :=
  acceptHeaders.flatMap fun header =>
    let header := trimSpace header
    if header = [] then [] else (split header ',').filterMap parseEntry

/-- One entry's effect on the selection. -/
def selectEntry (encodings : List EncodingInfo) (st : F64 × Nat) (entry : List Char × F64) :
    F64 × Nat :=
  match encodingIndex encodings entry.1 with
  | none => st
  | some requestedIdx => selectEncoding st entry.2 requestedIdx

theorem considerEntry_eq (encodings : List EncodingInfo) (st : F64 × Nat) (raw : List Char) :
    considerEntry encodings st raw =
      match parseEntry raw with
      | none => st
      | some entry => selectEntry encodings st entry := by
  simp only [considerEntry, parseEntry]
  split <;> rfl

theorem foldl_considerEntry (encodings : List EncodingInfo) (raws : List (List Char)) :
    ∀ st, raws.foldl (considerEntry encodings) st =
      (raws.filterMap parseEntry).foldl (selectEntry encodings) st := by
  induction raws with
  | nil => intro st; rfl
  | cons raw raws ih =>
    intro st
    rw [List.foldl_cons, considerEntry_eq, List.filterMap_cons]
    cases parseEntry raw with
    | none => exact ih st
    | some entry => exact ih _

/-- The two header loops are one fold over the entries. -/
theorem foldl_considerHeader (encodings : List EncodingInfo) (acceptHeaders : List (List Char))
    (st : F64 × Nat) :
    acceptHeaders.foldl (considerHeader encodings) st =
      (acceptEntries acceptHeaders).foldl (selectEntry encodings) st := by
  induction acceptHeaders generalizing st with
  | nil => rfl
  | cons header headers ih =>
    rw [List.foldl_cons, acceptEntries, List.flatMap_cons, List.foldl_append, ← acceptEntries]
    by_cases h : trimSpace header = []
    · simp only [considerHeader, h, if_true, List.foldl_nil]
      exact ih st
    · simp only [considerHeader, h, if_false]
      rw [foldl_considerEntry, ih]

example : (negiotiateEncoding ["br;q=0.5, gzip;q=0.9".toList]
    [⟨"br".toList, "/a.br".toList, 10⟩, ⟨"gzip".toList, "/a.gz".toList, 12⟩,
      ⟨"identity".toList, "/a".toList, 40⟩]).1 =
    some ⟨"gzip".toList, "/a.gz".toList, 12⟩ := by decide +kernel

example : (negiotiateEncoding ["br;q=0.3, gzip;q=0.4".toList]
    [⟨"br".toList, "/a.br".toList, 10⟩, ⟨"gzip".toList, "/a.gz".toList, 12⟩,
      ⟨"identity".toList, "/a".toList, 40⟩]).1 =
    some ⟨"gzip".toList, "/a.gz".toList, 12⟩ := by decide +kernel

/-! ### What the selection keeps -/

section Selection

variable {encodings : List EncodingInfo}

theorem encodingIndex_spec {name : List Char} {i : Nat}
    (h : encodingIndex encodings name = some i) :
    ∃ e, encodings[i]? = some e ∧ e.encoding = name := by
  obtain ⟨hi, hp, -⟩ := List.findIdx?_eq_some_iff_getElem.mp h
  exact ⟨encodings[i], List.getElem?_eq_getElem hi, by simpa using hp⟩

theorem encodingIndex_eq_none_iff {name : List Char} :
    encodingIndex encodings name = none ↔ ∀ e ∈ encodings, e.encoding ≠ name := by
  simp [encodingIndex]

theorem encodingIndex_isSome_iff {name : List Char} :
    (encodingIndex encodings name).isSome ↔ ∃ e ∈ encodings, e.encoding = name := by
  simp [encodingIndex]

/-- An entry naming no stored encoding leaves the selection alone. -/
theorem selectEntry_of_none {st : F64 × Nat} {entry : List Char × F64}
    (h : encodingIndex encodings entry.1 = none) : selectEntry encodings st entry = st := by
  simp [selectEntry, h]

theorem foldl_selectEntry_of_none {entries : List (List Char × F64)}
    (h : ∀ e ∈ entries, encodingIndex encodings e.1 = none) (st : F64 × Nat) :
    entries.foldl (selectEntry encodings) st = st := by
  induction entries generalizing st with
  | nil => rfl
  | cons e entries ih =>
    rw [List.foldl_cons, selectEntry_of_none (h e List.mem_cons_self)]
    exact ih (fun e' he' => h e' (List.mem_cons_of_mem _ he')) st

/-- After an entry naming a stored encoding, the rule's strong preference
`q-maxq > 0.1` fails between the entry's weight and the selected one. -/
theorem not_prefers_selectEntry (st : F64 × Nat) {entry : List Char × F64} {i : Nat}
    (h : encodingIndex encodings entry.1 = some i) :
    F64.tenth.lt (entry.2.sub (selectEntry encodings st entry).1) = false := by
  simp only [selectEntry, h, selectEncoding]
  split
  · -- selected: a weight minus itself
    exact F64.lt_sub_self F64.zero_le_tenth _
  · rename_i hkeep
    simpa using (Bool.or_eq_false_iff.mp (Bool.eq_false_iff.mpr hkeep)).1

/-- The selection `st` is the start, or was made by one of `entries`: that
entry named the selected encoding and gave it the selected weight. -/
def SelectedBy (encodings : List EncodingInfo) (start : Nat) (entries : List (List Char × F64))
    (st : F64 × Nat) : Prop :=
  st = (F64.zero, start) ∨ ∃ e ∈ entries, encodingIndex encodings e.1 = some st.2 ∧ e.2 = st.1

theorem SelectedBy.mono {start : Nat} {pre entries : List (List Char × F64)} {st : F64 × Nat}
    (h : SelectedBy encodings start pre st) (hsub : pre ⊆ entries) :
    SelectedBy encodings start entries st := by
  rcases h with h | ⟨e, he, hidx, hq⟩
  · exact .inl h
  · exact .inr ⟨e, hsub he, hidx, hq⟩

/-- One entry keeps the selection made by the entries read so far. -/
theorem SelectedBy.selectEntry {start : Nat} {pre : List (List Char × F64)} {st : F64 × Nat}
    (h : SelectedBy encodings start pre st) (entry : List Char × F64) :
    SelectedBy encodings start (pre ++ [entry]) (Xtemplate.selectEntry encodings st entry) := by
  have hsub : pre ⊆ pre ++ [entry] := List.subset_append_left _ _
  unfold Xtemplate.selectEntry
  split
  · exact h.mono hsub
  · rename_i i hidx
    unfold selectEncoding
    split
    · exact .inr ⟨entry, by simp, hidx, rfl⟩
    · exact h.mono hsub

/-- A run of entries keeps the selection made by the entries read so far. -/
theorem SelectedBy.foldl {start : Nat} {pre : List (List Char × F64)} {st : F64 × Nat}
    (h : SelectedBy encodings start pre st) (rest : List (List Char × F64)) :
    SelectedBy encodings start (pre ++ rest) (rest.foldl (Xtemplate.selectEntry encodings) st) := by
  induction rest generalizing pre st with
  | nil => simpa using h
  | cons e rest ih =>
    have h' := ih (h.selectEntry e)
    rwa [List.append_assoc, List.singleton_append] at h'

/-- Every fold from the start is a selection made by its entries. -/
theorem selectedBy_foldl_start (start : Nat) (entries : List (List Char × F64)) :
    SelectedBy encodings start entries (entries.foldl (selectEntry encodings) (F64.zero, start)) := by
  simpa using SelectedBy.foldl (.inl rfl : SelectedBy encodings start [] (F64.zero, start)) entries

/-- What a selection from the identity start returns: identity, untouched, or
an encoding a selecting entry named with the selected weight. -/
theorem SelectedBy.result {start : Nat} {entries : List (List Char × F64)} {st : F64 × Nat}
    (h : SelectedBy encodings start entries st)
    (hstart : encodingIndex encodings "identity".toList = some start) :
    ∃ r, encodings[st.2]? = some r ∧
      ((st = (F64.zero, start) ∧ r.encoding = "identity".toList) ∨
        ∃ e ∈ entries, e.1 = r.encoding ∧ e.2 = st.1) := by
  rcases h with rfl | ⟨e, he, hidx, hq⟩
  · obtain ⟨x, hx, hname⟩ := encodingIndex_spec hstart
    exact ⟨x, hx, .inl ⟨rfl, hname⟩⟩
  · obtain ⟨x, hx, hname⟩ := encodingIndex_spec hidx
    exact ⟨x, hx, .inr ⟨e, he, hname.symm, hq⟩⟩

/-- The selected index never leaves the list. -/
theorem SelectedBy.lt_length {start : Nat} {entries : List (List Char × F64)} {st : F64 × Nat}
    (h : SelectedBy encodings start entries st) (hstart : start < encodings.length) :
    st.2 < encodings.length := by
  rcases h with rfl | ⟨e, -, hidx, -⟩
  · exact hstart
  · obtain ⟨x, hx, -⟩ := encodingIndex_spec hidx
    exact (List.getElem?_eq_some_iff.mp hx).1

/-- An entry that the selected weight is strongly preferred to, or naming no
stored encoding, leaves the selection alone: the entry's difference to it is
the negation of one above 0.1. -/
theorem selectEntry_of_prefers {st : F64 × Nat} {entry : List Char × F64}
    (h : (encodingIndex encodings entry.1).isSome → F64.tenth.lt (st.1.sub entry.2) = true) :
    selectEntry encodings st entry = st := by
  unfold Xtemplate.selectEntry
  split
  · rfl
  · rename_i i hidx
    have hpref := h (by simp [hidx])
    have hnot : F64.tenth.lt (entry.2.sub st.1) = false := by
      rw [F64.sub_swap]
      exact F64.lt_neg_eq_false F64.zero_lt_tenth hpref
    have hfar : (entry.2.sub st.1).abs.le F64.tenth = false := by
      rw [F64.sub_swap, F64.abs_neg]
      exact F64.le_eq_false_of_lt (F64.lt_abs_of_lt F64.zero_le_tenth hpref)
    simp only [selectEncoding, hnot, hfar, Bool.false_and, Bool.or_false, Bool.false_eq_true,
      if_false]

/-- Entries that the selected weight is each strongly preferred to, or naming
no stored encoding, leave the selection alone. -/
theorem foldl_selectEntry_of_prefers {st : F64 × Nat} (entries : List (List Char × F64))
    (h : ∀ e ∈ entries, (encodingIndex encodings e.1).isSome →
      F64.tenth.lt (st.1.sub e.2) = true) :
    entries.foldl (selectEntry encodings) st = st := by
  induction entries with
  | nil => rfl
  | cons e entries ih =>
    rw [List.foldl_cons, selectEntry_of_prefers (h e List.mem_cons_self)]
    exact ih fun e' he' => h e' (List.mem_cons_of_mem _ he')

/-- Entries to which `w` is each strongly preferred keep `w` strongly
preferred to the selected weight. -/
theorem foldl_selectEntry_prefers {w : F64} (entries : List (List Char × F64))
    (h : ∀ e ∈ entries, (encodingIndex encodings e.1).isSome → F64.tenth.lt (w.sub e.2) = true) :
    ∀ st : F64 × Nat, F64.tenth.lt (w.sub st.1) = true →
      F64.tenth.lt (w.sub (entries.foldl (selectEntry encodings) st).1) = true := by
  induction entries with
  | nil => intro st hst; exact hst
  | cons e entries ih =>
    intro st hst
    apply ih (fun e' he' => h e' (List.mem_cons_of_mem _ he'))
    unfold Xtemplate.selectEntry
    split
    · exact hst
    · rename_i i hidx
      unfold selectEncoding
      split
      · exact h e List.mem_cons_self (by simp [hidx])
      · exact hst

end Selection

/-- With two encodings or more, the result is the one the fold over the
entries selects, starting from `initialEncoding`. -/
theorem negiotiateEncoding_eq (acceptHeaders : List (List Char)) {encodings : List EncodingInfo}
    (hlen : 2 ≤ encodings.length) :
    negiotiateEncoding acceptHeaders encodings =
      (encodings[((acceptEntries acceptHeaders).foldl (selectEntry encodings)
          (F64.zero, (initialEncoding encodings).1)).2]?, (initialEncoding encodings).2) := by
  match encodings, hlen with
  | _ :: _ :: _, _ => simp only [negiotiateEncoding, foldl_considerHeader]

theorem initialEncoding_of_identity {encodings : List EncodingInfo} {i : Nat}
    (h : encodingIndex encodings "identity".toList = some i) :
    initialEncoding encodings = (i, none) := by
  rw [initialEncoding, h]

theorem initialEncoding_of_none {encodings : List EncodingInfo}
    (h : encodingIndex encodings "identity".toList = none) :
    initialEncoding encodings = (encodings.length - 1, some (errorf "identity encoding missing")) := by
  rw [initialEncoding, h]

/-- The start is in range, whether or not identity is there. -/
theorem initialEncoding_lt {encodings : List EncodingInfo} (hne : encodings ≠ []) :
    (initialEncoding encodings).1 < encodings.length := by
  cases hidx : encodingIndex encodings "identity".toList with
  | none =>
    rw [initialEncoding_of_none hidx]
    have := List.length_pos_iff.mpr hne
    omega
  | some i =>
    obtain ⟨x, hx, -⟩ := encodingIndex_spec hidx
    rw [initialEncoding_of_identity hidx]
    exact (List.getElem?_eq_some_iff.mp hx).1

/-- The error is set exactly when no encoding is identity. -/
theorem initialEncoding_isSome_iff {encodings : List EncodingInfo} :
    (initialEncoding encodings).2.isSome ↔ ∀ e ∈ encodings, e.encoding ≠ "identity".toList := by
  cases hidx : encodingIndex encodings "identity".toList with
  | none =>
    rw [initialEncoding_of_none hidx]
    simpa using encodingIndex_eq_none_iff.mp hidx
  | some i =>
    obtain ⟨x, hx, hname⟩ := encodingIndex_spec hidx
    rw [initialEncoding_of_identity hidx]
    simp only [Option.isSome_none, Bool.false_eq_true, false_iff, not_forall, not_not]
    exact ⟨x, List.mem_of_getElem? hx, hname⟩

/-! ### What negotiation guarantees -/

/-- Negotiation selects a stored encoding. -/
theorem negiotiateEncoding_mem (acceptHeaders : List (List Char))
    {encodings : List EncodingInfo} (hne : encodings ≠ []) :
    ∃ r ∈ encodings, (negiotiateEncoding acceptHeaders encodings).1 = some r := by
  match encodings, hne with
  | [e], _ => exact ⟨e, List.mem_singleton_self e, rfl⟩
  | e₁ :: e₂ :: rest, _ =>
    have hlen : 2 ≤ (e₁ :: e₂ :: rest).length := by simp
    rw [negiotiateEncoding_eq _ hlen]
    have hlt := SelectedBy.lt_length
      (selectedBy_foldl_start (initialEncoding (e₁ :: e₂ :: rest)).1 (acceptEntries acceptHeaders))
      (initialEncoding_lt (List.cons_ne_nil e₁ (e₂ :: rest)))
    exact ⟨_, List.getElem_mem hlt, List.getElem?_eq_getElem hlt⟩

/-- The error of negotiation is set exactly when no encoding is identity. -/
theorem negiotiateEncoding_error_isSome (acceptHeaders : List (List Char))
    {encodings : List EncodingInfo} (hne : encodings ≠ []) :
    (negiotiateEncoding acceptHeaders encodings).2.isSome ↔
      ∀ e ∈ encodings, e.encoding ≠ "identity".toList := by
  match encodings, hne with
  | [e], _ =>
    by_cases h : e.encoding = "identity".toList
    · simp only [negiotiateEncoding, h, ne_eq, not_true_eq_false, if_false, Option.isSome_none,
        Bool.false_eq_true, List.mem_singleton, forall_eq]
    · simp only [negiotiateEncoding, h, ne_eq, not_false_eq_true, if_true, Option.isSome_some,
        List.mem_singleton, forall_eq]
  | e₁ :: e₂ :: rest, _ =>
    have hlen : 2 ≤ (e₁ :: e₂ :: rest).length := by simp
    rw [negiotiateEncoding_eq _ hlen]
    exact initialEncoding_isSome_iff

/-- Negotiation always returns a stored encoding: never nil, and never an
index out of range; the error is set exactly when no encoding is identity. -/
theorem negiotiateEncoding_total (acceptHeaders : List (List Char))
    {encodings : List EncodingInfo} (hne : encodings ≠ []) :
    ∃ r ∈ encodings, (negiotiateEncoding acceptHeaders encodings).1 = some r ∧
      ((negiotiateEncoding acceptHeaders encodings).2.isSome ↔
        ∀ e ∈ encodings, e.encoding ≠ "identity".toList) := by
  obtain ⟨r, hr, hsel⟩ := negiotiateEncoding_mem acceptHeaders hne
  exact ⟨r, hr, hsel, negiotiateEncoding_error_isSome acceptHeaders hne⟩

/-- A request without `Accept-Encoding` gets the first identity encoding, with
no error, when there is one. -/
theorem negiotiateEncoding_no_accept {encodings : List EncodingInfo}
    (h : ∃ e ∈ encodings, e.encoding = "identity".toList) :
    ∃ e ∈ encodings, e.encoding = "identity".toList ∧
      negiotiateEncoding [] encodings = (some e, none) := by
  match encodings, h with
  | [], ⟨_, hx, _⟩ => exact absurd hx List.not_mem_nil
  | [e], ⟨x, hx, hid⟩ =>
    rw [List.mem_singleton] at hx
    subst hx
    exact ⟨x, List.mem_singleton_self x, hid, by simp [negiotiateEncoding, hid]⟩
  | e₁ :: e₂ :: rest, h =>
    have hlen : 2 ≤ (e₁ :: e₂ :: rest).length := by simp
    obtain ⟨i, hi⟩ := Option.isSome_iff_exists.mp (encodingIndex_isSome_iff.mpr h)
    obtain ⟨x, hx, hid⟩ := encodingIndex_spec hi
    refine ⟨x, List.mem_of_getElem? hx, hid, ?_⟩
    -- no entries: the selection stays at its start, the identity index
    rw [negiotiateEncoding_eq _ hlen, initialEncoding_of_identity hi]
    simp [acceptEntries, hx]

/-- A file stored only gzipped is still served, with the error. -/
theorem negiotiateEncoding_total_gzip_only :
    ∃ r ∈ [(⟨"gzip".toList, "app.js.gz".toList, 300⟩ : EncodingInfo)],
      (negiotiateEncoding ["br".toList] [⟨"gzip".toList, "app.js.gz".toList, 300⟩]).1 = some r ∧
      ((negiotiateEncoding ["br".toList] [⟨"gzip".toList, "app.js.gz".toList, 300⟩]).2.isSome ↔
        ∀ e ∈ [(⟨"gzip".toList, "app.js.gz".toList, 300⟩ : EncodingInfo)],
          e.encoding ≠ "identity".toList) :=
  negiotiateEncoding_total ["br".toList] (List.cons_ne_nil _ _)

/-- The negotiated encoding is identity, or an entry named it (with any
weight, also 0); and the last entry that names a stored encoding is not
strongly preferred, by the rule's `q-maxq > 0.1` in doubles, to the weight
some entry gives the result (0 for identity). -/
theorem negiotiateEncoding_last_entry {acceptHeaders : List (List Char)}
    {encodings : List EncodingInfo} (hlen : 2 ≤ encodings.length)
    (hid : ∃ e ∈ encodings, e.encoding = "identity".toList) :
    ∃ r, negiotiateEncoding acceptHeaders encodings = (some r, none) ∧ r ∈ encodings ∧
      (r.encoding = "identity".toList ∨ ∃ e ∈ acceptEntries acceptHeaders, e.1 = r.encoding) ∧
      ∀ pre e post, acceptEntries acceptHeaders = pre ++ e :: post →
        (∃ x ∈ encodings, x.encoding = e.1) →
        (∀ e' ∈ post, ∀ x ∈ encodings, x.encoding ≠ e'.1) →
        (r.encoding = "identity".toList ∧ F64.tenth.lt (e.2.sub F64.zero) = false) ∨
          ∃ e' ∈ acceptEntries acceptHeaders, e'.1 = r.encoding ∧
            F64.tenth.lt (e.2.sub e'.2) = false := by
  obtain ⟨start, hstart⟩ := Option.isSome_iff_exists.mp (encodingIndex_isSome_iff.mpr hid)
  obtain ⟨r, hr, hwhy⟩ := (selectedBy_foldl_start start (acceptEntries acceptHeaders)).result hstart
  refine ⟨r, ?_, List.mem_of_getElem? hr, ?_, ?_⟩
  · rw [negiotiateEncoding_eq _ hlen, initialEncoding_of_identity hstart, hr]
  · rcases hwhy with ⟨-, h⟩ | ⟨e, he, hname, -⟩
    · exact .inl h
    · exact .inr ⟨e, he, hname⟩
  · intro pre e post hsplit hsupp hpost
    obtain ⟨i, hi⟩ := Option.isSome_iff_exists.mp (encodingIndex_isSome_iff.mpr hsupp)
    have hpostNone : ∀ e' ∈ post, encodingIndex encodings e'.1 = none :=
      fun e' he' => encodingIndex_eq_none_iff.mpr (hpost e' he')
    -- the entries after the last supported one leave its selection as it is
    have hfinal : (acceptEntries acceptHeaders).foldl (selectEntry encodings) (F64.zero, start) =
        selectEntry encodings (pre.foldl (selectEntry encodings) (F64.zero, start)) e := by
      rw [hsplit, List.foldl_append, List.foldl_cons, foldl_selectEntry_of_none hpostNone]
    have hweight := not_prefers_selectEntry (pre.foldl (selectEntry encodings) (F64.zero, start)) hi
    have hsub : pre ++ [e] ⊆ acceptEntries acceptHeaders := by
      rw [hsplit]
      exact List.append_subset.mpr ⟨List.subset_append_left _ _, by simp⟩
    obtain ⟨r', hr', hwhy'⟩ := (((selectedBy_foldl_start start pre).selectEntry e).mono hsub).result hstart
    rw [hfinal, hr', Option.some.injEq] at hr
    subst hr
    rcases hwhy' with ⟨hmid0, hname⟩ | ⟨e', he', hname, hq⟩
    · refine .inl ⟨hname, ?_⟩
      rwa [hmid0] at hweight
    · exact .inr ⟨e', he', hname, hq ▸ hweight⟩

/-- At a `q=0` entry for an encoding listed before identity, and at three
near ties in a row. The first serves gzip, which the only entry refuses. The
second walks the selection down from identity at 0.3 to br at 0.1, each step
within 0.1 of the one before. -/
theorem negiotiateEncoding_refused_and_drift :
    acceptEntries ["gzip;q=0".toList] = [("gzip".toList, F64.zero)] ∧
    (negiotiateEncoding ["gzip;q=0".toList]
      [⟨"gzip".toList, "app.js.gz".toList, 300⟩, ⟨"identity".toList, "app.js".toList, 1000⟩]).1 =
        some ⟨"gzip".toList, "app.js.gz".toList, 300⟩ ∧
    acceptEntries ["identity;q=0.3, gzip;q=0.2, br;q=0.1".toList] =
      [("identity".toList, F64.round (3 / 10)), ("gzip".toList, F64.round (2 / 10)),
        ("br".toList, F64.round (1 / 10))] ∧
    (negiotiateEncoding ["identity;q=0.3, gzip;q=0.2, br;q=0.1".toList]
      [⟨"br".toList, "app.js.br".toList, 250⟩, ⟨"gzip".toList, "app.js.gz".toList, 300⟩,
        ⟨"identity".toList, "app.js".toList, 1000⟩]).1 =
        some ⟨"br".toList, "app.js.br".toList, 250⟩ := by
  refine ⟨?_, ?_, ?_, ?_⟩ <;> decide +kernel

/-- The guarantee at the walk of `negiotiateEncoding_refused_and_drift`: br is
served, named by the last entry. -/
theorem negiotiateEncoding_last_entry_drift :
    ∃ r, negiotiateEncoding ["identity;q=0.3, gzip;q=0.2, br;q=0.1".toList]
        [⟨"br".toList, "app.js.br".toList, 250⟩, ⟨"gzip".toList, "app.js.gz".toList, 300⟩,
          ⟨"identity".toList, "app.js".toList, 1000⟩] = (some r, none) ∧
      (r.encoding = "identity".toList ∨
        ∃ e ∈ acceptEntries ["identity;q=0.3, gzip;q=0.2, br;q=0.1".toList], e.1 = r.encoding) := by
  obtain ⟨r, hr, -, hnamed, -⟩ := @negiotiateEncoding_last_entry
    ["identity;q=0.3, gzip;q=0.2, br;q=0.1".toList]
    [⟨"br".toList, "app.js.br".toList, 250⟩, ⟨"gzip".toList, "app.js.gz".toList, 300⟩,
      ⟨"identity".toList, "app.js".toList, 1000⟩] (by decide)
    ⟨⟨"identity".toList, "app.js".toList, 1000⟩, by simp, rfl⟩
  exact ⟨r, hr, hnamed⟩

/-- A clear preference wins: an entry that names a stored encoding, and that
the rule strongly prefers (`q-maxq > 0.1` in doubles) to the start's 0 and
to every other entry naming a stored encoding, selects that encoding,
wherever it stands in the header. -/
theorem negiotiateEncoding_dominant {acceptHeaders : List (List Char)}
    {encodings : List EncodingInfo} (hlen : 2 ≤ encodings.length)
    (hid : ∃ e ∈ encodings, e.encoding = "identity".toList)
    {pre post : List (List Char × F64)} {e : List Char × F64}
    (hsplit : acceptEntries acceptHeaders = pre ++ e :: post)
    (hsupp : ∃ x ∈ encodings, x.encoding = e.1) (hpos : F64.tenth.lt (e.2.sub F64.zero) = true)
    (hothers : ∀ e' ∈ pre ++ post, (∃ x ∈ encodings, x.encoding = e'.1) →
      F64.tenth.lt (e.2.sub e'.2) = true) :
    ∃ r, negiotiateEncoding acceptHeaders encodings = (some r, none) ∧ r.encoding = e.1 := by
  obtain ⟨start, hstart⟩ := Option.isSome_iff_exists.mp (encodingIndex_isSome_iff.mpr hid)
  obtain ⟨i, hi⟩ := Option.isSome_iff_exists.mp (encodingIndex_isSome_iff.mpr hsupp)
  obtain ⟨r, hr, hname⟩ := encodingIndex_spec hi
  have hsupp' : ∀ e' ∈ pre ++ post, (encodingIndex encodings e'.1).isSome →
      F64.tenth.lt (e.2.sub e'.2) = true :=
    fun e' he' h => hothers e' he' (encodingIndex_isSome_iff.mp h)
  -- before the entry, it stays strongly preferred to the selected weight
  have hbefore := foldl_selectEntry_prefers pre (fun e' he' => hsupp' e' (by simp [he']))
    (F64.zero, start) hpos
  -- so the entry is selected
  have hat : selectEntry encodings (pre.foldl (selectEntry encodings) (F64.zero, start)) e =
      (e.2, i) := by
    simp only [selectEntry, hi, selectEncoding, hbefore, Bool.true_or, if_true]
  -- and it is strongly preferred to every entry after it
  have hafter : post.foldl (selectEntry encodings) (e.2, i) = (e.2, i) :=
    foldl_selectEntry_of_prefers post fun e' he' h => hsupp' e' (by simp [he']) h
  refine ⟨r, ?_, hname⟩
  rw [negiotiateEncoding_eq _ hlen, initialEncoding_of_identity hstart, hsplit, List.foldl_append,
    List.foldl_cons, hat, hafter]
  exact congrArg (·, none) hr

/-- A client who strongly prefers gzip gets gzip, though identity is listed
later with a near weight and br earlier with a low one. -/
theorem negiotiateEncoding_dominant_gzip :
    ∃ r, negiotiateEncoding ["br;q=0.1, gzip, identity;q=0.85".toList]
        [⟨"br".toList, "app.js.br".toList, 250⟩, ⟨"gzip".toList, "app.js.gz".toList, 300⟩,
          ⟨"identity".toList, "app.js".toList, 1000⟩] = (some r, none) ∧
      r.encoding = "gzip".toList :=
  @negiotiateEncoding_dominant ["br;q=0.1, gzip, identity;q=0.85".toList]
    [⟨"br".toList, "app.js.br".toList, 250⟩, ⟨"gzip".toList, "app.js.gz".toList, 300⟩,
      ⟨"identity".toList, "app.js".toList, 1000⟩] (by decide)
    ⟨⟨"identity".toList, "app.js".toList, 1000⟩, by simp, rfl⟩
    [("br".toList, F64.round (1 / 10))] [("identity".toList, F64.round (85 / 100))]
    ("gzip".toList, F64.one)
    (by decide +kernel) ⟨⟨"gzip".toList, "app.js.gz".toList, 300⟩, by simp, rfl⟩
    (by decide +kernel) (by decide +kernel)

/-! ### Order independence

The rule is a tolerance, not an order: a near tie is decided by the stored
order of the encodings, so the result can depend on the order of the
entries (`negiotiateEncoding_order_dependent`). It does not when no two
competing weights, the start's 0 among them, are near ties: then each step
keeps the greater of the selection and the entry, by weight and then by the
lower index, and a fold of a maximum is the same in every order. -/

section MaxBy

variable {α β : Type} [LinearOrder β] (rank : α → β)

/-- The greater of two by a rank, the first on a tie. -/
def maxBy (a b : α) : α := if rank a < rank b then b else a

theorem rank_maxBy (a b : α) : rank (maxBy rank a b) = max (rank a) (rank b) := by
  unfold maxBy
  split
  · rename_i h
    exact (max_eq_right h.le).symm
  · rename_i h
    exact (max_eq_left (not_lt.mp h)).symm

theorem rank_foldl_maxBy (l : List α) (a : α) :
    rank (l.foldl (maxBy rank) a) = (l.map rank).foldl max (rank a) := by
  induction l generalizing a with
  | nil => rfl
  | cons b l ih => simp only [List.foldl_cons, List.map_cons, ih, rank_maxBy]

/-- With an injective rank, a fold of `maxBy` is the same in every order. -/
theorem foldl_maxBy_perm (hinj : Function.Injective rank) {l₁ l₂ : List α} (hp : l₁.Perm l₂)
    (a : α) : l₁.foldl (maxBy rank) a = l₂.foldl (maxBy rank) a := by
  apply hinj
  rw [rank_foldl_maxBy rank, rank_foldl_maxBy rank]
  exact (hp.map rank).foldl_eq' (fun x _ y _ z => max_right_comm z x y) (rank a)

end MaxBy

/-- A selection's rank: its weight in the order of the comparisons, then the
lower index. -/
def selectionRank (st : F64 × Nat) : Lex (Lex (ℕ × ℚ) × Natᵒᵈ) :=
  toLex (st.1.key, OrderDual.toDual st.2)

theorem selectionRank_injective : Function.Injective selectionRank := by
  intro a b h
  have h' : a.1.key = b.1.key ∧ a.2 = b.2 := by simpa [selectionRank, Prod.ext_iff] using h
  exact Prod.ext (F64.key_injective h'.1) h'.2

theorem selectionRank_lt {a b : F64 × Nat} :
    selectionRank a < selectionRank b ↔ a.1.key < b.1.key ∨ (a.1.key = b.1.key ∧ b.2 < a.2) := by
  simp [selectionRank, Prod.Lex.toLex_lt_toLex]

/-- Weights without near ties: each two are the same finite double, or the
rule's `math.Abs` of their difference is above 0.1. -/
def Separated (ws : List F64) : Prop :=
  ∀ a ∈ ws, ∀ b ∈ ws, (a = b ∧ a.isFinite = true) ∨ F64.tenth.lt (a.sub b).abs = true

instance (ws : List F64) : Decidable (Separated ws) := inferInstanceAs (Decidable (∀ a ∈ ws, _))

/-- The weights that compete: the start's 0 and those of the entries that
name a stored encoding. -/
def competingWeights (encodings : List EncodingInfo) (entries : List (List Char × F64)) :
    List F64 :=
  F64.zero :: (entries.filter fun e => (encodingIndex encodings e.1).isSome).map (·.2)

/-- What an entry competes with: its weight and the index of its encoding. -/
def candidate (encodings : List EncodingInfo) (e : List Char × F64) : Option (F64 × Nat) :=
  (encodingIndex encodings e.1).map (e.2, ·)

/-- Without a near tie the rule keeps the greater of the selection and the
entry. -/
theorem selectEncoding_of_separated {st : F64 × Nat} {q : F64} (i : Nat)
    (hsep : (q = st.1 ∧ q.isFinite = true) ∨ F64.tenth.lt (q.sub st.1).abs = true) :
    selectEncoding st q i = maxBy selectionRank st (q, i) := by
  unfold selectEncoding maxBy
  simp only [selectionRank_lt]
  rcases hsep with ⟨hq, hfin⟩ | hfar
  · -- a tie: the difference is zero, and only a lower index wins
    obtain ⟨w, j⟩ := st
    simp only at hq ⊢
    subst hq
    cases q with
    | finite r hr =>
      have hzero : F64.tenth.lt F64.zero = false := F64.lt_asymm F64.zero_lt_tenth
      have hnear : F64.zero.abs.le F64.tenth = true := by decide +kernel
      rw [F64.sub_self_finite]
      by_cases hi : i < j <;> simp [hi, hzero, hnear]
    | inf n | nan => cases hfin
  · rcases F64.lt_or_lt_neg_of_lt_abs F64.zero_le_tenth hfar with hgt | hbelow
    · -- well above: the entry wins, and its weight is the greater
      have hlt := F64.key_lt_of_zero_lt_sub (F64.lt_trans F64.zero_lt_tenth hgt)
      rw [if_pos (by simp [hgt]), if_pos (.inl hlt)]
    · -- well below: the selection stays, and its weight is the greater
      have hneg : (q.sub st.1).lt F64.zero = true :=
        F64.lt_trans hbelow (by rw [F64.neg_lt_zero]; exact F64.zero_lt_tenth)
      have hlt := F64.key_lt_of_sub_lt_zero hneg
      have hnot : F64.tenth.lt (q.sub st.1) = false :=
        F64.lt_asymm (F64.lt_trans hneg F64.zero_lt_tenth)
      have hnlt : ¬ (st.1.key < q.key ∨ (st.1.key = q.key ∧ i < st.2)) := by
        rintro (h | ⟨h, -⟩)
        · exact absurd (h.trans hlt) (lt_irrefl _)
        · exact absurd (h ▸ hlt) (lt_irrefl _)
      rw [if_neg (by simp [hnot, F64.le_eq_false_of_lt hfar]), if_neg hnlt]

/-- Over weights without near ties the selection is a fold of `maxBy` over
the candidates. -/
theorem foldl_selectEntry_of_separated {encodings : List EncodingInfo} {ws : List F64}
    (hsep : Separated ws) :
    ∀ (entries : List (List Char × F64)) (st : F64 × Nat), st.1 ∈ ws →
      (∀ e ∈ entries, (encodingIndex encodings e.1).isSome → e.2 ∈ ws) →
      entries.foldl (selectEntry encodings) st =
        (entries.filterMap (candidate encodings)).foldl (maxBy selectionRank) st
  | [], _, _, _ => rfl
  | e :: entries, st, hst, hws => by
    have hrest : ∀ e' ∈ entries, (encodingIndex encodings e'.1).isSome → e'.2 ∈ ws :=
      fun e' he' => hws e' (List.mem_cons_of_mem _ he')
    rw [List.foldl_cons, List.filterMap_cons]
    cases hidx : encodingIndex encodings e.1 with
    | none =>
      simp only [selectEntry, hidx, candidate, Option.map_none]
      exact foldl_selectEntry_of_separated hsep entries st hst hrest
    | some i =>
      have he : e.2 ∈ ws := hws e List.mem_cons_self (by simp [hidx])
      have hstep : selectEntry encodings st e = maxBy selectionRank st (e.2, i) := by
        simp only [selectEntry, hidx]
        exact selectEncoding_of_separated i (hsep e.2 he st.1 hst)
      have hst' : (maxBy selectionRank st (e.2, i)).1 ∈ ws := by
        unfold maxBy
        split
        · exact he
        · exact hst
      simp only [candidate, hidx, Option.map_some, hstep]
      exact foldl_selectEntry_of_separated hsep entries _ hst' hrest

/-- The result reads the headers only through the selection their entries
make. -/
theorem negiotiateEncoding_congr {encodings : List EncodingInfo}
    {acceptHeaders₁ acceptHeaders₂ : List (List Char)}
    (h : (acceptEntries acceptHeaders₁).foldl (selectEntry encodings)
        (F64.zero, (initialEncoding encodings).1) =
      (acceptEntries acceptHeaders₂).foldl (selectEntry encodings)
        (F64.zero, (initialEncoding encodings).1)) :
    negiotiateEncoding acceptHeaders₁ encodings = negiotiateEncoding acceptHeaders₂ encodings := by
  match encodings, h with
  | [], _ => rfl
  | [_], _ => rfl
  | _ :: _ :: _, h => rw [negiotiateEncoding_eq _ (by simp), negiotiateEncoding_eq _ (by simp), h]

end Xtemplate
