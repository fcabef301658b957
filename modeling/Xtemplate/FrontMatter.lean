import Xtemplate.Basic
import Xtemplate.Go.Strings

/-!
Front matter (`frontmatter.go`): `extractFrontMatter` splits a document into
the key-value block at its top and the body after it.

The three decoders it ends in (`yaml.Unmarshal`, `toml.Unmarshal` and
`json.Unmarshal`) are third-party or large library code and are parameters,
gathered in `Unmarshalers`; the fence detection, the closing-fence search and
every offset computation are modelled as the source computes them.
-/

namespace Xtemplate

open Go

variable {Meta : Type}

/-- The decoders the front-matter parsers call, each into a fresh map: the
map and the error they return. -/
structure Unmarshalers (Meta : Type) where
  yaml : List Char → Meta × Option Err
  toml : List Char → Meta × Option Err
  json : List Char → Meta × Option Err

/-- `yamlFrontMatter`. -/
def yamlFrontMatter (u : Unmarshalers Meta) (input : List Char) : Meta × Option Err :=
  u.yaml input

/-- `tomlFrontMatter`. -/
def tomlFrontMatter (u : Unmarshalers Meta) (input : List Char) : Meta × Option Err :=
  u.toml input

/-- `jsonFrontMatter`: the block is decoded as the members of one object. -/
def jsonFrontMatter (u : Unmarshalers Meta) (input : List Char) : Meta × Option Err :=
  u.json ('{' :: input ++ ['}'])

/-- `frontMatterType`. -/
structure FrontMatterType (Meta : Type) where
  fenceOpen : List Char
  fenceClose : List (List Char)
  parseFunc : List Char → Meta × Option Err

/-- `supportedFrontMatterTypes`, in the source's order. -/
def supportedFrontMatterTypes (u : Unmarshalers Meta) : List (FrontMatterType Meta) :=
  [⟨"---".toList, ["---".toList, "...".toList], yamlFrontMatter u⟩,
   ⟨"+++".toList, ["+++".toList], tomlFrontMatter u⟩,
   ⟨['{'], [['}']], jsonFrontMatter u⟩]

/-- The first loop of `extractFrontMatter`, over the runes from offset `i`:
`start` and `stop` are `firstLineStart` and `firstLineEnd`, and `lineEmpty`
says whether every rune seen so far, newlines aside, is white space. The loop
stops at the first newline after a rune that is not white space. -/
def scanFirstLine : List Char → Nat → Nat → Nat → Bool → Nat × Nat
  | [], _, start, stop, _ => (start, stop)
  | b :: rest, i, start, stop, lineEmpty =>
    if b = '\n' then
      -- `firstLineStart` skips the previous newline only when it is not at offset 0
      let start := if stop > 0 then stop + 1 else stop
      if !lineEmpty then (start, i) else scanFirstLine rest (i + 1) start i lineEmpty
    else scanFirstLine rest (i + 1) start stop (lineEmpty && isSpace b)

/-- The second loop: every type whose opening fence is the first line is
taken, so the last one listed wins. -/
def detectFrontMatterType (types : List (FrontMatterType Meta)) (firstLine : List Char) :
    Option (FrontMatterType Meta) :=
  types.foldl (fun found ty => if firstLine = ty.fenceOpen then some ty else found) none

/-- The third loop: the closing fences in list order, the first one that
occurs after a newline winning, with the offset of that newline. -/
def findClosingFence (rest : List Char) : List (List Char) → Option (Nat × List Char)
  | [] => none
  | fence :: fences =>
    match index rest ('\n' :: fence) with
    | some i => some (i, fence)
    | none => findClosingFence rest fences

/-- `extractFrontMatter`: the decoded front matter (`none` for a nil map) and
the body, or an error. -/
def extractFrontMatter (u : Unmarshalers Meta) (input : List Char) :
    Except Err (Option Meta × List Char) :=
  let (firstLineStart, firstLineEnd) := scanFirstLine input 0 0 0 true
  -- `strings.TrimSpace` removes a Windows carriage return, and any other space
  let firstLine := trimSpace ((input.take firstLineEnd).drop firstLineStart)
  match detectFrontMatterType (supportedFrontMatterTypes u) firstLine with
  | none => .ok (none, input)
  | some ty =>
    match findClosingFence (input.drop firstLineEnd) ty.fenceClose with
    | none => .error (errorf "unterminated front matter")
    | some (index, fmEndFence) =>
      let fmEndFenceStart := index + firstLineEnd + 1
      let frontMatter := (input.take fmEndFenceStart).drop firstLineEnd
      match ty.parseFunc frontMatter with
      | (_, some err) => .error err
      | (fm, none) => .ok (some fm, input.drop (fmEndFenceStart + fmEndFence.length))

/-! ### Fences -/

theorem detectFrontMatterType_foldl_eq_none_iff (types : List (FrontMatterType Meta))
    (x : List Char) (found : Option (FrontMatterType Meta)) :
    types.foldl (fun found ty => if x = ty.fenceOpen then some ty else found) found = none ↔
      found = none ∧ ∀ ty ∈ types, x ≠ ty.fenceOpen := by
  induction types generalizing found with
  | nil => simp
  | cons ty types ih =>
    rw [List.foldl_cons, ih]
    by_cases h : x = ty.fenceOpen <;> simp [h]

/-- No type is detected exactly when the line is no type's opening fence. -/
theorem detectFrontMatterType_eq_none_iff {types : List (FrontMatterType Meta)}
    {x : List Char} :
    detectFrontMatterType types x = none ↔ ∀ ty ∈ types, x ≠ ty.fenceOpen := by
  simp [detectFrontMatterType, detectFrontMatterType_foldl_eq_none_iff]

/-- Each supported type is detected from its own opening fence: the three
opening fences differ. -/
theorem detectFrontMatterType_supported (u : Unmarshalers Meta) {ty : FrontMatterType Meta}
    (hty : ty ∈ supportedFrontMatterTypes u) :
    detectFrontMatterType (supportedFrontMatterTypes u) ty.fenceOpen = some ty := by
  simp only [supportedFrontMatterTypes, List.mem_cons, List.not_mem_nil, or_false] at hty
  rcases hty with rfl | rfl | rfl <;>
    simp [detectFrontMatterType, supportedFrontMatterTypes]

/-- An opening fence is one line, holds a rune that is not white space, and
is unchanged by trimming. -/
theorem fenceOpen_supported (u : Unmarshalers Meta) {ty : FrontMatterType Meta}
    (hty : ty ∈ supportedFrontMatterTypes u) :
    '\n' ∉ ty.fenceOpen ∧ (∃ c ∈ ty.fenceOpen, isSpace c = false) ∧
      trimSpace ty.fenceOpen = ty.fenceOpen := by
  simp only [supportedFrontMatterTypes, List.mem_cons, List.not_mem_nil, or_false] at hty
  -- each opening fence starts with a rune that is not white space
  rcases hty with rfl | rfl | rfl <;> dsimp only <;>
    exact ⟨by decide, ⟨_, List.mem_cons_self, rfl⟩, by decide⟩

/-- No closing fence holds a newline. -/
theorem fenceClose_supported (u : Unmarshalers Meta) {ty : FrontMatterType Meta}
    (hty : ty ∈ supportedFrontMatterTypes u) : ∀ C ∈ ty.fenceClose, '\n' ∉ C := by
  simp only [supportedFrontMatterTypes, List.mem_cons, List.not_mem_nil, or_false] at hty
  rcases hty with rfl | rfl | rfl <;> dsimp only <;> decide

/-- The fence search returns the first fence of the list that occurs, at its
first occurrence. -/
theorem findClosingFence_eq {s C : List Char} {pre post : List (List Char)} {i : Nat}
    (hpre : ∀ C' ∈ pre, index s ('\n' :: C') = none) (hC : index s ('\n' :: C) = some i) :
    findClosingFence s (pre ++ C :: post) = some (i, C) := by
  induction pre with
  | nil => simp [findClosingFence, hC]
  | cons C' pre ih =>
    have h' : index s ('\n' :: C') = none := hpre C' List.mem_cons_self
    simp only [List.cons_append, findClosingFence, h']
    exact ih fun C'' hC'' => hpre C'' (List.mem_cons_of_mem _ hC'')

/-! ### The first-line scan -/

/-- Over a run of white space the scan goes on, and `firstLineEnd` is left
at a newline inside the run, or where it was. -/
theorem scanFirstLine_spaces {w : List Char} (rest : List Char) (i start stop : Nat)
    (hw : ∀ c ∈ w, isSpace c = true) :
    ∃ start' stop', (stop' = stop ∨ (i ≤ stop' ∧ stop' < i + w.length)) ∧
      scanFirstLine (w ++ rest) i start stop true =
        scanFirstLine rest (i + w.length) start' stop' true := by
  induction w generalizing i start stop with
  | nil => exact ⟨start, stop, .inl rfl, rfl⟩
  | cons b w ih =>
    have hb : isSpace b = true := hw b List.mem_cons_self
    have hw' : ∀ c ∈ w, isSpace c = true := fun c hc => hw c (List.mem_cons_of_mem _ hc)
    by_cases hnl : b = '\n'
    · -- a newline inside the run moves `firstLineEnd` to it
      obtain ⟨s', e', he, heq⟩ := ih (i + 1) (if stop > 0 then stop + 1 else stop) i hw'
      refine ⟨s', e', .inr ?_, ?_⟩
      · simp only [List.length_cons]; omega
      · simp only [List.cons_append, scanFirstLine, hnl, if_true, Bool.not_true,
          Bool.false_eq_true, if_false, heq, List.length_cons]
        congr 1; omega
    · obtain ⟨s', e', he, heq⟩ := ih (i + 1) start stop hw'
      refine ⟨s', e', ?_, ?_⟩
      · simp only [List.length_cons]; omega
      · simp only [List.cons_append, scanFirstLine, hnl, if_false, Bool.true_and, hb, heq,
          List.length_cons]
        congr 1; omega

/-- A line that holds a rune that is not white space ends the scan at its
newline. -/
theorem scanFirstLine_line {l : List Char} (rest : List Char) (i start stop : Nat)
    (lineEmpty : Bool) (hnl : '\n' ∉ l)
    (hne : lineEmpty = false ∨ ∃ c ∈ l, isSpace c = false) :
    scanFirstLine (l ++ '\n' :: rest) i start stop lineEmpty =
      (if stop > 0 then stop + 1 else stop, i + l.length) := by
  induction l generalizing i lineEmpty with
  | nil =>
    have hfalse : lineEmpty = false := by simpa using hne
    simp [scanFirstLine, hfalse]
  | cons b l ih =>
    have hb : b ≠ '\n' := fun e => hnl (e ▸ List.mem_cons_self)
    have hl : '\n' ∉ l := fun h => hnl (List.mem_cons_of_mem _ h)
    have hne' : (lineEmpty && isSpace b) = false ∨ ∃ c ∈ l, isSpace c = false := by
      rcases hne with h | ⟨c, hc, hsp⟩
      · exact .inl (by simp [h])
      · rcases List.mem_cons.mp hc with rfl | hc
        · exact .inl (by simp [hsp])
        · exact .inr ⟨c, hc, hsp⟩
    simp only [List.cons_append, scanFirstLine, hb, if_false, ih (i + 1) _ hl hne',
      List.length_cons]
    congr 1; omega

/-- Without a newline the scan leaves both bounds where they were. -/
theorem scanFirstLine_no_newline {l : List Char} (i start stop : Nat) (lineEmpty : Bool)
    (hnl : '\n' ∉ l) : scanFirstLine l i start stop lineEmpty = (start, stop) := by
  induction l generalizing i lineEmpty with
  | nil => rfl
  | cons b l ih =>
    have hb : b ≠ '\n' := fun e => hnl (e ▸ List.mem_cons_self)
    simp only [scanFirstLine, hb, if_false]
    exact ih _ _ fun h => hnl (List.mem_cons_of_mem _ h)

/-- The scan over white space and then a first line ends at that line's
newline, and `firstLineStart` lies inside the white space. -/
theorem scanFirstLine_spaces_line {w l : List Char} (rest : List Char)
    (hw : ∀ c ∈ w, isSpace c = true) (hnl : '\n' ∉ l) (hne : ∃ c ∈ l, isSpace c = false) :
    ∃ start ≤ w.length,
      scanFirstLine (w ++ l ++ '\n' :: rest) 0 0 0 true = (start, w.length + l.length) := by
  obtain ⟨s', e', he, heq⟩ := scanFirstLine_spaces (l ++ '\n' :: rest) 0 0 0 hw
  refine ⟨if e' > 0 then e' + 1 else e', ?_, ?_⟩
  · split <;> omega
  · rw [List.append_assoc, heq, scanFirstLine_line rest _ _ _ _ hnl (.inr hne)]
    simp

/-! ### The shape of the result -/

/-- **Reduction to the first line.** Once the first line that is not white
space is found, the result depends only on that line, trimmed, and on what
follows its newline: the front matter runs from that newline to the newline
before the closing fence, and the body starts after the fence. -/
theorem extractFrontMatter_of_firstLine (u : Unmarshalers Meta) {w l : List Char}
    (rest : List Char) (hw : ∀ c ∈ w, isSpace c = true) (hnl : '\n' ∉ l)
    (hne : ∃ c ∈ l, isSpace c = false) :
    extractFrontMatter u (w ++ l ++ '\n' :: rest) =
      match detectFrontMatterType (supportedFrontMatterTypes u) (trimSpace l) with
      | none => .ok (none, w ++ l ++ '\n' :: rest)
      | some ty =>
        match findClosingFence ('\n' :: rest) ty.fenceClose with
        | none => .error (errorf "unterminated front matter")
        | some (index, fmEndFence) =>
          match ty.parseFunc (('\n' :: rest).take (index + 1)) with
          | (_, some err) => .error err
          | (fm, none) => .ok (some fm, ('\n' :: rest).drop (index + 1 + fmEndFence.length)) := by
  obtain ⟨start, hstart, hscan⟩ := scanFirstLine_spaces_line rest hw hnl hne
  have hsplit : w ++ l ++ '\n' :: rest = (w ++ l) ++ ('\n' :: rest) := by simp
  have hlen : (w ++ l).length = w.length + l.length := List.length_append
  have hfirst : trimSpace (((w ++ l ++ '\n' :: rest).take (w.length + l.length)).drop start) =
      trimSpace l := by
    rw [hsplit, ← hlen, List.take_left, List.drop_append_of_le_length hstart]
    exact trimSpace_spaces_append l fun c hc => hw c (List.mem_of_mem_drop hc)
  have hdrop : (w ++ l ++ '\n' :: rest).drop (w.length + l.length) = '\n' :: rest := by
    rw [hsplit, ← hlen, List.drop_left]
  have htake : ∀ n, ((w ++ l ++ '\n' :: rest).take (n + (w.length + l.length) + 1)).drop
      (w.length + l.length) = ('\n' :: rest).take (n + 1) := by
    intro n
    rw [hsplit, ← hlen, show n + (w ++ l).length + 1 = (w ++ l).length + (n + 1) by omega,
      List.take_length_add_append, List.drop_left]
  have hbody : ∀ n k, (w ++ l ++ '\n' :: rest).drop (n + (w.length + l.length) + 1 + k) =
      ('\n' :: rest).drop (n + 1 + k) := by
    intro n k
    rw [hsplit, ← hlen, show n + (w ++ l).length + 1 + k = (w ++ l).length + (n + 1 + k) by omega,
      List.drop_length_add_append]
  simp only [extractFrontMatter, hscan, hfirst, hdrop, htake, hbody]

/-- The closing fence of a block in which that fence never follows a newline
is found at the newline that ends the block. -/
theorem index_closing_fence {t C b : List Char} (hC : '\n' ∉ C)
    (ht : ¬ ('\n' :: C) <:+: ('\n' :: t)) :
    index ('\n' :: (t ++ '\n' :: (C ++ b))) ('\n' :: C) = some (t.length + 1) := by
  rw [show '\n' :: (t ++ '\n' :: (C ++ b)) = ('\n' :: t) ++ ('\n' :: (C ++ b)) by simp,
    index_append_of_forall_not_prefix fun k hk => not_prefix_drop_append_sep hC ht hk]
  simp [index, List.isPrefixOf_iff_prefix]

/-- A fence that follows a newline neither in the block nor after it is not
found at all. -/
theorem index_fence_absent {t C' rest : List Char} (hC' : '\n' ∉ C')
    (ht : ¬ ('\n' :: C') <:+: ('\n' :: t)) (hrest : ¬ ('\n' :: C') <:+: ('\n' :: rest)) :
    index ('\n' :: (t ++ '\n' :: rest)) ('\n' :: C') = none := by
  rw [show '\n' :: (t ++ '\n' :: rest) = ('\n' :: t) ++ ('\n' :: rest) by simp,
    index_append_of_forall_not_prefix fun k hk => not_prefix_drop_append_sep hC' ht hk,
    index_eq_none_iff.mpr hrest]
  rfl

/-- **Front matter closed by a fence of its type.** Take a supported type, one
of its closing fences `C`, white space `w`, a block `t` after which none of the
type's closing fences follows a newline, and a body `b` in which no fence listed
before `C` follows a newline (for the first fence of a type there is none).
Then the type's parser gets exactly the newline-delimited block, and the body
is `b`. -/
theorem extractFrontMatter_fenced (u : Unmarshalers Meta) {ty : FrontMatterType Meta}
    (hty : ty ∈ supportedFrontMatterTypes u) {pre post : List (List Char)} {C : List Char}
    (hC : ty.fenceClose = pre ++ C :: post) {w t b : List Char}
    (hw : ∀ c ∈ w, isSpace c = true)
    (ht : ∀ C' ∈ ty.fenceClose, ¬ ('\n' :: C') <:+: ('\n' :: t))
    (hb : ∀ C' ∈ pre, ¬ ('\n' :: C') <:+: ('\n' :: C ++ b)) :
    extractFrontMatter u (w ++ ty.fenceOpen ++ '\n' :: t ++ '\n' :: C ++ b) =
      match ty.parseFunc ('\n' :: t ++ ['\n']) with
      | (_, some err) => .error err
      | (fm, none) => .ok (some fm, b) := by
  obtain ⟨hnl, hne, htrim⟩ := fenceOpen_supported u hty
  have hnoNl := fenceClose_supported u hty
  have hCmem : C ∈ ty.fenceClose := by rw [hC]; simp
  have hfind : findClosingFence ('\n' :: (t ++ '\n' :: (C ++ b))) ty.fenceClose =
      some (t.length + 1, C) := by
    rw [hC]
    apply findClosingFence_eq
    · intro C' hC'
      have hC'mem : C' ∈ ty.fenceClose := by rw [hC]; simp [hC']
      exact index_fence_absent (hnoNl C' hC'mem) (ht C' hC'mem) (by simpa using hb C' hC')
    · exact index_closing_fence (hnoNl C hCmem) (ht C hCmem)
  have hinput : w ++ ty.fenceOpen ++ '\n' :: t ++ '\n' :: C ++ b =
      w ++ ty.fenceOpen ++ '\n' :: (t ++ '\n' :: (C ++ b)) := by simp
  have htake : ('\n' :: (t ++ '\n' :: (C ++ b))).take (t.length + 1 + 1) =
      '\n' :: t ++ ['\n'] := by simp [List.take_append]
  have hdrop : ('\n' :: (t ++ '\n' :: (C ++ b))).drop (t.length + 1 + 1 + C.length) = b := by
    rw [show '\n' :: (t ++ '\n' :: (C ++ b)) = ('\n' :: t ++ '\n' :: C) ++ b by simp,
      List.drop_left']
    simp only [List.length_append, List.length_cons]
    omega
  rw [hinput, extractFrontMatter_of_firstLine u _ hw hnl hne, htrim,
    detectFrontMatterType_supported u hty]
  simp only [hfind, htake, hdrop]

/-- With decoders that return the text they are given: a YAML block closed by
`...` after a blank line. -/
theorem extractFrontMatter_fenced_dots :
    extractFrontMatter (⟨fun s => (s, none), fun s => (s, none), fun s => (s, none)⟩ :
        Unmarshalers (List Char)) " \n---\na: 1\n...\nbody".toList =
      .ok (some "\na: 1\n".toList, "\nbody".toList) :=
  @extractFrontMatter_fenced (List Char)
    ⟨fun s => (s, none), fun s => (s, none), fun s => (s, none)⟩
    ⟨"---".toList, ["---".toList, "...".toList],
      yamlFrontMatter ⟨fun s => (s, none), fun s => (s, none), fun s => (s, none)⟩⟩
    List.mem_cons_self ["---".toList] [] "...".toList rfl " \n".toList "a: 1".toList
    "\nbody".toList (List.all_eq_true.mp rfl) (by decide) (by decide)

/-- **No front matter.** When the first line that is not white space, trimmed
as the source trims it, is no opening fence, the whole input is the body. -/
theorem extractFrontMatter_not_fenced (u : Unmarshalers Meta) {w l rest : List Char}
    (hw : ∀ c ∈ w, isSpace c = true) (hnl : '\n' ∉ l) (hne : ∃ c ∈ l, isSpace c = false)
    (hrest : rest = [] ∨ rest.head? = some '\n')
    (hopen : ∀ ty ∈ supportedFrontMatterTypes u, trimSpace l ≠ ty.fenceOpen) :
    extractFrontMatter u (w ++ l ++ rest) = .ok (none, w ++ l ++ rest) := by
  rcases hrest with rfl | hhead
  · -- no newline after the line: the scan's bounds stay inside the white space
    obtain ⟨s', e', he, heq⟩ := scanFirstLine_spaces l 0 0 0 hw
    have hscan : scanFirstLine (w ++ l ++ []) 0 0 0 true = (s', e') := by
      rw [List.append_nil, heq, scanFirstLine_no_newline _ _ _ _ hnl]
    have he' : e' ≤ w.length := by omega
    have hfirst : trimSpace (((w ++ l ++ []).take e').drop s') = [] := by
      rw [List.append_nil, List.take_append_of_le_length he']
      exact trimSpace_eq_nil fun c hc => hw c (List.mem_of_mem_take (List.mem_of_mem_drop hc))
    have hnone : detectFrontMatterType (supportedFrontMatterTypes u) [] = none :=
      detectFrontMatterType_eq_none_iff.mpr fun ty hty h =>
        by simpa [← h] using (fenceOpen_supported u hty).2.1
    simp only [extractFrontMatter, hscan, hfirst, hnone]
  · obtain ⟨rest, rfl⟩ : ∃ r, rest = '\n' :: r := by
      cases rest with
      | nil => simp at hhead
      | cons c r => exact ⟨r, by simp_all⟩
    rw [extractFrontMatter_of_firstLine u rest hw hnl hne,
      detectFrontMatterType_eq_none_iff.mpr hopen]

/-- A document that opens with a Markdown heading is all body. -/
theorem extractFrontMatter_not_fenced_title :
    extractFrontMatter (⟨fun s => (s, none), fun s => (s, none), fun s => (s, none)⟩ :
        Unmarshalers (List Char)) " \n# Title\ntext".toList =
      .ok (none, " \n# Title\ntext".toList) :=
  @extractFrontMatter_not_fenced (List Char)
    ⟨fun s => (s, none), fun s => (s, none), fun s => (s, none)⟩
    " \n".toList "# Title".toList "\ntext".toList (List.all_eq_true.mp rfl) (by decide)
    ⟨_, List.mem_cons_self, rfl⟩ (.inr rfl)
    (by decide)

/-- A body with a YAML rule: after a block closed by `...`, the later `---`
is taken as the closing fence, because the fences are tried in list order. The
parser is handed the block with the `...` line in it, and the body loses its
first line. -/
theorem extractFrontMatter_dashes_after_dots (u : Unmarshalers Meta) :
    extractFrontMatter u "---\na: 1\n...\n---\n".toList =
      match u.yaml "\na: 1\n...\n".toList with
      | (_, some err) => .error err
      | (fm, none) => .ok (some fm, "\n".toList) := by
  rfl

/-- `FuncSplitFrontMatter`'s `parsedMarkdownDoc`, whose `Meta` field is
`metadata` here. -/
structure ParsedMarkdownDoc (Meta : Type) where
  metadata : Option Meta
  body : List Char

/-- `FuncSplitFrontMatter`, the template function over `extractFrontMatter`. -/
def funcSplitFrontMatter (u : Unmarshalers Meta) (input : List Char) :
    Except Err (ParsedMarkdownDoc Meta) :=
  match extractFrontMatter u input with
  | .error err => .error err
  | .ok (metadata, body) => .ok ⟨metadata, body⟩

end Xtemplate
