import Xtemplate.Go.Strings

/-!
The reading side of server-sent events: the HTML standard's interpretation of
a `text/event-stream`, stated over a finite stream of runes.

The stream is cut into lines at a CRLF pair, at a lone LF and at a lone CR; a
line the stream ends before terminating is discarded. A line is a dispatch
(the empty line), a comment (a leading colon) or a field: the name is what
precedes the first colon and the value what follows it, less one leading
space; a line without a colon is a field named by the whole line, with an
empty value. `interpret` then runs the standard's buffers over the lines and
collects the events dispatched.
-/

namespace EventStream

/-- The lines of a stream, `line` holding the runes of the line being read. -/
def linesFrom : List Char → List Char → List (List Char)
  | [], _ => []
  | '\r' :: '\n' :: rest, line => line :: linesFrom rest []
  | '\r' :: rest, line => line :: linesFrom rest []
  | '\n' :: rest, line => line :: linesFrom rest []
  | c :: rest, line => linesFrom rest (line ++ [c])

/-- The complete lines of a stream. -/
def lines (s : List Char) : List (List Char) := linesFrom s []

/-- What one line is to the parser. -/
inductive Line where
  | dispatch
  | comment
  | field (name value : List Char)
  deriving DecidableEq, Repr

/-- A value loses one leading space. -/
def dropLeadingSpace : List Char → List Char
  | ' ' :: v => v
  | v => v

/-- The standard's reading of one line. -/
def parseLine : List Char → Line
  | [] => .dispatch
  | ':' :: _ => .comment
  | line =>
    if ':' ∈ line then
      .field (line.takeWhile (· != ':')) (dropLeadingSpace (line.dropWhile (· != ':')).tail)
    else .field line []

/-- The lines of a stream as the parser reads them. -/
def parse (s : List Char) : List Line := (lines s).map parseLine

/-- An event handed to the page. -/
structure Event where
  type : List Char
  data : List Char
  lastEventId : List Char
  deriving DecidableEq, Repr

/-- The parser's buffers, and the events dispatched so far. -/
structure State where
  data : List Char
  eventType : List Char
  lastEventIdBuffer : List Char
  reconnectionTime : Option Nat
  events : List Event
  deriving DecidableEq, Repr

/-- The buffers at the start of a stream. -/
def State.init : State := ⟨[], [], [], none, []⟩

/-- Process a field: `event` sets the type, `data` appends a line, `id` sets
the last event id unless it holds NULL, `retry` sets the reconnection time
when it is all ASCII digits, and any other name is ignored. -/
def State.processField (st : State) (name value : List Char) : State :=
  if name = "event".toList then { st with eventType := value }
  else if name = "data".toList then { st with data := st.data ++ value ++ ['\n'] }
  else if name = "id".toList then
    if '\u0000' ∈ value then st else { st with lastEventIdBuffer := value }
  else if name = "retry".toList then
    if value ≠ [] ∧ value.all Char.isDigit then
      { st with reconnectionTime := some (String.ofList value).toNat! }
    else st
  else st

/-- Dispatch: with an empty data buffer nothing is dispatched; otherwise the
event takes the data without its last newline, and the type `message` when
none was set. Both buffers are reset. -/
def State.dispatch (st : State) : State :=
  if st.data = [] then { st with eventType := [] }
  else
    let type := if st.eventType = [] then "message".toList else st.eventType
    { st with
      data := [], eventType := [],
      events := st.events ++ [⟨type, st.data.dropLast, st.lastEventIdBuffer⟩] }

/-- One line's effect on the buffers. -/
def State.step (st : State) : Line → State
  | .dispatch => st.dispatch
  | .comment => st
  | .field name value => st.processField name value

/-- The buffers and events after a whole stream. -/
def interpret (s : List Char) : State := (parse s).foldl State.step State.init

example : parse "event: a\r\ndata: x\rid\n\n".toList =
    [.field "event".toList "a".toList, .field "data".toList "x".toList,
      .field "id".toList [], .dispatch] := by decide

/-! ### Line ends inside a value -/

/-- A string up to its first CR or LF. -/
def firstLine (s : List Char) : List Char := s.takeWhile fun c => c != '\r' && c != '\n'

/-- Every CRLF pair and every lone CR turned into LF. -/
def normalizeNewlines : List Char → List Char
  | [] => []
  | '\r' :: '\n' :: rest => '\n' :: normalizeNewlines rest
  | '\r' :: rest => '\n' :: normalizeNewlines rest
  | c :: rest => c :: normalizeNewlines rest

/-- Every CR is the first half of a CRLF pair. -/
def noLoneCR : List Char → Bool
  | [] => true
  | '\r' :: '\n' :: rest => noLoneCR rest
  | '\r' :: _ => false
  | _ :: rest => noLoneCR rest

/-- A line without the CR of a CRLF that ends it. -/
def stripCR (p : List Char) : List Char := if p.getLast? = some '\r' then p.dropLast else p

/-- Runs without CR or LF, which the line cutting takes whole. -/
def Plain (x : List Char) : Prop := ∀ c ∈ x, c ≠ '\r' ∧ c ≠ '\n'

instance : DecidablePred Plain := fun x => List.decidableBAll _ x

/-- A name a field line can be written under: not empty, so that the line is
no dispatch or comment, and without colon, CR or LF. -/
def FieldName (name : List Char) : Prop := name ≠ [] ∧ ':' ∉ name ∧ Plain name

instance : DecidablePred FieldName := fun _ => inferInstanceAs (Decidable (_ ∧ _ ∧ _))

theorem stripCR_cases (p : List Char) : p = stripCR p ∨ p = stripCR p ++ ['\r'] := by
  unfold stripCR
  split
  · rename_i h
    exact .inr (List.dropLast_append_getLast? _ h).symm
  · exact .inl rfl

@[simp] theorem firstLine_nil : firstLine [] = [] := rfl

theorem firstLine_cons {c : Char} (hcr : c ≠ '\r') (hlf : c ≠ '\n') (s : List Char) :
    firstLine (c :: s) = c :: firstLine s := by
  simp [firstLine, hcr, hlf]

theorem plain_firstLine (s : List Char) : Plain (firstLine s) := fun c hc => by
  have h := List.mem_takeWhile_imp hc
  simp only [Bool.and_eq_true, bne_iff_ne] at h
  exact h

theorem stripCR_cons {c : Char} (hc : c ≠ '\r') (p : List Char) :
    stripCR (c :: p) = c :: stripCR p := by
  cases p with
  | nil => simp [stripCR, hc]
  | cons d p =>
    simp only [stripCR, List.getLast?_cons_cons]
    split <;> simp [List.dropLast_cons_of_ne_nil]

/-- Normalised text holds no CR. -/
theorem cr_not_mem_normalizeNewlines (s : List Char) : '\r' ∉ normalizeNewlines s := by
  fun_induction normalizeNewlines s with
  | case4 c rest _ hcr ih => simpa [eq_comm] using And.intro hcr ih
  | _ => simp_all

/-- Cutting at the first CR or LF is cutting the normalised text at its first
LF. -/
theorem firstLine_eq (s : List Char) :
    firstLine s = (normalizeNewlines s).takeWhile (· != '\n') := by
  unfold firstLine
  fun_induction normalizeNewlines s <;> simp_all [List.takeWhile_cons]

/-- Without a lone CR, the lines of the normalised text are the LF-pieces of the
text, each without the CR before its LF. -/
theorem split_normalizeNewlines (s : List Char) (h : noLoneCR s = true) :
    Go.split (normalizeNewlines s) '\n' = (Go.split s '\n').map stripCR := by
  fun_induction normalizeNewlines s with
  | case1 => rfl
  | case2 rest ih =>
    rw [noLoneCR] at h
    rw [Go.split_cons, Go.split_cons, Go.split_cons, ih h]
    simp [stripCR]
  | case3 rest hne ih =>
    rw [noLoneCR.eq_3 _ hne] at h
    exact absurd h (by simp)
  | case4 c rest hcrlf hcr ih =>
    rw [noLoneCR.eq_4 _ _ hcrlf hcr] at h
    rw [Go.split_cons, Go.split_cons, ih h]
    by_cases hlf : c = '\n'
    · simp [hlf, stripCR]
    · obtain ⟨q, qs, hqs⟩ := List.exists_cons_of_ne_nil (Go.split_ne_nil rest '\n')
      simp [hlf, hqs, stripCR_cons hcr]

/-- Without a lone CR, what precedes the first LF is the first line, and perhaps
the CR of a CRLF. -/
theorem stripCR_takeWhile_ne_lf {s : List Char} (h : noLoneCR s = true) :
    stripCR (s.takeWhile (· != '\n')) = firstLine s := by
  fun_induction noLoneCR s with
  | case1 => rfl
  | case2 rest ih => simp [stripCR, firstLine]
  | case3 rest hne => exact absurd h (by simp)
  | case4 c rest hcrlf hcr ih =>
    by_cases hlf : c = '\n'
    · simp [hlf, stripCR, firstLine]
    · have htake : (c :: rest).takeWhile (· != '\n') = c :: rest.takeWhile (· != '\n') := by
        simp [hlf]
      rw [htake, stripCR_cons hcr, ih h, firstLine_cons hcr hlf]

/-- Without a lone CR, every LF-piece less the CR of its CRLF is plain. -/
theorem plain_stripCR_of_mem_split {s p : List Char} (h : noLoneCR s = true)
    (hp : p ∈ Go.split s '\n') : Plain (stripCR p) := by
  have hq : stripCR p ∈ Go.split (normalizeNewlines s) '\n' := by
    rw [split_normalizeNewlines s h]
    exact List.mem_map_of_mem hp
  intro c hc
  refine ⟨fun e => ?_, fun e => Go.not_mem_of_mem_split hq (e ▸ hc)⟩
  exact cr_not_mem_normalizeNewlines s (e ▸ Go.mem_of_mem_split hq hc)

/-! ### Cutting lines -/

/-- A rune other than CR and LF is taken into the current line. -/
theorem linesFrom_cons_plain {c : Char} (rest line : List Char) (hcr : c ≠ '\r')
    (hlf : c ≠ '\n') : linesFrom (c :: rest) line = linesFrom rest (line ++ [c]) :=
  linesFrom.eq_5 _ _ _ (fun _ h _ => hcr h) hcr hlf

/-- A run without CR or LF is taken into the current line. -/
theorem linesFrom_append_plain {x : List Char} (rest line : List Char)
    (hx : ∀ c ∈ x, c ≠ '\r' ∧ c ≠ '\n') :
    linesFrom (x ++ rest) line = linesFrom rest (line ++ x) := by
  induction x generalizing line with
  | nil => simp
  | cons c x ih =>
    obtain ⟨hcr, hlf⟩ := hx c List.mem_cons_self
    have hx' : ∀ c ∈ x, c ≠ '\r' ∧ c ≠ '\n' := fun c hc => hx c (List.mem_cons_of_mem _ hc)
    rw [List.cons_append, linesFrom_cons_plain _ _ hcr hlf, ih _ hx']
    simp

theorem linesFrom_lf (rest line : List Char) :
    linesFrom ('\n' :: rest) line = line :: linesFrom rest [] := by
  simp [linesFrom]

theorem linesFrom_crlf (rest line : List Char) :
    linesFrom ('\r' :: '\n' :: rest) line = line :: linesFrom rest [] := by
  simp [linesFrom]

/-- A plain run then LF is one line. -/
theorem linesFrom_plain_lf {x : List Char} (rest line : List Char) (hx : Plain x) :
    linesFrom (x ++ '\n' :: rest) line = (line ++ x) :: linesFrom rest [] := by
  rw [linesFrom_append_plain _ _ hx, linesFrom_lf]

/-- A plain run then CRLF is one line. -/
theorem linesFrom_plain_crlf {x : List Char} (rest line : List Char) (hx : Plain x) :
    linesFrom (x ++ '\r' :: '\n' :: rest) line = (line ++ x) :: linesFrom rest [] := by
  rw [linesFrom_append_plain _ _ hx, linesFrom_crlf]

/-- A line written as a plain prefix, a piece whose only CR may be its last
rune, and an LF is read back as the prefix and the piece without that CR. -/
theorem linesFrom_piece {pre p : List Char} (rest line : List Char) (hpre : Plain pre)
    (hp : Plain (stripCR p)) :
    linesFrom (pre ++ p ++ '\n' :: rest) line = (line ++ pre ++ stripCR p) :: linesFrom rest [] := by
  have hx : Plain (pre ++ stripCR p) := fun c hc => by
    rcases List.mem_append.mp hc with hc | hc
    · exact hpre c hc
    · exact hp c hc
  rcases stripCR_cases p with h | h
  · conv_lhs => rw [h]
    rw [List.append_assoc, ← List.append_assoc pre, linesFrom_plain_lf _ _ hx, List.append_assoc]
  · conv_lhs => rw [h]
    rw [show pre ++ (stripCR p ++ ['\r']) ++ '\n' :: rest =
        (pre ++ stripCR p) ++ '\r' :: '\n' :: rest by simp,
      linesFrom_plain_crlf _ _ hx, List.append_assoc]

/-- A line `name: value` is read as that field, whatever the value holds. -/
theorem parseLine_field {name : List Char} (value : List Char) (hname : name ≠ [])
    (hcolon : ':' ∉ name) : parseLine (name ++ ':' :: ' ' :: value) = .field name value := by
  obtain ⟨c, name', rfl⟩ := List.exists_cons_of_ne_nil hname
  have hc : c ≠ ':' := fun e => hcolon (e ▸ List.mem_cons_self)
  have hall : ∀ a ∈ c :: name', (a != ':') = true := fun a ha => by
    have : a ≠ ':' := fun e => hcolon (e ▸ ha)
    simpa using this
  rw [List.cons_append, parseLine.eq_3 _ (by simp) (fun _ h => hc (List.cons.inj h).1),
    ← List.cons_append, List.takeWhile_append_of_pos hall, List.dropWhile_append_of_pos hall]
  simp [dropLeadingSpace]

/-! ### Reading back written fields -/

/-- A field line `name: p` read back: a field of that name whose value is `p`
less the CR of a CRLF, whatever else `p` holds. -/
theorem parse_field_append {name p : List Char} (rest : List Char) (hname : FieldName name)
    (hp : Plain (stripCR p)) :
    parse (name ++ ':' :: ' ' :: (p ++ '\n' :: rest)) = .field name (stripCR p) :: parse rest := by
  obtain ⟨hne, hcolon, hplain⟩ := hname
  have hpre : Plain (name ++ [':', ' ']) := fun c hc => by
    rcases List.mem_append.mp hc with hc | hc
    · exact hplain c hc
    · simp at hc; rcases hc with rfl | rfl <;> decide
  have hline := linesFrom_piece rest [] hpre hp
  simp only [List.append_assoc, List.cons_append, List.nil_append] at hline
  simp only [parse, lines, hline, List.map_cons]
  rw [parseLine_field _ hne hcolon]

/-- Field lines under one name, one per value, read back in order. -/
theorem parse_fields_append {name : List Char} (hname : FieldName name) (rest : List Char) :
    ∀ ps : List (List Char), (∀ p ∈ ps, Plain (stripCR p)) →
      parse ((ps.map fun p => name ++ ':' :: ' ' :: (p ++ ['\n'])).flatten ++ rest) =
        ps.map (fun p => .field name (stripCR p)) ++ parse rest
  | [], _ => rfl
  | p :: ps, hps => by
    have hp := hps p List.mem_cons_self
    have ih := parse_fields_append hname rest ps fun q hq => hps q (List.mem_cons_of_mem _ hq)
    simp only [List.map_cons, List.flatten_cons, List.append_assoc, List.cons_append]
    rw [parse_field_append _ hname hp, List.nil_append, ih]

/-! ### The buffers fields set -/

@[simp] theorem State.step_field (st : State) (name value : List Char) :
    st.step (.field name value) = st.processField name value := rfl

@[simp] theorem State.step_dispatch (st : State) : st.step .dispatch = st.dispatch := rfl

theorem State.processField_event (st : State) (value : List Char) :
    st.processField "event".toList value = { st with eventType := value } := by
  rw [State.processField, if_pos rfl]

theorem State.processField_data (st : State) (value : List Char) :
    st.processField "data".toList value = { st with data := st.data ++ value ++ ['\n'] } := by
  rw [State.processField, if_neg (by decide), if_pos rfl]

theorem State.processField_id (st : State) (value : List Char) :
    st.processField "id".toList value =
      if '\u0000' ∈ value then st else { st with lastEventIdBuffer := value } := by
  rw [State.processField, if_neg (by decide), if_neg (by decide), if_pos rfl]

/-- `retry` changes the reconnection time and nothing else. -/
theorem State.processField_retry (st : State) (value : List Char) :
    ∃ t, st.processField "retry".toList value = { st with reconnectionTime := t } := by
  unfold State.processField
  rw [if_neg (by decide), if_neg (by decide), if_neg (by decide), if_pos rfl]
  split
  · exact ⟨_, rfl⟩
  · exact ⟨st.reconnectionTime, rfl⟩

/-- A field of any other name leaves the buffers as they are. -/
theorem State.processField_other (st : State) {name : List Char} (value : List Char)
    (he : name ≠ "event".toList) (hd : name ≠ "data".toList) (hi : name ≠ "id".toList)
    (hr : name ≠ "retry".toList) : st.processField name value = st := by
  rw [State.processField, if_neg he, if_neg hd, if_neg hi, if_neg hr]

/-- `data` fields append their values to the data buffer, each with an LF. -/
theorem State.foldl_data (st : State) (ps : List (List Char)) :
    (ps.map (Line.field "data".toList)).foldl State.step st =
      { st with data := st.data ++ (ps.map (· ++ ['\n'])).flatten } := by
  induction ps generalizing st with
  | nil => simp
  | cons p ps ih =>
    rw [List.map_cons, List.foldl_cons, State.step_field, State.processField_data, ih]
    simp

theorem State.dispatch_of_ne_nil {st : State} (h : st.data ≠ []) :
    st.dispatch = { st with
      data := [], eventType := [],
      events := st.events ++
        [⟨if st.eventType = [] then "message".toList else st.eventType, st.data.dropLast,
          st.lastEventIdBuffer⟩] } := by
  rw [State.dispatch, if_neg h]

theorem State.dispatch_of_nil {st : State} (h : st.data = []) :
    st.dispatch = { st with eventType := [] } := by
  rw [State.dispatch, if_pos h]

/-- Lines each ended by a separator, less the last separator, are the lines
joined by it. -/
theorem dropLast_flatten_map_append {ps : List (List Char)} (c : Char) (h : ps ≠ []) :
    (ps.map (· ++ [c])).flatten.dropLast = [c].intercalate ps := by
  induction ps with
  | nil => exact absurd rfl h
  | cons p ps ih =>
    cases ps with
    | nil => simp
    | cons q qs =>
      have hne : ((q :: qs).map (· ++ [c])).flatten ≠ [] := by simp
      rw [List.map_cons, List.flatten_cons, List.dropLast_append_of_ne_nil hne, ih (by simp),
        List.intercalate_cons_cons]


/-! ### Streams cut at a line end -/

/-- A stream that has not started a line: empty, or ended by an LF. -/
def EndsLine (x : List Char) : Prop := x = [] ∨ x.getLast? = some '\n'

theorem getLast?_cons_eq_some {a c : Char} {l : List Char} (h : (a :: l).getLast? = some c) :
    l = [] ∧ a = c ∨ l.getLast? = some c := by
  rw [List.getLast?_cons] at h
  cases hl : l.getLast? with
  | none => exact .inl ⟨List.getLast?_eq_none_iff.mp hl, by simpa [hl] using h⟩
  | some d => exact .inr (by simpa [hl] using h)

/-- Cut just after an LF, a stream's lines are those of its two parts: the
recursion on the first part never looks past its last LF. -/
theorem linesFrom_append_of_getLast {x : List Char} (y line : List Char)
    (hx : x.getLast? = some '\n') : linesFrom (x ++ y) line = linesFrom x line ++ lines y := by
  fun_induction linesFrom x line with
  | case1 => cases hx
  | case2 rest line ih =>
    rw [List.getLast?_cons_cons] at hx
    simp only [List.cons_append, linesFrom_crlf]
    rcases getLast?_cons_eq_some hx with ⟨rfl, -⟩ | hrest
    · rfl
    · rw [ih hrest]
  | case3 rest line hne ih =>
    rcases getLast?_cons_eq_some hx with ⟨-, h⟩ | hrest
    · cases h
    · -- the rune after the lone CR is no LF, also once `y` is appended
      obtain ⟨r, rs, rfl⟩ := List.exists_cons_of_ne_nil (show rest ≠ [] by rintro rfl; cases hrest)
      have hr : r ≠ '\n' := fun h => hne rs (by rw [h])
      rw [List.cons_append, linesFrom.eq_3 line (r :: rs ++ y) (fun _ h => hr (List.cons.inj h).1),
        ih hrest]
      rfl
  | case4 rest line ih =>
    simp only [List.cons_append, linesFrom_lf]
    rcases getLast?_cons_eq_some hx with ⟨rfl, -⟩ | hrest
    · rfl
    · rw [ih hrest]
  | case5 c rest line _ hcr hlf ih =>
    rcases getLast?_cons_eq_some hx with ⟨-, h⟩ | hrest
    · exact absurd h hlf
    · rw [List.cons_append, linesFrom_cons_plain _ _ hcr hlf, ih hrest]

/-- A stream that has not started a line is read apart from what follows it. -/
theorem parse_append_of_endsLine {x : List Char} (hx : EndsLine x) (y : List Char) :
    parse (x ++ y) = parse x ++ parse y := by
  rcases hx with rfl | hx
  · rfl
  · rw [parse, lines, linesFrom_append_of_getLast y [] hx, List.map_append]
    rfl

theorem EndsLine.append {x y : List Char} (hx : EndsLine x) (hy : EndsLine y) :
    EndsLine (x ++ y) := by
  rcases hy with rfl | hy
  · rwa [List.append_nil]
  · exact .inr (by rw [List.getLast?_append, hy]; rfl)

end EventStream
