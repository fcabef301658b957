import Xtemplate.Basic
import Xtemplate.Go.Http
import Xtemplate.Spec.EventStream

/-!
`DotFlush.SendSSE` (`dot_flush.go`): the `.Flush` field's way of writing one
server-sent event to the response.

The arguments are event, data, id and retry, the later ones optional. Event,
id and retry are written as one field each, cut at their first LF; data is
written as one `data` field per LF-separated piece. When anything was written
the event is closed by a blank line and the writer flushed.

Read back by the event-stream parser of `Xtemplate.Spec.EventStream`, which
also ends lines at CR:

* `sendSSE_lone_cr_injects_field`: a lone CR in the event argument starts a
  new line that the parser reads as a `data` field of the caller's choosing,
  and so dispatches an event the arguments never asked for;
* `sendSSE_parse`: without a lone CR in any argument, the parser sees exactly
  the fields the arguments give, line ends normalised, then the blank line;
* `sendSSE_interpret`: a call with data then dispatches exactly one event,
  whose data is the data argument with its line ends normalised.

`DotFlush.Repeat` starts a goroutine that sends `0, 1, ...` on a channel
until it has sent `max` or a context is done, and then closes the channel.
Its run is a fold over the outcomes of the goroutine's `select`, one per
turn of its loop; Go's `int` is `Int64`.
-/

namespace Xtemplate

open Go EventStream

/-- The `switch` on the argument count: each case takes its argument and
falls through to the earlier ones; the missing ones stay empty. -/
def sseArgs : List (List Char) → Option (List Char × List Char × List Char × List Char)
  | [event, data, id, retry] => some (event, data, id, retry)
  | [event, data, id] => some (event, data, id, [])
  | [event, data] => some (event, data, [], [])
  | [event] => some (event, [], [], [])
  | _ => none

/-- `fmt.Fprintf(f.flusher, "<name>: %s\n", strings.SplitN(value, "\n", 2)[0])`,
when `value` is not empty: the event, id and retry fields. -/
def sseLine (name value : List Char) : List WriterCall :=
  if value ≠ [] then [.write (name ++ ": ".toList ++ (splitN value '\n' 2).headD [] ++ ['\n'])]
  else []

/-- One `fmt.Fprintf(f.flusher, "data: %s\n", line)` per piece of
`strings.Split(data, "\n")`, when `data` is not empty. -/
def sseData (data : List Char) : List WriterCall :=
  if data ≠ [] then (split data '\n').map fun line => .write ("data: ".toList ++ line ++ ['\n'])
  else []

/-- The four fields' writes, in the source's order. -/
def sseFieldWrites (event data id retry : List Char) : List WriterCall :=
  sseLine "event".toList event ++ sseData data ++ sseLine "id".toList id ++
    sseLine "retry".toList retry

/-- The body of `SendSSE` after the `switch`. The source's `written` flag is
set by every `Fprintf`, so it holds exactly when a field was written; the
event is then closed by a blank line and flushed. -/
def sseWrites (event data id retry : List Char) : List WriterCall :=
  let fields := sseFieldWrites event data id retry
  if fields.isEmpty then [] else fields ++ [.write "\n\n".toList, .flush]

/-- `DotFlush.SendSSE(args...)`: the calls made on the response writer. -/
def DotFlush.sendSSE (args : List (List Char)) : Except Err (List WriterCall) :=
  match sseArgs args with
  | none => .error (errorf ("wrong number of args provided. got " ++ toString args.length ++
      ", need 1-4"))
  | some (event, data, id, retry) => .ok (sseWrites event data id retry)

/-- `DotFlush.Flush()`. -/
def DotFlush.flush : List WriterCall := [.flush]

theorem sseArgs_isSome_iff (args : List (List Char)) :
    (sseArgs args).isSome ↔ 1 ≤ args.length ∧ args.length ≤ 4 := by
  match args with
  | [] | [_] | [_, _] | [_, _, _] | [_, _, _, _] => simp [sseArgs]
  | _ :: _ :: _ :: _ :: _ :: _ => simp [sseArgs]

/-- A call with no argument or more than four writes nothing and fails. -/
theorem sendSSE_wrong_count {args : List (List Char)} (h : sseArgs args = none) :
    DotFlush.sendSSE args = .error (errorf ("wrong number of args provided. got " ++
      toString args.length ++ ", need 1-4")) := by
  simp [DotFlush.sendSSE, h]

/-! ### What the parser reads -/

/-- The field an event, id or retry argument should be read as: the argument
up to its first line end, when it is not empty. -/
def sseFieldOf (name value : List Char) : List Line :=
  if value ≠ [] then [.field name (firstLine value)] else []

/-- The fields a data argument should be read as: its normalised lines, when
it is not empty. -/
def sseDataFields (data : List Char) : List Line :=
  if data ≠ [] then (split (normalizeNewlines data) '\n').map (.field "data".toList) else []

/-- The fields the parser should see for the four arguments. -/
def sseFields (event data id retry : List Char) : List Line :=
  sseFieldOf "event".toList event ++ sseDataFields data ++ sseFieldOf "id".toList id ++
    sseFieldOf "retry".toList retry

/-- A non-empty argument's field is read back as the argument up to its first
line end. -/
theorem parse_sseLine_append {name value : List Char} (hname : FieldName name)
    (hv : noLoneCR value = true) (rest : List Char) :
    parse (written (sseLine name value) ++ rest) = sseFieldOf name value ++ parse rest := by
  unfold sseLine sseFieldOf
  split
  · have hp : Plain (stripCR (value.takeWhile (· != '\n'))) := by
      rw [stripCR_takeWhile_ne_lf hv]
      exact plain_firstLine value
    simp only [written_write, written_nil, splitN_two_headD, List.append_nil, List.append_assoc,
      List.cons_append]
    rw [show ": ".toList = [':', ' '] from rfl, List.cons_append, List.cons_append, List.nil_append,
      parse_field_append _ hname hp, stripCR_takeWhile_ne_lf hv]
    rfl
  · simp

/-- The data argument is read back as its normalised lines, one `data` field
each. -/
theorem parse_sseData_append {data : List Char} (hd : noLoneCR data = true) (rest : List Char) :
    parse (written (sseData data) ++ rest) = sseDataFields data ++ parse rest := by
  unfold sseData sseDataFields
  split
  · have hline : (fun line => "data: ".toList ++ line ++ ['\n']) =
        fun p => "data".toList ++ ':' :: ' ' :: (p ++ ['\n']) := by
      funext line
      simp
    have hfields := parse_fields_append (show FieldName "data".toList by decide) rest
      (split data '\n')
      fun p hp => plain_stripCR_of_mem_split hd hp
    rw [written_map_write, hline, hfields, split_normalizeNewlines data hd, List.map_map]
    simp [Function.comp_def]
  · simp

/-- The four fields' writes are read back as the fields the arguments give. -/
theorem parse_sseFieldWrites_append {event data id retry : List Char}
    (he : noLoneCR event = true) (hd : noLoneCR data = true) (hi : noLoneCR id = true)
    (hr : noLoneCR retry = true) (rest : List Char) :
    parse (written (sseFieldWrites event data id retry) ++ rest) =
      sseFields event data id retry ++ parse rest := by
  simp only [sseFieldWrites, sseFields, written_append, List.append_assoc]
  rw [parse_sseLine_append (by decide) he, parse_sseData_append hd,
    parse_sseLine_append (by decide) hi, parse_sseLine_append (by decide) hr]

theorem sseLine_eq_nil_iff {name value : List Char} : sseLine name value = [] ↔ value = [] := by
  unfold sseLine
  split <;> simp_all

theorem sseData_eq_nil_iff {data : List Char} : sseData data = [] ↔ data = [] := by
  unfold sseData
  split
  · simp only [List.map_eq_nil_iff, split_ne_nil, false_iff]
    assumption
  · simp_all

theorem sseFieldOf_eq_nil_iff {name value : List Char} : sseFieldOf name value = [] ↔ value = [] := by
  unfold sseFieldOf
  split <;> simp_all

theorem sseDataFields_eq_nil_iff {data : List Char} : sseDataFields data = [] ↔ data = [] := by
  unfold sseDataFields
  split
  · simp only [List.map_eq_nil_iff, split_ne_nil, false_iff]
    assumption
  · simp_all

theorem sseFieldWrites_eq_nil_iff {event data id retry : List Char} :
    sseFieldWrites event data id retry = [] ↔
      event = [] ∧ data = [] ∧ id = [] ∧ retry = [] := by
  simp only [sseFieldWrites, List.append_eq_nil_iff, sseLine_eq_nil_iff, sseData_eq_nil_iff,
    and_assoc]

theorem sseFields_eq_nil_iff {event data id retry : List Char} :
    sseFields event data id retry = [] ↔ event = [] ∧ data = [] ∧ id = [] ∧ retry = [] := by
  simp only [sseFields, List.append_eq_nil_iff, sseFieldOf_eq_nil_iff, sseDataFields_eq_nil_iff,
    and_assoc]

/-- What a call with a valid argument count writes. -/
theorem sendSSE_eq_ok {args : List (List Char)} {event data id retry : List Char}
    (hargs : sseArgs args = some (event, data, id, retry)) :
    DotFlush.sendSSE args = .ok (sseWrites event data id retry) := by
  simp [DotFlush.sendSSE, hargs]

/-- The stream of one event, read by the parser: the fields the arguments
give, then the blank line, when no argument holds a lone CR. -/
theorem parse_written_sseWrites {event data id retry : List Char}
    (he : noLoneCR event = true) (hd : noLoneCR data = true) (hi : noLoneCR id = true)
    (hr : noLoneCR retry = true) :
    parse (written (sseWrites event data id retry)) = sseFields event data id retry ++
      (if sseFields event data id retry = [] then [] else [.dispatch, .dispatch]) := by
  unfold sseWrites
  by_cases hnil : event = [] ∧ data = [] ∧ id = [] ∧ retry = []
  · rw [sseFields_eq_nil_iff.mpr hnil, sseFieldWrites_eq_nil_iff.mpr hnil]
    rfl
  · have hfields : ¬ (sseFieldWrites event data id retry).isEmpty := by
      simpa [List.isEmpty_iff] using mt sseFieldWrites_eq_nil_iff.mp hnil
    rw [if_neg hfields, if_neg (mt sseFields_eq_nil_iff.mp hnil), written_append,
      parse_sseFieldWrites_append he hd hi hr]
    rfl

/-- Without a lone CR in any argument, the parser sees exactly the fields the
arguments give, then the blank line. -/
theorem sendSSE_parse {args : List (List Char)} {event data id retry : List Char}
    (hargs : sseArgs args = some (event, data, id, retry))
    (he : noLoneCR event = true) (hd : noLoneCR data = true) (hi : noLoneCR id = true)
    (hr : noLoneCR retry = true) :
    ∃ calls, DotFlush.sendSSE args = .ok calls ∧
      parse (written calls) = sseFields event data id retry ++
        (if sseFields event data id retry = [] then [] else [.dispatch, .dispatch]) :=
  ⟨_, sendSSE_eq_ok hargs, parse_written_sseWrites he hd hi hr⟩

/-- Three arguments, the data with a CRLF. -/
theorem sendSSE_parse_crlf :
    sseArgs ["tick".toList, "a\r\nb".toList, "7".toList] =
        some ("tick".toList, "a\r\nb".toList, "7".toList, []) ∧
      ∃ calls, DotFlush.sendSSE ["tick".toList, "a\r\nb".toList, "7".toList] = .ok calls ∧
        parse (written calls) =
          [.field "event".toList "tick".toList, .field "data".toList "a".toList,
            .field "data".toList "b".toList, .field "id".toList "7".toList, .dispatch, .dispatch] :=
  ⟨rfl, @sendSSE_parse _ "tick".toList "a\r\nb".toList "7".toList [] rfl (by decide) (by decide)
    (by decide) (by decide)⟩

/-! ### What the page receives -/

theorem foldl_sseFieldOf_event (st : State) (value : List Char) :
    (sseFieldOf "event".toList value).foldl State.step st =
      { st with eventType := if value ≠ [] then firstLine value else st.eventType } := by
  unfold sseFieldOf
  split
  · rw [List.foldl_cons, List.foldl_nil, State.step_field, State.processField_event]
  · rfl

theorem foldl_sseDataFields (st : State) (data : List Char) :
    (sseDataFields data).foldl State.step st =
      { st with data := st.data ++ if data ≠ [] then
          ((split (normalizeNewlines data) '\n').map (· ++ ['\n'])).flatten else [] } := by
  unfold sseDataFields
  split
  · rw [State.foldl_data]
  · simp

theorem foldl_sseFieldOf_id (st : State) (value : List Char) :
    (sseFieldOf "id".toList value).foldl State.step st =
      { st with lastEventIdBuffer :=
          if value ≠ [] ∧ '\u0000' ∉ firstLine value then firstLine value
          else st.lastEventIdBuffer } := by
  unfold sseFieldOf
  by_cases hv : value = []
  · simp [hv]
  · rw [if_pos hv, List.foldl_cons, List.foldl_nil, State.step_field, State.processField_id]
    by_cases hnul : '\u0000' ∈ firstLine value
    · simp [hv, hnul]
    · simp [hv, hnul]

theorem foldl_sseFieldOf_retry (st : State) (value : List Char) :
    ∃ t, (sseFieldOf "retry".toList value).foldl State.step st =
      { st with reconnectionTime := t } := by
  unfold sseFieldOf
  split
  · rw [List.foldl_cons, List.foldl_nil, State.step_field]
    exact State.processField_retry st _
  · exact ⟨st.reconnectionTime, rfl⟩

/-- The buffers after the fields of one event, read from the start of a
stream. -/
theorem foldl_sseFields (event data id retry : List Char) :
    ∃ t, (sseFields event data id retry).foldl State.step State.init =
      { data := if data ≠ [] then
          ((split (normalizeNewlines data) '\n').map (· ++ ['\n'])).flatten else [],
        eventType := firstLine event,
        lastEventIdBuffer := if '\u0000' ∈ firstLine id then [] else firstLine id,
        reconnectionTime := t, events := [] } := by
  obtain ⟨t, ht⟩ := foldl_sseFieldOf_retry
    ((sseFieldOf "event".toList event ++ sseDataFields data ++ sseFieldOf "id".toList id).foldl
      State.step State.init) retry
  refine ⟨t, ?_⟩
  rw [sseFields, List.foldl_append, ht, List.foldl_append, foldl_sseFieldOf_id, List.foldl_append,
    foldl_sseDataFields, foldl_sseFieldOf_event]
  -- an empty argument sets no field, and its first line is empty as well
  have hevent : (if event ≠ [] then firstLine event else []) = firstLine event := by
    by_cases h : event = [] <;> simp [h]
  have hid : (if id ≠ [] ∧ '\u0000' ∉ firstLine id then firstLine id else []) =
      if '\u0000' ∈ firstLine id then [] else firstLine id := by
    by_cases h : id = []
    · simp [h]
    · by_cases hnul : '\u0000' ∈ firstLine id <;> simp [h, hnul]
  simp only [State.init, hevent, hid, List.nil_append]

/-- A call with data dispatches exactly one event: its type is the event
argument up to its first line end (`message` when that is empty), its data is
the data argument with every line end turned into LF, and its id is the id
argument up to its first line end, unless that holds NULL. -/
theorem sendSSE_interpret {args : List (List Char)} {event data id retry : List Char}
    (hargs : sseArgs args = some (event, data, id, retry))
    (he : noLoneCR event = true) (hd : noLoneCR data = true) (hi : noLoneCR id = true)
    (hr : noLoneCR retry = true) (hdata : data ≠ []) :
    ∃ calls, DotFlush.sendSSE args = .ok calls ∧
      (interpret (written calls)).events =
        [⟨if firstLine event = [] then "message".toList else firstLine event,
          normalizeNewlines data, if '\u0000' ∈ firstLine id then [] else firstLine id⟩] := by
  refine ⟨_, sendSSE_eq_ok hargs, ?_⟩
  have hfields : sseFields event data id retry ≠ [] :=
    fun h => hdata (sseFields_eq_nil_iff.mp h).2.1
  obtain ⟨t, hst⟩ := foldl_sseFields event data id retry
  rw [if_pos hdata] at hst
  have hbuf : ((split (normalizeNewlines data) '\n').map (· ++ ['\n'])).flatten ≠ [] := by
    obtain ⟨q, qs, hqs⟩ := List.exists_cons_of_ne_nil (split_ne_nil (normalizeNewlines data) '\n')
    simp [hqs]
  -- the first blank line dispatches the event, the second finds no data
  rw [interpret, parse_written_sseWrites he hd hi hr, if_neg hfields, List.foldl_append, hst,
    List.foldl_cons, List.foldl_cons, List.foldl_nil, State.step_dispatch, State.step_dispatch,
    @State.dispatch_of_ne_nil ⟨_, _, _, _, _⟩ hbuf, State.dispatch_of_nil rfl]
  simp only [List.nil_append]
  rw [dropLast_flatten_map_append _ (split_ne_nil _ _)]
  exact congrArg (fun d => [Event.mk _ d _]) (List.intercalate_splitOn _)

/-- Data alone, with a CRLF: one `message` event with the lines joined by LF. -/
theorem sendSSE_interpret_crlf :
    ∃ calls, DotFlush.sendSSE ["".toList, "a\r\nb".toList] = .ok calls ∧
      (interpret (written calls)).events = [⟨"message".toList, "a\nb".toList, []⟩] :=
  @sendSSE_interpret _ [] "a\r\nb".toList [] [] rfl (by decide) (by decide) (by decide) (by decide)
    (by decide)

/-- A lone CR in the event argument ends the event line for the parser, and
the rest of the argument is read as a field of its own: here a `data` field,
so that a call with no data dispatches an event. -/
theorem sendSSE_lone_cr_injects_field :
    ∃ calls, DotFlush.sendSSE ["msg\rdata: evil".toList] = .ok calls ∧
      parse (written calls) =
        [.field "event".toList "msg".toList, .field "data".toList "evil".toList,
          .dispatch, .dispatch] ∧
      (interpret (written calls)).events = [⟨"msg".toList, "evil".toList, []⟩] :=
  ⟨_, rfl, by decide, by decide⟩

/-! ### `Repeat` -/

/-- How one `select` of `Repeat`'s loop ends: a context's `Done`, or the
receiver took the value. -/
inductive RepeatSelect where
  | requestDone
  | serverDone
  | sent
  deriving DecidableEq, Repr

/-- `Repeat`'s goroutine: its counter, the values it has sent, and whether it
has closed the channel and exited. -/
structure RepeatState where
  i : Int64
  sent : List Int64
  closed : Bool
  deriving DecidableEq, Repr

/-- `max := math.MaxInt64; if len(max_) > 0 { max = max_[0] }`. -/
def repeatMax (max_ : List Int64) : Int64 := max_.headD Int64.maxValue

def RepeatState.start : RepeatState := ⟨0, [], false⟩

/-- One turn of the loop: the `select`, then `if i >= max { break }` and
`i++`. An exited goroutine does nothing more. -/
def RepeatState.step (max : Int64) (st : RepeatState) (sel : RepeatSelect) : RepeatState :=
  if st.closed then st
  else
    match sel with
    | .requestDone | .serverDone => { st with closed := true }
    | .sent =>
      if st.i >= max then { st with sent := st.sent ++ [st.i], closed := true }
      else { st with i := st.i + 1, sent := st.sent ++ [st.i] }

/-- `DotFlush.Repeat(max_...)`'s goroutine over the outcomes of its selects. -/
def DotFlush.repeatRun (max_ : List Int64) (sels : List RepeatSelect) : RepeatState :=
  sels.foldl (RepeatState.step (repeatMax max_)) RepeatState.start

/-- `i++` below another `int` does not wrap. -/
theorem toInt_add_one_of_lt {i m : Int64} (h : i < m) : (i + 1).toInt = i.toInt + 1 := by
  have hlt := Int64.lt_iff_toInt_lt.mp h
  have hm := m.toInt_lt
  have hi := i.le_toInt
  rw [Int64.toInt_add]
  simp only [Int64.toInt_one]
  apply Int.bmod_eq_of_le <;> omega

section Repeat

variable {n : Int64}

/-- What every state of the goroutine keeps: it has sent `0, 1, ..., k-1`
for some `k`, exact as integers; while it runs its counter is `k`; and it
has sent nothing past `max`, or only `0`. -/
structure RepeatState.Inv (n : Int64) (st : RepeatState) : Prop where
  sent_range : st.sent.map Int64.toInt = (List.range st.sent.length).map Int.ofNat
  counter : st.closed = false → st.i.toInt = st.sent.length
  running_le : st.closed = false → st.sent ≠ [] → (st.sent.length : Int) ≤ n.toInt
  length_le : (st.sent.length : Int) ≤ max (n.toInt + 1) 1

theorem RepeatState.inv_start : RepeatState.start.Inv n where
  sent_range := rfl
  counter _ := rfl
  running_le _ h := absurd rfl h
  length_le := by
    simp only [RepeatState.start, List.length_nil]
    omega

@[simp] theorem RepeatState.step_closed {st : RepeatState} (h : st.closed = true)
    (sel : RepeatSelect) : st.step n sel = st := by
  simp [RepeatState.step, h]

/-- Sending the counter extends `0, ..., k-1` by `k`. -/
theorem RepeatState.Inv.sent_append {st : RepeatState} (h : st.Inv n) (hrun : st.closed = false) :
    (st.sent ++ [st.i]).map Int64.toInt = (List.range (st.sent ++ [st.i]).length).map Int.ofNat := by
  rw [List.map_append, h.sent_range, List.map_singleton, h.counter hrun, List.length_append,
    List.length_singleton, List.range_succ, List.map_append, List.map_singleton]
  rfl

/-- **Step lemma.** Every turn of the loop keeps the invariant. -/
theorem RepeatState.Inv.step {st : RepeatState} (h : st.Inv n) (sel : RepeatSelect) :
    (st.step n sel).Inv n := by
  cases hc : st.closed
  case true => rwa [RepeatState.step_closed hc]
  case false =>
    have hk := h.counter hc
    cases sel
    case requestDone | serverDone =>
      simp only [RepeatState.step, hc, Bool.false_eq_true, ↓reduceIte]
      exact ⟨h.sent_range, nofun, nofun, h.length_le⟩
    case sent =>
      -- the bound after a send: the count before was at most `max`, or zero
      have hbound : (st.sent.length : Int) + 1 ≤ max (n.toInt + 1) 1 := by
        by_cases hnil : st.sent = []
        · simp only [hnil, List.length_nil]
          omega
        · have := h.running_le hc hnil
          omega
      simp only [RepeatState.step, hc, Bool.false_eq_true, ↓reduceIte]
      split
      case isTrue hge =>
        refine ⟨h.sent_append hc, nofun, nofun, ?_⟩
        simpa using hbound
      case isFalse hlt =>
        -- below `max`: `i++` is exact
        have hlt' : st.i < n := Int64.not_le.mp hlt
        have hi := toInt_add_one_of_lt hlt'
        have hin := Int64.lt_iff_toInt_lt.mp hlt'
        refine ⟨h.sent_append hc, fun _ => by simp [hi, hk], fun _ _ => by simp; omega, ?_⟩
        simpa using hbound

/-- **Run lemma.** Every run of the goroutine keeps the invariant. -/
theorem RepeatState.Inv.foldl {st : RepeatState} (h : st.Inv n) (sels : List RepeatSelect) :
    (sels.foldl (RepeatState.step n) st).Inv n := by
  induction sels generalizing st with
  | nil => exact h
  | cons sel sels ih => exact ih (h.step sel)

/-- An exited goroutine ignores every later outcome. -/
theorem foldl_step_of_closed (l : List RepeatSelect) {st : RepeatState} (h : st.closed = true) :
    l.foldl (RepeatState.step n) st = st := by
  induction l with
  | nil => rfl
  | cons sel l ih => rw [List.foldl_cons, RepeatState.step_closed h, ih]

/-- Without a cancelled context, the first `k` turns up to `max` send
`0, ..., k-1` and leave the goroutine running. -/
theorem foldl_step_sent_le (k : Nat) (hk : (k : Int) ≤ n.toInt) :
    let st := (List.replicate k RepeatSelect.sent).foldl (RepeatState.step n) RepeatState.start
    st.closed = false ∧ st.sent.length = k := by
  induction k with
  | zero => exact ⟨rfl, rfl⟩
  | succ k ih =>
    obtain ⟨hc, hlen⟩ := ih (by omega)
    have hinv := (RepeatState.inv_start (n := n)).foldl (List.replicate k RepeatSelect.sent)
    rw [List.replicate_succ', List.foldl_append, List.foldl_cons, List.foldl_nil]
    generalize (List.replicate k RepeatSelect.sent).foldl (RepeatState.step n)
      RepeatState.start = st at hc hlen hinv ⊢
    have hi := hinv.counter hc
    have hlt : ¬ st.i ≥ n := fun hge => by
      have := Int64.le_iff_toInt_le.mp hge
      omega
    simp only [RepeatState.step, hc, Bool.false_eq_true, ↓reduceIte, hlt]
    constructor <;> simp [hlen]

/-- Without a cancelled context, `max + 1` turns or more send `0, ..., max`
and close the channel. -/
theorem foldl_step_sent_full (hn : 0 ≤ n.toInt) (k : Nat) (hk : n.toInt < k) :
    let st := (List.replicate k RepeatSelect.sent).foldl (RepeatState.step n) RepeatState.start
    st.closed = true ∧ st.sent.length = n.toInt.toNat + 1 := by
  obtain ⟨r, rfl⟩ : ∃ r, k = n.toInt.toNat + 1 + r := ⟨k - (n.toInt.toNat + 1), by omega⟩
  obtain ⟨hc, hlen⟩ := foldl_step_sent_le (n := n) n.toInt.toNat (by omega)
  have hinv := (RepeatState.inv_start (n := n)).foldl
    (List.replicate n.toInt.toNat RepeatSelect.sent)
  rw [List.replicate_add, List.foldl_append, List.replicate_succ', List.foldl_append,
    List.foldl_cons, List.foldl_nil]
  generalize (List.replicate n.toInt.toNat RepeatSelect.sent).foldl (RepeatState.step n)
    RepeatState.start = st at hc hlen hinv ⊢
  have hi := hinv.counter hc
  -- the turn at `i = max` sends it and closes; the rest do nothing
  have hge : st.i ≥ n := Int64.le_iff_toInt_le.mpr (by omega)
  have hstep : st.step n .sent = { st with sent := st.sent ++ [st.i], closed := true } := by
    simp [RepeatState.step, hc, hge]
  have hrest := foldl_step_of_closed (n := n) (List.replicate r RepeatSelect.sent)
    (show ({ st with sent := st.sent ++ [st.i], closed := true } : RepeatState).closed = true
      from rfl)
  rw [hstep, hrest]
  exact ⟨rfl, by simp [hlen]⟩

end Repeat

/-- Every run of `Repeat`'s goroutine sends `0, 1, ..., k-1` in order, exact
as integers, never past `max` (past `0` when `max` is negative), so the
counter never wraps; and when no context is cancelled and the receiver takes
`max + 1` values, it has sent all of `0, ..., max` and closed the channel. -/
theorem repeat_run (max_ : List Int64) (sels : List RepeatSelect) :
    (∃ k : Nat, (DotFlush.repeatRun max_ sels).sent.map Int64.toInt =
        (List.range k).map Int.ofNat ∧ (k : Int) ≤ max ((repeatMax max_).toInt + 1) 1) ∧
    (0 ≤ (repeatMax max_).toInt → (repeatMax max_).toInt < sels.length →
      (∀ s ∈ sels, s = .sent) →
      (DotFlush.repeatRun max_ sels).closed = true ∧
        (DotFlush.repeatRun max_ sels).sent.map Int64.toInt =
          (List.range ((repeatMax max_).toInt.toNat + 1)).map Int.ofNat) := by
  unfold DotFlush.repeatRun
  have hinv := (RepeatState.inv_start (n := repeatMax max_)).foldl sels
  refine ⟨⟨_, hinv.sent_range, hinv.length_le⟩, fun hn hlen hsent => ?_⟩
  have hsels : sels = List.replicate sels.length .sent := List.eq_replicate_iff.mpr ⟨rfl, hsent⟩
  have hfull := foldl_step_sent_full hn sels.length hlen
  rw [← hsels] at hfull
  refine ⟨hfull.1, ?_⟩
  rw [hinv.sent_range, hfull.2]

/-- `Repeat` sends `max + 1` values: twelve for the test's `count=11`, one for
a count of 0, and `2^63` with no argument, one more than the comment's
`2^63-1` iterations. -/
theorem repeat_sends_max_plus_one :
    (DotFlush.repeatRun [11] (List.replicate 12 .sent)).sent = (List.range 12).map Int64.ofNat ∧
      (DotFlush.repeatRun [11] (List.replicate 12 .sent)).closed = true ∧
    DotFlush.repeatRun [0] [.sent] = ⟨0, [0], true⟩ ∧
    (DotFlush.repeatRun [] (List.replicate 9223372036854775808 .sent)).sent.length =
      9223372036854775808 := by
  refine ⟨by decide, by decide, by decide, ?_⟩
  have hmax := Int64.toInt_maxValue
  have hfull := (foldl_step_sent_full (n := Int64.maxValue) (by omega) 9223372036854775808
    (by omega)).2
  show ((List.replicate 9223372036854775808 RepeatSelect.sent).foldl
    (RepeatState.step Int64.maxValue) RepeatState.start).sent.length = 9223372036854775808
  rw [hfull]
  rfl

end Xtemplate
