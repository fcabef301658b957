import Xtemplate.DotFlush
import Xtemplate.Handlers
import Xtemplate.Go.Header

/-!
What a page receives from `flushingTemplateHandler` (`handlers.go`), read by
the event-stream parser of `Xtemplate.Spec.EventStream`.

The template's run is any whose calls on the response writer are those of a
body of `SSEPiece`s: `.Flush.SendSSE` calls, `.Flush.Flush` calls, and text
made of line ends. `Received` says what such a body asks the page to have:
one event per `SendSSE` call with data, and the last event id, which the
standard carries from one event to the next. `Received.Refines` relates the
parser's buffers to it; every piece keeps the relation
(`Received.Refines.piece`), so every body does (`Received.Refines.pieces`).

`flushingTemplateHandler_streams`: on a dot with `.Flush` last, as
`Config.Instance` builds `flusherDot`, a request that accepts
`text/event-stream` gets the event-stream content type and status 200 when
the cleanups succeed, and the page receives exactly the body's events
whatever the cleanups return. After a failed cleanup `http.Error` writes its
text on a line of its own, which the parser reads as a field of no known name.
-/

namespace Xtemplate

open Go EventStream

/-! ### Bodies of event-stream templates -/

/-- A piece of an event-stream template's body, by what it writes. -/
inductive SSEPiece where
  /-- `.Flush.SendSSE` with arguments that `sseArgs` reads as these. -/
  | sendSSE (event data id retry : List Char)
  /-- `.Flush.Flush`. -/
  | flush
  /-- Template text. -/
  | text (s : List Char)

/-- The calls a piece makes on the response writer. -/
def SSEPiece.calls : SSEPiece → List WriterCall
  | .sendSSE event data id retry => sseWrites event data id retry
  | .flush => DotFlush.flush
  | .text s => [.write s]

/-- A piece the parser reads as written: arguments without a lone CR, and
text of line ends only. -/
def SSEPiece.WF : SSEPiece → Prop
  | .sendSSE event data id retry =>
    noLoneCR event = true ∧ noLoneCR data = true ∧ noLoneCR id = true ∧ noLoneCR retry = true
  | .flush => True
  | .text s => s.all (· == '\n') = true

instance (p : SSEPiece) : Decidable p.WF := by
  cases p <;> unfold SSEPiece.WF <;> infer_instance

/-! ### What a body asks the page to have -/

/-- What a page has from a stream: the events dispatched, and the last event
id. -/
structure Received where
  events : List EventStream.Event
  lastEventId : List Char
  deriving DecidableEq, Repr

/-- Nothing received yet. -/
def Received.initial : Received := ⟨[], []⟩

/-- The last event id after a call's id argument: the argument's first line,
unless the argument is empty or that line holds NULL. -/
def lastEventIdAfter (id lastEventId : List Char) : List Char :=
  if id ≠ [] ∧ '\u0000' ∉ firstLine id then firstLine id else lastEventId

/-- The event a `SendSSE` call with data dispatches. -/
def sseEvent (event data lastEventId : List Char) : EventStream.Event :=
  ⟨if firstLine event = [] then "message".toList else firstLine event, normalizeNewlines data,
    lastEventId⟩

/-- What a piece asks: a `SendSSE` call moves the last event id and, with
data, dispatches its event; flushes and line ends ask nothing. -/
def Received.step (a : Received) : SSEPiece → Received
  | .sendSSE event data id _ =>
    ⟨if data ≠ [] then a.events ++ [sseEvent event data (lastEventIdAfter id a.lastEventId)]
      else a.events, lastEventIdAfter id a.lastEventId⟩
  | .flush | .text _ => a

/-- The parser's buffers between events: nothing pending, and the spec's
events and last event id. -/
structure Received.Refines (a : Received) (st : State) : Prop where
  data_nil : st.data = []
  eventType_nil : st.eventType = []
  events_eq : st.events = a.events
  lastEventId_eq : st.lastEventIdBuffer = a.lastEventId

theorem Received.refines_init : Received.initial.Refines State.init := ⟨rfl, rfl, rfl, rfl⟩

/-! ### One piece -/

/-- The data buffer the `data` fields of a call fill. -/
def sseDataBuffer (data : List Char) : List Char :=
  if data ≠ [] then ((split (normalizeNewlines data) '\n').map (· ++ ['\n'])).flatten else []

theorem sseDataBuffer_ne_nil {data : List Char} (hd : data ≠ []) : sseDataBuffer data ≠ [] := by
  obtain ⟨q, qs, hqs⟩ := List.exists_cons_of_ne_nil (split_ne_nil (normalizeNewlines data) '\n')
  simp [sseDataBuffer, hd, hqs]

/-- The event's data is the buffer less its last LF. -/
theorem dropLast_sseDataBuffer {data : List Char} (hd : data ≠ []) :
    (sseDataBuffer data).dropLast = normalizeNewlines data := by
  rw [sseDataBuffer, if_pos hd, dropLast_flatten_map_append _ (split_ne_nil _ _)]
  exact List.intercalate_splitOn _

/-- The fields of a call, read into buffers with no data pending. -/
theorem foldl_sseFields_of_data_nil {st : State} (hdata : st.data = [])
    (event data id retry : List Char) :
    ∃ t, (sseFields event data id retry).foldl State.step st =
      { st with
          data := sseDataBuffer data,
          eventType := if event ≠ [] then firstLine event else st.eventType,
          lastEventIdBuffer := lastEventIdAfter id st.lastEventIdBuffer,
          reconnectionTime := t } := by
  obtain ⟨t, ht⟩ := foldl_sseFieldOf_retry
    ((sseFieldOf "event".toList event ++ sseDataFields data ++ sseFieldOf "id".toList id).foldl
      State.step st) retry
  refine ⟨t, ?_⟩
  rw [sseFields, List.foldl_append, ht, List.foldl_append, foldl_sseFieldOf_id, List.foldl_append,
    foldl_sseDataFields, foldl_sseFieldOf_event]
  simp only [hdata, List.nil_append, sseDataBuffer, lastEventIdAfter]

/-- Line ends alone are blank lines, each a dispatch that finds no data. -/
theorem Received.Refines.blank {a : Received} {st : State} (h : a.Refines st) {s : List Char}
    (hs : ∀ c ∈ s, c = '\n') : a.Refines ((parse s).foldl State.step st) := by
  induction s generalizing st with
  | nil => exact h
  | cons c s ih =>
    obtain rfl := hs c List.mem_cons_self
    have hparse : parse ('\n' :: s) = .dispatch :: parse s := by
      rw [parse, lines, linesFrom_lf]
      rfl
    rw [hparse, List.foldl_cons, State.step_dispatch, State.dispatch_of_nil h.data_nil]
    exact ih ⟨h.data_nil, rfl, h.events_eq, h.lastEventId_eq⟩
      (fun c hc => hs c (List.mem_cons_of_mem _ hc))

/-- **One piece.** From buffers with nothing pending, the stream a piece
writes leaves nothing pending and moves the events and the last event id as
the spec says. -/
theorem Received.Refines.piece {a : Received} {st : State} (h : a.Refines st) {p : SSEPiece}
    (hp : p.WF) : (a.step p).Refines ((parse (written p.calls)).foldl State.step st) := by
  cases p with
  | sendSSE event data id retry =>
    obtain ⟨he, hd, hi, hr⟩ := hp
    rw [SSEPiece.calls, parse_written_sseWrites he hd hi hr]
    by_cases hnil : event = [] ∧ data = [] ∧ id = [] ∧ retry = []
    · -- no argument: nothing is written, and the spec stays
      obtain ⟨rfl, rfl, rfl, rfl⟩ := hnil
      rw [if_pos (sseFields_eq_nil_iff.mpr ⟨rfl, rfl, rfl, rfl⟩),
        sseFields_eq_nil_iff.mpr ⟨rfl, rfl, rfl, rfl⟩]
      exact ⟨h.data_nil, h.eventType_nil, by simp [Received.step, h.events_eq],
        by simp [Received.step, lastEventIdAfter, h.lastEventId_eq]⟩
    · obtain ⟨t, hfields⟩ := foldl_sseFields_of_data_nil h.data_nil event data id retry
      rw [if_neg (mt sseFields_eq_nil_iff.mp hnil), List.foldl_append, hfields, List.foldl_cons,
        State.step_dispatch]
      by_cases hdata : data = []
      · -- no data: the blank line only resets the type
        rw [State.dispatch_of_nil (by simp [sseDataBuffer, hdata]), List.foldl_cons,
          State.step_dispatch, State.dispatch_of_nil (by simp [sseDataBuffer, hdata]), List.foldl_nil]
        exact ⟨by simp [sseDataBuffer, hdata], rfl, by simp [Received.step, hdata, h.events_eq],
          by simp [Received.step, h.lastEventId_eq]⟩
      · -- data: the first blank line dispatches the event, the second finds none
        have htype : (if event ≠ [] then firstLine event else st.eventType) = firstLine event := by
          by_cases hev : event = []
          · simp [hev, h.eventType_nil]
          · simp [hev]
        rw [State.dispatch_of_ne_nil (by exact sseDataBuffer_ne_nil hdata), List.foldl_cons,
          State.step_dispatch, State.dispatch_of_nil rfl, List.foldl_nil]
        refine ⟨rfl, rfl, ?_, by simp [Received.step, h.lastEventId_eq]⟩
        simp only [Received.step, if_pos hdata, h.events_eq, htype, dropLast_sseDataBuffer hdata,
          h.lastEventId_eq, sseEvent]
  | flush => exact h
  | text s =>
    rw [SSEPiece.calls, written_write, written_nil, List.append_nil]
    exact h.blank fun c hc => beq_iff_eq.mp (List.all_eq_true.mp hp c hc)

/-- The stream a piece writes ends at a line end. -/
theorem endsLine_written_calls {p : SSEPiece} (hp : p.WF) : EndsLine (written p.calls) := by
  cases p with
  | sendSSE event data id retry =>
    rw [SSEPiece.calls, sseWrites]
    split
    · exact .inl rfl
    · refine .inr ?_
      simp [written]
  | flush => exact .inl rfl
  | text s =>
    rw [SSEPiece.calls, written_write, written_nil, List.append_nil]
    cases hlast : s.getLast? with
    | none => exact .inl (List.getLast?_eq_none_iff.mp hlast)
    | some c =>
      exact .inr (hlast ▸ congrArg some
        (beq_iff_eq.mp (List.all_eq_true.mp hp c (List.mem_of_getLast? hlast))))

/-! ### A whole body -/

theorem endsLine_written_flatMap {pieces : List SSEPiece} (hp : ∀ p ∈ pieces, p.WF) :
    EndsLine (written (pieces.flatMap SSEPiece.calls)) := by
  induction pieces with
  | nil => exact .inl rfl
  | cons p pieces ih =>
    rw [List.flatMap_cons, written_append]
    exact (endsLine_written_calls (hp p List.mem_cons_self)).append
      (ih fun q hq => hp q (List.mem_cons_of_mem _ hq))

/-- **A whole body**, by induction on it with one piece at a time: the
parser's buffers after the body's stream hold what the spec asks. -/
theorem Received.Refines.pieces {a : Received} {st : State} (h : a.Refines st)
    {pieces : List SSEPiece} (hp : ∀ p ∈ pieces, p.WF) :
    (pieces.foldl Received.step a).Refines
      ((parse (written (pieces.flatMap SSEPiece.calls))).foldl State.step st) := by
  induction pieces generalizing a st with
  | nil => exact h
  | cons p pieces ih =>
    have hp₀ := hp p List.mem_cons_self
    rw [List.flatMap_cons, written_append, parse_append_of_endsLine (endsLine_written_calls hp₀),
      List.foldl_append, List.foldl_cons]
    exact ih (h.piece hp₀) fun q hq => hp q (List.mem_cons_of_mem _ hq)

theorem onBody_of_mem_sseLine {name value : List Char} :
    ∀ c ∈ sseLine name value, c.onBody = true := by
  unfold sseLine
  split <;> simp [WriterCall.onBody]

theorem onBody_of_mem_sseData {data : List Char} : ∀ c ∈ sseData data, c.onBody = true := by
  unfold sseData
  split
  · simp only [List.mem_map]
    rintro _ ⟨_, -, rfl⟩
    rfl
  · simp

/-- A piece only writes and flushes. -/
theorem SSEPiece.onBody_of_mem_calls (p : SSEPiece) : ∀ c ∈ p.calls, c.onBody = true := by
  cases p with
  | sendSSE event data id retry =>
    rw [SSEPiece.calls, sseWrites]
    split
    · simp
    · simp only [sseFieldWrites, List.mem_append, List.mem_cons, List.not_mem_nil, or_false]
      rintro c ((((hc | hc) | hc) | hc) | rfl | rfl)
      · exact onBody_of_mem_sseLine c hc
      · exact onBody_of_mem_sseData c hc
      · exact onBody_of_mem_sseLine c hc
      · exact onBody_of_mem_sseLine c hc
      · rfl
      · rfl
  | flush => simp [SSEPiece.calls, DotFlush.flush, WriterCall.onBody]
  | text s => simp [SSEPiece.calls, WriterCall.onBody]

/-! ### The cleanups of a flushing dot -/

/-- The cleanup of a field other than `.Resp` makes no call on the response
writer but `Flush`. -/
theorem DotField.calls_cleanup_flushes {f : DotField} (hf : f.config ≠ .resp) (i : Nat)
    (err : Option Err) : ∀ c ∈ Effect.calls (f.cleanup i err).2, c = .flush := by
  by_cases hw : f.config.writesResponse = false
  · rw [calls_cleanup_of_not_writes hw]
    simp
  · -- `.Flush` is the one field left
    cases f with
    | flush => cases err <;> simp [DotField.cleanup, Effect.calls]
    | resp r => exact absurd rfl hf
    | _ => exact absurd rfl hw

/-- Without a `.Resp` field, `dot.cleanup` makes no call on the response
writer but `Flush`: the walk over the cleanup indices appends one field's
calls at a time. -/
theorem Dot.calls_cleanup_flushes (d : Dot) {v : List DotField}
    (hv : ∀ f ∈ v, f.config ≠ .resp) (err : Option Err) :
    ∀ c ∈ Effect.calls (d.cleanup v err).2, c = .flush := by
  suffices hwalk : ∀ (l : List Nat) (st : Option Err × List Effect),
      (∀ c ∈ Effect.calls st.2, c = .flush) →
        ∀ c ∈ Effect.calls (l.foldl (cleanupStep v) st).2, c = .flush from
    hwalk d.cleanups (err, []) (by simp)
  intro l
  induction l with
  | nil => exact fun _ hst => hst
  | cons i l ih =>
    intro st hst
    apply ih
    unfold cleanupStep
    split
    · rename_i f hf
      simp only [Effect.calls_append, List.mem_append]
      rintro c (hc | hc)
      · exact hst c hc
      · exact DotField.calls_cleanup_flushes (hv f (List.mem_of_getElem? hf)) i st.1 c hc
    · exact hst

theorem written_of_flushes {calls : List WriterCall} (h : ∀ c ∈ calls, c = .flush) :
    written calls = [] := by
  induction calls with
  | nil => rfl
  | cons c calls ih =>
    rw [h c List.mem_cons_self]
    exact ih fun c hc => h c (List.mem_cons_of_mem _ hc)

/-! ### The handler -/

/-- **The stream of a flushing template handler.** On a dot whose last field
is `.Flush` and whose other fields do not write the response, a writer that
flushes and a request that accepts `text/event-stream`: for every template
whose calls on the response writer are those of a body of `SendSSE` calls,
`Flush` calls and line ends, the page receives exactly the events the body
asks for, one per `SendSSE` call with data in order, whatever the cleanups
return; and when they return nil, the response has status 200 and the
event-stream content type. -/
theorem flushingTemplateHandler_streams {pre : List DotConfig} {d : Dot}
    (hd : makeDot (pre ++ [.flush]) = .ok d) (hpre : ∀ c ∈ pre, c.writesResponse = false)
    {tmpl : Template} {v : List DotField} (hv : d.value true = .ok v)
    {pieces : List SSEPiece} (hwf : ∀ p ∈ pieces, p.WF)
    (hcalls : (tmpl v).calls = pieces.flatMap SSEPiece.calls) :
    (interpret (written (flushingTemplateHandler d tmpl true "text/event-stream".toList))).events =
        (pieces.foldl Received.step Received.initial).events ∧
      ((d.cleanup (tmpl v).fields (tmpl v).err).1 = none →
        sentStatus (flushingTemplateHandler d tmpl true "text/event-stream".toList) = 200 ∧
        (sentHeader (flushingTemplateHandler d tmpl true "text/event-stream".toList)).values
          "Content-Type".toList = ["text/event-stream".toList]) := by
  -- the run's fields are of the dot's providers, none of them `.Resp`
  have hfields : ∀ f ∈ (tmpl v).fields, f.config ≠ .resp := by
    intro f hf
    have hmem : f.config ∈ pre ++ [.flush] := by
      rw [← (makeDot_eq_ok hd).1, ← Dot.value_map_config hv, ← (tmpl v).fields_config]
      exact List.mem_map_of_mem hf
    rcases List.mem_append.mp hmem with hc | hc
    · intro hres
      rw [hres] at hc
      cases hpre _ hc
    · rw [List.mem_singleton.mp hc]
      intro hres
      cases hres
  have hflush := d.calls_cleanup_flushes hfields (tmpl v).err
  have hrun := Received.refines_init.pieces hwf
  rw [flushingTemplateHandler, if_neg (fun h => h rfl), hv]
  dsimp only
  cases hres : (d.cleanup (tmpl v).fields (tmpl v).err).1 with
  | none =>
    dsimp only
    refine ⟨?_, fun _ => ?_⟩
    · simp only [interpret, written_append, hcalls, written_of_flushes hflush, written, List.append_nil,
        List.nil_append]
      exact hrun.events_eq
    · -- after the three header edits, the calls only write and flush
      have hbody : ∀ c ∈ (tmpl v).calls ++ Effect.calls (d.cleanup (tmpl v).fields (tmpl v).err).2 ++ [],
          c.onBody = true := by
        intro c hc
        rcases List.mem_append.mp (List.append_nil _ ▸ hc) with hc | hc
        · obtain ⟨p, -, hc⟩ := List.mem_flatMap.mp (hcalls ▸ hc)
          exact p.onBody_of_mem_calls c hc
        · rw [hflush c hc]
          rfl
      generalize (tmpl v).calls ++ Effect.calls (d.cleanup (tmpl v).fields (tmpl v).err).2 ++ [] =
        rest at hbody ⊢
      refine ⟨show sentStatus rest = 200 from sentStatus_of_onBody hbody, ?_⟩
      rw [sentHeader, List.cons_append, List.cons_append, List.cons_append, List.nil_append,
        sentHeaderFrom, sentHeaderFrom, sentHeaderFrom, sentHeaderFrom_of_onBody _ hbody]
      decide
  | some err =>
    dsimp only
    refine ⟨?_, fun h => by cases h⟩
    -- `http.Error`'s text is a line the parser reads as a field of no known name
    have herror : parse (written (httpError "internal server error".toList 500)) =
        [.field "internal server error".toList []] := by decide
    simp only [interpret, written_append, hcalls, written_of_flushes hflush, written, List.append_nil,
      List.nil_append]
    rw [parse_append_of_endsLine (endsLine_written_flatMap hwf), herror,
      List.foldl_append, List.foldl_cons, List.foldl_nil, State.step_field,
      State.processField_other _ _ (by decide) (by decide) (by decide) (by decide)]
    exact hrun.events_eq


/-- The dot of `X`, `Req` and `Flush`. -/
def flushDot : Dot := ⟨[.x, .req, .flush], [0, 2]⟩

/-- Two events: the first typed, with CRLF data and an id; the second with
data alone, after a blank line and a flush. -/
def tickBody : List SSEPiece :=
  [.sendSSE "tick".toList "a\r\nb".toList "7".toList [], .text "\n".toList, .flush,
   .sendSSE [] "next".toList [] []]

/-- The theorem at `tickBody`: the second event is a `message` and keeps the
first one's id. -/
theorem flushingTemplateHandler_streams_tick :
    (tickBody.foldl Received.step Received.initial).events =
        [⟨"tick".toList, "a\nb".toList, "7".toList⟩, ⟨"message".toList, "next".toList, "7".toList⟩] ∧
      (interpret (written (flushingTemplateHandler flushDot
          (Template.const [] (tickBody.flatMap SSEPiece.calls) none) true
          "text/event-stream".toList))).events =
        (tickBody.foldl Received.step Received.initial).events ∧
      ((flushDot.cleanup [.x, .req, .flush] none).1 = none →
        sentStatus (flushingTemplateHandler flushDot
          (Template.const [] (tickBody.flatMap SSEPiece.calls) none) true
          "text/event-stream".toList) = 200 ∧
        (sentHeader (flushingTemplateHandler flushDot
          (Template.const [] (tickBody.flatMap SSEPiece.calls) none) true
          "text/event-stream".toList)).values "Content-Type".toList = ["text/event-stream".toList]) :=
  ⟨by decide, @flushingTemplateHandler_streams [.x, .req] flushDot rfl (by decide) _
    [.x, .req, .flush] rfl tickBody (by decide) rfl⟩

end Xtemplate
