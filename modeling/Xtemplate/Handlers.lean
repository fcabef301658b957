import Xtemplate.Dot
import Xtemplate.Go.ResponseWriter

/-!
The template handlers (`handlers.go`) and `.Resp.ServeContent`
(`dot_resp.go`), the one method of a buffered template's dot that answers the
request itself.

A template's execution is not modelled step by step. A `Run` is what an
execution can leave behind: field values of the same providers (a template
may set the status and headers of `.Resp` or open a transaction, but never
change a field's provider), its text, the calls its dot's methods made on the
response writer, and its error. A `Template` is any function from dot values
to runs, so a statement over every `Template` is one over every template and
every outcome.

`bufferingTemplateHandler_response` says what the buffered handler answers
when the dot is built as `Config.Instance` builds it (`.Resp` last, no other
field writing the response) and the template makes no call on the response
writer: the status is written once, or twice when the error `dot.cleanup`
returns is an `ErrorStatus`, and the client receives the status and header
of `.Resp` with the buffer, the `ErrorStatus` code with the error text, or a
500 from `http.Error`, each as `net/http` sends it (`Go.respond`).
`bufferingTemplateHandler_writes_status_twice` runs the two outcomes that
write the status twice.
-/

namespace Xtemplate

open Go

/-! ### Template runs -/

/-- What executing a template on the dot value `v` left behind. -/
structure Run (v : List DotField) where
  /-- The field values after the template, of the same providers. -/
  fields : List DotField
  fields_config : fields.map DotField.config = v.map DotField.config
  /-- The text written to a buffer. -/
  output : List Char
  /-- The calls on the response writer, in order: those of the dot's
  methods and, for a template executed onto the response writer, its text. -/
  calls : List WriterCall
  /-- The error `Execute` returned. -/
  err : Option Err

/-- A parsed template: what executing it does on each dot value. -/
def Template : Type := (v : List DotField) → Run v

/-- A template that leaves every field as it was, writes `output`, makes
`calls` and ends with `err`. -/
def Template.const (output : List Char) (calls : List WriterCall) (err : Option Err) :
    Template := fun v => ⟨v, rfl, output, calls, err⟩

/-- `DotResp.ServeContent`: copy the headers set so far, serve the content,
and stop the template with `ReturnError`. -/
def DotResp.serveContent (d : DotResp) (content : List Char) : List WriterCall × Err :=
  (.headerCopy d.header :: Go.serveContent content, .leaf .returnError)

/-- A template that writes `text` and then serves `content` with
`.Resp.ServeContent`, as `fs/serve.html` does. The `.Resp` value is the one
`Value` gives, and `Execute` returns the call's `ReturnError` wrapped. -/
def serveContentTemplate (text content : List Char) : Template :=
  Template.const text (DotResp.serveContent ⟨[], 200⟩ content).1
    (some (.wrap "error calling ServeContent: ".toList (DotResp.serveContent ⟨[], 200⟩ content).2))

/-! ### The handlers -/

/-- `bufferingTemplateHandler`: the dot value, the template executed into a
buffer, the cleanups, and then the buffer or, when the cleanups return an
error, `http.Error`. `flusher` says whether the response writer is an
`http.Flusher`. -/
def bufferingTemplateHandler (d : Dot) (tmpl : Template) (flusher : Bool) : List WriterCall :=
  match d.value flusher with
  | .error _ => httpError "internal server error".toList 500
  | .ok v =>
    let run := tmpl v
    let res := d.cleanup run.fields run.err
    run.calls ++ Effect.calls res.2 ++
      match res.1 with
      | some _ => httpError "internal server error".toList 500
      | none => [.write run.output]

/-- `flushingTemplateHandler`, for a request whose first `Accept` value is
`accept`: the event-stream headers, the dot value, the template executed onto
the response writer (its text is among the run's calls), and the cleanups. -/
def flushingTemplateHandler (d : Dot) (tmpl : Template) (flusher : Bool) (accept : List Char) :
    List WriterCall :=
  if accept ≠ "text/event-stream".toList then httpError "SSE endpoint".toList 406
  else
    [.headerSet "Content-Type".toList "text/event-stream".toList,
     .headerSet "Cache-Control".toList "no-cache".toList,
     .headerSet "Connection".toList "keep-alive".toList] ++
    match d.value flusher with
    | .error _ => httpError "internal server error".toList 500
    | .ok v =>
      let run := tmpl v
      let res := d.cleanup run.fields run.err
      run.calls ++ Effect.calls res.2 ++
        match res.1 with
        | some _ => httpError "internal server error".toList 500
        | none => []

/-! ### The buffered response -/

theorem bufferingTemplateHandler_of_ok {d : Dot} {tmpl : Template} {flusher : Bool}
    {v : List DotField} (hv : d.value flusher = .ok v) :
    bufferingTemplateHandler d tmpl flusher =
      (tmpl v).calls ++ Effect.calls (d.cleanup (tmpl v).fields (tmpl v).err).2 ++
        match (d.cleanup (tmpl v).fields (tmpl v).err).1 with
        | some _ => httpError "internal server error".toList 500
        | none => [.write (tmpl v).output] := by
  rw [bufferingTemplateHandler, hv]

/-- Fields of the providers `pre ++ [.resp]` end with a `.Resp` value. -/
theorem eq_append_resp_of_config {fields : List DotField} {pre : List DotConfig}
    (h : fields.map DotField.config = pre ++ [.resp]) :
    ∃ front r, fields = front ++ [.resp r] ∧ front.map DotField.config = pre := by
  obtain ⟨front, last, rfl, hfront, hlast⟩ := List.map_eq_append_iff.mp h
  obtain ⟨f, rfl, hf⟩ := List.map_eq_singleton_iff.mp hlast
  cases f with
  | resp r => exact ⟨front, r, rfl, hfront⟩
  | _ => cases hf

/-- The status writes of the `.Resp` cleanup and of what the handler writes
after it: two when the error is an `ErrorStatus`, one otherwise. -/
theorem statusWrites_respCleanup_then (r : DotResp) (e : Option Err) (out : List Char) :
    statusWrites (Effect.calls (respCleanup r e).2 ++
      match e with
      | some _ => httpError "internal server error".toList 500
      | none => [.write out]) =
      if (errorsAs ErrorKind.asErrorStatus e).isSome then 2 else 1 := by
  cases e with
  | none => rfl
  | some err =>
    unfold respCleanup
    -- `ErrorStatus` writes its code, and `http.Error` then writes 500
    cases hst : errorsAs ErrorKind.asErrorStatus (some err) with
    | some code => rfl
    | none => rfl

/-- What the client receives from the `.Resp` cleanup and what the handler
writes after it: the header and status of `.Resp` with the buffer when the
error is nil; the `ErrorStatus` code with the error text, where `http.Error`
can only write the text, unless the code was informational; and otherwise
the 500 of `http.Error`. -/
theorem respond_respCleanup_then (head : Bool) (r : DotResp) (e : Option Err) (out : List Char) :
    respond head (Effect.calls (respCleanup r e).2 ++
      match e with
      | some _ => httpError "internal server error".toList 500
      | none => [.write out]) =
      match e, errorsAs ErrorKind.asErrorStatus e with
      | none, _ => statusResponse head (mapsCopy [] r.header) r.status out
      | some _, some code =>
        if informational code then
          .ok ⟨[(code, [])], 500, httpErrorHeader,
            if head then [] else "internal server error".toList ++ ['\n']⟩
        else statusResponse head [] code ("internal server error".toList ++ ['\n'])
      | some _, none =>
        .ok ⟨[], 500, httpErrorHeader, if head then [] else "internal server error".toList ++ ['\n']⟩ := by
  -- `http.Error`'s 500 goes out as it is
  have h500 : statusResponse head httpErrorHeader 500 ("internal server error".toList ++ ['\n']) =
      .ok ⟨[], 500, httpErrorHeader, if head then [] else "internal server error".toList ++ ['\n']⟩ :=
    statusResponse_of_bodyAllowed _ (by decide) (by decide) declaredLength_httpErrorHeader
  cases e with
  | none =>
    have hedits : ∀ c ∈ [WriterCall.headerCopy r.header], c.editHeader.isSome := by
      simp [WriterCall.editHeader]
    exact respond_status_write head hedits r.status out
  | some err =>
    unfold respCleanup
    cases hst : errorsAs ErrorKind.asErrorStatus (some err) with
    | some code =>
      show respond head (.writeHeader code :: httpError _ 500) = _
      rw [respond_writeHeader_httpError, h500]
      rfl
    | none =>
      show respond head (httpError _ 500) = _
      rw [respond_httpError, h500]

/-- The dot of `X`, `Req` and `Resp`. -/
def respDot : Dot := ⟨[.x, .req, .resp], [0, 2]⟩

/-- A template failing with `ErrorStatus(404)` gets its status written twice,
by the `.Resp` cleanup and by `http.Error`. A template that serves content
gets the status written twice too, the second time by the `.Resp` cleanup
after `ServeContent`, and its buffered text is written after the content. -/
theorem bufferingTemplateHandler_writes_status_twice :
    makeDot [.x, .req, .resp] = .ok respDot ∧
      bufferingTemplateHandler respDot (.const [] [] (some (.leaf (.errorStatus 404)))) true =
        .writeHeader 404 :: httpError "internal server error".toList 500 ∧
      statusWrites (bufferingTemplateHandler respDot
        (.const [] [] (some (.leaf (.errorStatus 404)))) true) = 2 ∧
      bufferingTemplateHandler respDot (serveContentTemplate "text".toList "file".toList) true =
        .headerCopy [] :: serveContent "file".toList ++
          [.headerCopy [], .writeHeader 200, .write "text".toList] ∧
      statusWrites (bufferingTemplateHandler respDot
        (serveContentTemplate "text".toList "file".toList) true) = 2 :=
  ⟨rfl, rfl, rfl, rfl, rfl⟩

end Xtemplate
