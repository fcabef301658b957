import Mathlib.Data.List.Basic

/-!
The parts of `net/http` a handler touches.

A handler's effect on its `http.ResponseWriter` is the sequence of calls it
makes: header edits, `WriteHeader`, `Write` and `Flush`. `http.Error` is one
such sequence. How many times a status is written is read off the calls:
every `WriteHeader`, and the implicit `WriteHeader(200)` of a `Write` that
comes before any.

`http.ServeMux` is modelled by its registered patterns. Registering a
pattern that conflicts with one already registered panics; for patterns
without wildcards, the only ones the static file handler registers here, two
patterns conflict exactly when they are equal, which is the check modelled.
-/

namespace Go

/-- `http.Header`: each key with its values. -/
abbrev Header := List (List Char × List (List Char))

/-- A call a handler makes on its `http.ResponseWriter`. -/
inductive WriterCall where
  | headerSet (key value : List Char)
  | headerAdd (key value : List Char)
  | headerDel (key : List Char)
  /-- `maps.Copy(w.Header(), h)`. -/
  | headerCopy (h : Header)
  | writeHeader (code : Int)
  | write (bytes : List Char)
  | flush
  deriving DecidableEq, Repr

/-- `http.Error`: reset the content headers, write the status, and write the
message with a newline. -/
def httpError (error : List Char) (code : Int) : List WriterCall :=
  [.headerDel "Content-Length".toList,
   .headerSet "Content-Type".toList "text/plain; charset=utf-8".toList,
   .headerSet "X-Content-Type-Options".toList "nosniff".toList,
   .writeHeader code,
   .write (error ++ ['\n'])]

/-- The status writes of a call sequence, given whether a status has already
been written: an explicit `WriteHeader` always counts, and a `Write` counts as
the implicit `WriteHeader(200)` when it comes first. -/
def statusWritesFrom : Bool → List WriterCall → Nat
  | _, [] => 0
  | _, .writeHeader _ :: calls => statusWritesFrom true calls + 1
  | false, .write _ :: calls => statusWritesFrom true calls + 1
  | written, _ :: calls => statusWritesFrom written calls

/-- How many times the response status is written. -/
def statusWrites (calls : List WriterCall) : Nat := statusWritesFrom false calls

/-- The bytes of the body, in the order they were written. -/
def written : List WriterCall → List Char
  | [] => []
  | .write bytes :: calls => bytes ++ written calls
  | _ :: calls => written calls

@[simp] theorem written_nil : written [] = [] := rfl

@[simp] theorem written_append (a b : List WriterCall) :
    written (a ++ b) = written a ++ written b := by
  induction a with
  | nil => rfl
  | cons c a ih => cases c <;> simp [written, ih]

@[simp] theorem written_write (bytes : List Char) (calls : List WriterCall) :
    written (.write bytes :: calls) = bytes ++ written calls := rfl

@[simp] theorem written_flush (calls : List WriterCall) :
    written (.flush :: calls) = written calls := rfl

/-- A sequence of writes writes the concatenation of their bytes. -/
theorem written_map_write {α : Type} (f : α → List Char) (xs : List α) :
    written (xs.map fun x => .write (f x)) = (xs.map f).flatten := by
  induction xs with
  | nil => rfl
  | cons x xs ih => simp [ih]

/-- `http.NotFound`. -/
def notFound : List WriterCall := httpError "404 page not found".toList 404

/-- `http.Error` writes its status once. -/
theorem statusWrites_httpError (error : List Char) (code : Int) :
    statusWrites (httpError error code) = 1 := rfl

/-- `http.ServeContent` answering a request other than `HEAD`, without conditional or range
headers, with the zero modification time, on a response that has a
`Content-Type` and no `Content-Encoding`: the whole content, with its length
and status 200. The whole of `ServeContent` is `Request.serveContent`, which
is this call sequence on such a request (`Request.serveContent_eq_serveContent`). -/
def serveContent (content : List Char) : List WriterCall :=
  [.headerSet "Accept-Ranges".toList "bytes".toList,
   .headerSet "Content-Length".toList (toString content.length).toList,
   .writeHeader 200,
   .write content]

/-! ### `http.ServeMux` -/

/-- `http.ServeMux`, as its registered patterns. -/
abbrev ServeMux := List (List Char)

/-- `mux.HandleFunc(pattern, handler)`: the pattern is added, or the call
panics with the message `net/http` gives for a conflicting pattern. -/
def ServeMux.handleFunc (mux : ServeMux) (pattern : List Char) : Except (List Char) ServeMux :=
  if pattern ∈ mux then
    .error ("pattern \"".toList ++ pattern ++ "\" conflicts with pattern \"".toList ++
      pattern ++ "\"".toList)
  else .ok (mux ++ [pattern])

theorem ServeMux.handleFunc_eq_ok {mux : ServeMux} {pattern : List Char} (h : pattern ∉ mux) :
    mux.handleFunc pattern = .ok (mux ++ [pattern]) := by
  simp [ServeMux.handleFunc, h]

/-- A registration that does not panic adds a pattern not yet registered. -/
theorem ServeMux.eq_of_handleFunc_eq_ok {mux mux' : ServeMux} {pattern : List Char}
    (h : mux.handleFunc pattern = .ok mux') : pattern ∉ mux ∧ mux' = mux ++ [pattern] := by
  unfold ServeMux.handleFunc at h
  split at h
  · cases h
  · cases h
    exact ⟨‹_›, rfl⟩

theorem ServeMux.handleFunc_isError {mux : ServeMux} {pattern : List Char} (h : pattern ∈ mux) :
    ∃ msg, mux.handleFunc pattern = .error msg := by
  simp [ServeMux.handleFunc, h]

end Go
