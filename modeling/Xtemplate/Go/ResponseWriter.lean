import Xtemplate.Go.Header
import Xtemplate.Go.Strconv

/-!
What the client receives from a handler's calls on its `http.ResponseWriter`:
`net/http`'s `response` (`server.go`) as a state machine over `WriterCall`s.

`WriteHeader` with a code outside 100–999 panics (`checkWriteHeaderCode`),
unless a final status has been written already, when the call is only
logged as superfluous. A 1xx code other than 101 is informational: its status
line goes out at once with the header the handler holds, less Content-Length
and Transfer-Encoding, and the response waits for its final status. Any
other code is the final status, and the header the handler holds then is the
header sent: later edits reach the handler's map only. A `Write` or `Flush`,
and the end of the handler, write status 200 when no final status has been
written.

A write reaches the body only when the final status allows one (not 1xx, 204
or 304: `bodyAllowedForStatus`), the request is not `HEAD` (whose writes are
counted and dropped), and the bytes written so far stay within a valid
Content-Length the handler set; a write past that length fails with
`ErrContentLength` and sends nothing. A status that allows no body does not
send the fields `suppressedHeaders` names.

`respond` runs the calls from a fresh writer. `Writer.Inv` holds of every
writer a run reaches (`Writer.Inv.run`), and with it every response is
well formed (`respond_wellFormed`). `statusResponse` is the closed form of
the response to a handler that sets a header, writes a status and writes a
body, which the template handlers do (`respond_status_write`).

Left out: the fields `net/http` adds itself (Date, a Content-Type sniffed from
the body when the header has none, the framing fields), trailers, and the
closed connection after a body shorter than its Content-Length.
-/

namespace Go

/-! ### Statuses -/

/-- `bodyAllowedForStatus`: 1xx, 204 and 304 responses have no body. -/
def bodyAllowedForStatus (status : Int) : Bool :=
  !(100 ≤ status && status ≤ 199) && status != 204 && status != 304

/-- A 1xx status other than 101 Switching Protocols: `WriteHeader` sends it as
an informational response. -/
def informational (code : Int) : Bool := 100 ≤ code && code ≤ 199 && code != 101

/-- The message of `checkWriteHeaderCode`'s panic. -/
def invalidCodeMessage (code : Int) : List Char :=
  "invalid WriteHeader code ".toList ++ (toString code).toList

/-- `excludedHeadersNoBody`: the fields an informational response leaves out. -/
def excludedHeadersNoBody : List (List Char) :=
  ["Content-Length".toList, "Transfer-Encoding".toList]

/-- `suppressedHeaders`: the fields a response without a body does not send. -/
def suppressedHeaders (status : Int) : List (List Char) :=
  if status = 304 then ["Content-Type".toList, "Content-Length".toList, "Transfer-Encoding".toList]
  else if bodyAllowedForStatus status then []
  else ["Content-Length".toList, "Transfer-Encoding".toList]

theorem bodyAllowedForStatus_of_informational {code : Int} (h : informational code = true) :
    bodyAllowedForStatus code = false := by
  simp only [informational, Bool.and_eq_true, decide_eq_true_eq, bne_iff_ne] at h
  simp [bodyAllowedForStatus, h.1.1, h.1.2]

@[simp] theorem suppressedHeaders_of_bodyAllowed {status : Int}
    (h : bodyAllowedForStatus status = true) : suppressedHeaders status = [] := by
  have h304 : status ≠ 304 := by
    rintro rfl
    cases h
  simp [suppressedHeaders, h304, h]

/-- The length a Content-Length value declares: `strconv.ParseInt(cl, 10, 64)`
when it succeeds with a value that is not negative. -/
def declaredLength (cl : List Char) : Option Nat :=
  match parseInt cl with
  | some v => if 0 ≤ v then some v.toNat else none
  | none => none

/-! ### Deleting fields -/

/-- The header less the fields `keys` name. -/
def Header.delAll (h : Header) (keys : List (List Char)) : Header := keys.foldl Header.del h

@[simp] theorem Header.delAll_nil (h : Header) : h.delAll [] = h := rfl

theorem Header.values_delAll (h : Header) (keys : List (List Char)) (x : List Char) :
    (h.delAll keys).values x = if keys.any (sameField x) then [] else h.values x := by
  induction keys generalizing h with
  | nil => simp
  | cons k keys ih =>
    simp only [delAll, List.foldl_cons] at ih ⊢
    rw [ih, Header.values_del, List.any_cons]
    by_cases hk : sameField x k <;> simp [hk]

/-- Deletions, as calls, delete as `delAll` does. -/
theorem sentHeaderFrom_map_headerDel (h : Header) (keys : List (List Char)) :
    sentHeaderFrom h (keys.map .headerDel) = h.delAll keys := by
  induction keys generalizing h with
  | nil => rfl
  | cons k keys ih => exact ih (h.del k)

/-! ### The response and the writer -/

/-- What the client receives: the informational responses with their
headers, then the final status, header and body. -/
structure Response where
  interim : List (Int × Header)
  status : Int
  header : Header
  body : List Char
  deriving DecidableEq, Repr

/-- The state of `net/http`'s `response` that the handler's calls change. -/
structure Writer where
  /-- Whether the request is a `HEAD` request. -/
  head : Bool
  /-- `handlerHeader`, the map `Header()` returns. -/
  header : Header
  /-- The informational responses sent. -/
  interim : List (Int × Header)
  /-- The final status and the header sent with it, once written. -/
  final : Option (Int × Header)
  /-- `contentLength`, when the handler's header declared a valid one. -/
  contentLength : Option Nat
  /-- `written`: the bytes the handler asked to write after the final status. -/
  written : Nat
  /-- The bytes sent as the body. -/
  body : List Char

/-- A writer before its final status: nothing is written yet. -/
def Writer.pending (head : Bool) (header : Header) (interim : List (Int × Header)) : Writer :=
  ⟨head, header, interim, none, none, 0, []⟩

/-- A writer whose final status `status` went out with the header `sent`,
before any write. -/
def Writer.committed (head : Bool) (header : Header) (interim : List (Int × Header))
    (status : Int) (sent : Header) : Writer :=
  ⟨head, header, interim, some (status, sent), declaredLength (sent.get "Content-Length".toList),
    0, []⟩

/-- The final status `code` written: the header held is the one sent, and a
valid Content-Length in it bounds the body. `net/http` reads the length with
the exact key `Content-Length`, which `Header.get` looks up unchanged since it
is canonical. An invalid length is then deleted from the handler's map only,
which is not sent, so that is not modelled. -/
def Writer.commit (w : Writer) (code : Int) : Writer :=
  { w with final := some (code, w.header),
           contentLength := declaredLength (w.header.get "Content-Length".toList) }

/-- `response.WriteHeader(code)`. -/
def Writer.writeHeader (w : Writer) (code : Int) : Except (List Char) Writer :=
  match w.final with
  -- a superfluous call is logged and ignored, whatever its code
  | some _ => .ok w
  | none =>
    if code < 100 ∨ 999 < code then .error (invalidCodeMessage code)
    else if informational code then
      .ok { w with interim := w.interim ++ [(code, w.header.delAll excludedHeadersNoBody)] }
    else .ok (w.commit code)

/-- What a `Write` of `data` does once the final status is `status`: nothing
for no bytes or a status without a body, and otherwise the bytes are counted
and sent if the count stays within the declared length. -/
def Writer.append (w : Writer) (status : Int) (data : List Char) : Writer :=
  if data = [] ∨ bodyAllowedForStatus status = false then w
  else if w.contentLength.all (w.written + data.length ≤ ·) then
    -- the connection's writer drops the bytes of a `HEAD` response
    { w with written := w.written + data.length,
             body := if w.head then w.body else w.body ++ data }
  else { w with written := w.written + data.length }

@[simp] theorem Writer.append_head (w : Writer) (status : Int) (data : List Char) :
    (w.append status data).head = w.head := by
  unfold Writer.append
  split_ifs <;> rfl

@[simp] theorem Writer.append_final (w : Writer) (status : Int) (data : List Char) :
    (w.append status data).final = w.final := by
  unfold Writer.append
  split_ifs <;> rfl

@[simp] theorem Writer.append_contentLength (w : Writer) (status : Int) (data : List Char) :
    (w.append status data).contentLength = w.contentLength := by
  unfold Writer.append
  split_ifs <;> rfl

/-- `response.Write(data)`: status 200 first if no final status was written. -/
def Writer.write (w : Writer) (data : List Char) : Writer :=
  match w.final with
  | some (status, _) => w.append status data
  | none => (w.commit 200).append 200 data

theorem Writer.write_pending (head : Bool) (h : Header) (i : List (Int × Header))
    (data : List Char) :
    (Writer.pending head h i).write data = ((Writer.pending head h i).commit 200).append 200 data :=
  rfl

theorem Writer.commit_pending (head : Bool) (h : Header) (i : List (Int × Header)) (code : Int) :
    (Writer.pending head h i).commit code = Writer.committed head h i code h := rfl

theorem Writer.write_commit (w : Writer) (code : Int) (data : List Char) :
    (w.commit code).write data = (w.commit code).append code data := rfl

/-- `response.Flush()`: status 200 if no final status was written. -/
def Writer.flush (w : Writer) : Writer :=
  match w.final with
  | some _ => w
  | none => w.commit 200

/-- One call on the writer; only `WriteHeader` can panic. -/
def Writer.call (w : Writer) : WriterCall → Except (List Char) Writer
  | .headerSet key value => .ok { w with header := w.header.set key value }
  | .headerAdd key value => .ok { w with header := w.header.add key value }
  | .headerDel key => .ok { w with header := w.header.del key }
  | .headerCopy src => .ok { w with header := mapsCopy w.header src }
  | .writeHeader code => w.writeHeader code
  | .write bytes => .ok (w.write bytes)
  | .flush => .ok w.flush

/-- The calls in order, up to a panic. -/
def Writer.run (w : Writer) : List WriterCall → Except (List Char) Writer
  | [] => .ok w
  | c :: calls =>
    match w.call c with
    | .ok w' => w'.run calls
    | .error msg => .error msg

/-- `finishRequest`: the response, with status 200 if none was written. -/
def Writer.finish (w : Writer) : Response :=
  match w.final with
  | some (status, header) => ⟨w.interim, status, header.delAll (suppressedHeaders status), w.body⟩
  -- no final status means no write either, and status 200 allows the empty body
  | none => ⟨w.interim, 200, w.header, w.body⟩

/-- What a handler that makes `calls` sends on a request, `HEAD` or not: the
response, or the message of the panic that stops the handler, after which
`net/http` closes the connection. -/
def respond (head : Bool) (calls : List WriterCall) : Except (List Char) Response :=
  ((Writer.pending head [] []).run calls).map Writer.finish

/-! ### One call -/

section Calls

variable {head : Bool} {h : Header} {i : List (Int × Header)}

@[simp] theorem Writer.run_nil (w : Writer) : w.run [] = .ok w := rfl

theorem Writer.run_cons_of_call {w w' : Writer} {c : WriterCall} (hc : w.call c = .ok w')
    (calls : List WriterCall) : w.run (c :: calls) = w'.run calls := by
  simp [Writer.run, hc]

/-- A header edit before the final status changes only the header. -/
def WriterCall.editHeader : WriterCall → Option (Header → Header)
  | .headerSet key value => some (·.set key value)
  | .headerAdd key value => some (·.add key value)
  | .headerDel key => some (·.del key)
  | .headerCopy src => some (mapsCopy · src)
  | .writeHeader _ | .write _ | .flush => none

theorem Writer.call_of_editHeader {c : WriterCall} {f : Header → Header}
    (hc : c.editHeader = some f) (w : Writer) : w.call c = .ok { w with header := f w.header } := by
  cases c <;> cases hc <;> rfl

/-- Header edits change the handler's header as `sentHeaderFrom` applies them. -/
theorem Writer.run_edits {calls : List WriterCall} (hc : ∀ c ∈ calls, c.editHeader.isSome)
    (w : Writer) (rest : List WriterCall) :
    w.run (calls ++ rest) = { w with header := sentHeaderFrom w.header calls }.run rest := by
  induction calls generalizing w with
  | nil => rfl
  | cons c calls ih =>
    obtain ⟨f, hf⟩ := Option.isSome_iff_exists.mp (hc c List.mem_cons_self)
    rw [List.cons_append, Writer.run_cons_of_call (Writer.call_of_editHeader hf _)]
    have hsent : sentHeaderFrom w.header (c :: calls) = sentHeaderFrom (f w.header) calls := by
      cases c <;> cases hf <;> rfl
    rw [hsent]
    exact ih (fun c hc' => hc c (List.mem_cons_of_mem _ hc')) _

/-- After edits, the header is the one the edits leave, whatever follows. -/
theorem sentHeaderFrom_append {calls : List WriterCall} (hc : ∀ c ∈ calls, c.editHeader.isSome)
    (h : Header) (rest : List WriterCall) :
    sentHeaderFrom h (calls ++ rest) = sentHeaderFrom (sentHeaderFrom h calls) rest := by
  induction calls generalizing h with
  | nil => rfl
  | cons c calls ih =>
    have hc' := hc c List.mem_cons_self
    have hrest : ∀ c ∈ calls, c.editHeader.isSome := fun c hc'' => hc c (List.mem_cons_of_mem _ hc'')
    cases c <;> first | exact ih hrest _ | cases hc'

/-- Whether a call leaves the field `x` of the header as it is. -/
def WriterCall.keepsField (x : List Char) : WriterCall → Bool
  | .headerSet key _ | .headerAdd key _ | .headerDel key => !sameField x key
  | .headerCopy _ => false
  | .writeHeader _ | .write _ | .flush => true

/-- Calls that keep a field send it as the writer held it. -/
theorem values_sentHeaderFrom_of_keepsField {x : List Char} {calls : List WriterCall}
    (hc : ∀ c ∈ calls, c.keepsField x) (h : Header) :
    (sentHeaderFrom h calls).values x = h.values x := by
  induction calls generalizing h with
  | nil => rfl
  | cons c calls ih =>
    have hc' := hc c List.mem_cons_self
    have hrest : ∀ c ∈ calls, c.keepsField x := fun c hc'' => hc c (List.mem_cons_of_mem _ hc'')
    cases c with
    | headerSet key value =>
      simp only [WriterCall.keepsField, Bool.not_eq_true'] at hc'
      rw [sentHeaderFrom, ih hrest, Header.values_set, hc', if_neg Bool.false_ne_true]
    | headerAdd key value =>
      simp only [WriterCall.keepsField, Bool.not_eq_true'] at hc'
      rw [sentHeaderFrom, ih hrest, Header.values_add, hc', if_neg Bool.false_ne_true]
    | headerDel key =>
      simp only [WriterCall.keepsField, Bool.not_eq_true'] at hc'
      rw [sentHeaderFrom, ih hrest, Header.values_del, hc', if_neg Bool.false_ne_true]
    | headerCopy src => cases hc'
    | writeHeader | write | flush => rfl

theorem get_sentHeaderFrom_of_keepsField {x : List Char} {calls : List WriterCall}
    (hc : ∀ c ∈ calls, c.keepsField x) (h : Header) :
    (sentHeaderFrom h calls).get x = h.get x := by
  rw [Header.get, Header.get, values_sentHeaderFrom_of_keepsField hc]

theorem Writer.writeHeader_pending (code : Int) :
    (Writer.pending head h i).writeHeader code =
      if code < 100 ∨ 999 < code then .error (invalidCodeMessage code)
      else if informational code then
        .ok (Writer.pending head h (i ++ [(code, h.delAll excludedHeadersNoBody)]))
      else .ok ((Writer.pending head h i).commit code) := rfl

end Calls

/-! ### The invariant of a run -/

/-- What every writer a run reaches satisfies: before the final status
nothing is written, the final status is valid and not informational, no body
is sent for a `HEAD` request or a status without one, and the body stays
within what was counted and within the declared length. -/
structure Writer.Inv (w : Writer) : Prop where
  pending : w.final = none → w.contentLength = none ∧ w.written = 0 ∧ w.body = []
  valid : ∀ p ∈ w.final, 100 ≤ p.1 ∧ p.1 ≤ 999 ∧ informational p.1 = false
  length : ∀ p ∈ w.final, w.contentLength = declaredLength (p.2.get "Content-Length".toList)
  body_nil : (w.head ∨ ∃ p ∈ w.final, bodyAllowedForStatus p.1 = false) → w.body = []
  body_le : w.body.length ≤ w.written ∧ ∀ n ∈ w.contentLength, w.body.length ≤ n

theorem Writer.inv_pending (head : Bool) (h : Header) (i : List (Int × Header)) :
    (Writer.pending head h i).Inv where
  pending _ := ⟨rfl, rfl, rfl⟩
  valid := by simp [Writer.pending]
  length := by simp [Writer.pending]
  body_nil _ := rfl
  body_le := by simp [Writer.pending]

theorem Writer.Inv.commit {w : Writer} (hw : w.Inv) (hf : w.final = none) {code : Int}
    (hcode : 100 ≤ code ∧ code ≤ 999 ∧ informational code = false) : (w.commit code).Inv := by
  obtain ⟨-, -, hbody⟩ := hw.pending hf
  constructor
  · simp [Writer.commit]
  · simpa [Writer.commit] using hcode
  · simp [Writer.commit]
  · intro _
    exact hbody
  · simp [Writer.commit, hbody]

theorem Writer.Inv.append {w : Writer} (hw : w.Inv) {status : Int} {header : Header}
    (hf : w.final = some (status, header)) (data : List Char) : (w.append status data).Inv := by
  by_cases hskip : data = [] ∨ bodyAllowedForStatus status = false
  · rw [Writer.append, if_pos hskip]
    exact hw
  have hallowed : bodyAllowedForStatus status = true := by simpa using (not_or.mp hskip).2
  have hpending : w.final = none → False := by simp [hf]
  have hle := hw.body_le
  by_cases hfits : w.contentLength.all (w.written + data.length ≤ ·)
  · rw [Writer.append, if_neg hskip, if_pos hfits]
    -- a sent write keeps the body within the count and the declared length
    have hfits' : ∀ n ∈ w.contentLength, w.written + data.length ≤ n := by
      intro n hn
      rw [Option.mem_def] at hn
      simpa [hn] using hfits
    refine ⟨fun h => (hpending h).elim, hw.valid, hw.length, ?_, ?_, fun n hn => ?_⟩
    · rintro (hhead | ⟨p, hp, hp'⟩)
      · have hhead' : w.head = true := hhead
        rw [if_pos hhead']
        exact hw.body_nil (.inl hhead')
      · rw [hf, Option.mem_def, Option.some_inj] at hp
        subst hp
        simp [hallowed] at hp'
    · split <;> simp <;> omega
    · have := hfits' n hn
      split <;> simp <;> omega
  · rw [Writer.append, if_neg hskip, if_neg hfits]
    exact ⟨fun h => (hpending h).elim, hw.valid, hw.length, hw.body_nil,
      ⟨by simp only; omega, hw.body_le.2⟩⟩

theorem Writer.Inv.writeHeader {w w' : Writer} (hw : w.Inv) {code : Int}
    (h : w.writeHeader code = .ok w') : w'.Inv := by
  unfold Writer.writeHeader at h
  split at h
  · cases h
    exact hw
  · rename_i hf
    split at h
    · cases h
    · rename_i hvalid
      split at h
      · cases h
        obtain ⟨hcl, hwr, hbody⟩ := hw.pending hf
        exact ⟨fun _ => ⟨hcl, hwr, hbody⟩, by simp [hf], by simp [hf], fun _ => hbody,
          hw.body_le⟩
      · rename_i hinf
        cases h
        exact hw.commit hf ⟨by omega, by omega, Bool.eq_false_iff.mpr hinf⟩

theorem Writer.Inv.write {w : Writer} (hw : w.Inv) (data : List Char) : (w.write data).Inv := by
  unfold Writer.write
  split
  · exact hw.append ‹_› data
  · rename_i hf
    exact (hw.commit hf (by decide)).append rfl data

theorem Writer.Inv.flush {w : Writer} (hw : w.Inv) : w.flush.Inv := by
  unfold Writer.flush
  split
  · exact hw
  · exact hw.commit ‹_› (by decide)

/-- Every call keeps the invariant. -/
theorem Writer.Inv.call {w w' : Writer} (hw : w.Inv) {c : WriterCall} (h : w.call c = .ok w') :
    w'.Inv := by
  cases c with
  | writeHeader code => exact hw.writeHeader h
  | write bytes =>
    cases h
    exact hw.write bytes
  | flush =>
    cases h
    exact hw.flush
  | headerSet | headerAdd | headerDel | headerCopy =>
    cases h
    exact { hw with }

/-- The request's method is the writer's from the start. -/
theorem Writer.head_call {w w' : Writer} {c : WriterCall} (h : w.call c = .ok w') :
    w'.head = w.head := by
  cases c with
  | writeHeader code =>
    change w.writeHeader code = .ok w' at h
    unfold Writer.writeHeader at h
    split at h
    · cases h
      rfl
    · split at h
      · cases h
      · split at h <;> cases h <;> rfl
  | write bytes =>
    cases h
    unfold Writer.write
    split <;> simp [Writer.commit]
  | flush =>
    cases h
    unfold Writer.flush
    split <;> rfl
  | headerSet | headerAdd | headerDel | headerCopy =>
    cases h
    rfl

theorem Writer.head_run {w w' : Writer} {calls : List WriterCall} (h : w.run calls = .ok w') :
    w'.head = w.head := by
  induction calls generalizing w with
  | nil =>
    cases h
    rfl
  | cons c calls ih =>
    simp only [Writer.run] at h
    split at h
    · exact (ih h).trans (Writer.head_call ‹_›)
    · cases h

/-- Every run keeps the invariant. -/
theorem Writer.Inv.run {w w' : Writer} (hw : w.Inv) {calls : List WriterCall}
    (h : w.run calls = .ok w') : w'.Inv := by
  induction calls generalizing w with
  | nil =>
    cases h
    exact hw
  | cons c calls ih =>
    simp only [Writer.run] at h
    split at h
    · exact ih (hw.call ‹_›) h
    · cases h

/-- **What any handler sends.** A response that is sent has a valid final
status that is not informational, no body for a `HEAD` request or a status
without one, and no more bytes than a Content-Length it sends declares. -/
theorem respond_wellFormed {head : Bool} {calls : List WriterCall} {r : Response}
    (h : respond head calls = .ok r) :
    100 ≤ r.status ∧ r.status ≤ 999 ∧ informational r.status = false ∧
      ((head ∨ bodyAllowedForStatus r.status = false) → r.body = []) ∧
      ∀ n, declaredLength (r.header.get "Content-Length".toList) = some n → r.body.length ≤ n := by
  unfold respond at h
  cases hrun : (Writer.pending head [] []).run calls with
  | error msg => simp [hrun, Except.map] at h
  | ok w =>
    simp only [hrun, Except.map, Except.ok.injEq] at h
    subst h
    have hw := (Writer.inv_pending head [] []).run hrun
    have hhead : w.head = head := Writer.head_run hrun
    unfold Writer.finish
    split
    · rename_i status header hf
      obtain ⟨h100, h999, hinf⟩ := hw.valid _ hf
      refine ⟨h100, h999, hinf, fun hb => hw.body_nil ?_, fun n hn => ?_⟩
      · rcases hb with hb | hb
        · exact .inl (hhead ▸ hb)
        · exact .inr ⟨_, hf, hb⟩
      · -- a status with a body sends the header whose length bounds it
        cases hallowed : bodyAllowedForStatus status
        · simp [hw.body_nil (.inr ⟨_, hf, hallowed⟩)]
        · rw [suppressedHeaders_of_bodyAllowed hallowed, Header.delAll_nil] at hn
          exact hw.body_le.2 n (by rw [hw.length _ hf]; exact hn)
    · rename_i hf
      obtain ⟨-, -, hbody⟩ := hw.pending hf
      simp [hbody, informational]

/-! ### Runs that cannot panic -/

/-- A `WriteHeader` with a code of `codes`; other calls pass. -/
def WriterCall.statusIn (codes : List Int) : WriterCall → Bool
  | .writeHeader code => decide (code ∈ codes)
  | _ => true

section Codes

variable {codes : List Int} (hcodes : ∀ s ∈ codes, 100 ≤ s ∧ s ≤ 999 ∧ informational s = false)
include hcodes

/-- One call whose code is a final one of `codes` does not panic, and keeps
the final status 200 or one of `codes`. -/
theorem Writer.call_statusIn {w : Writer} (hw : ∀ p ∈ w.final, p.1 = 200 ∨ p.1 ∈ codes)
    {c : WriterCall} (hc : c.statusIn codes = true) :
    ∃ w', w.call c = .ok w' ∧ ∀ p ∈ w'.final, p.1 = 200 ∨ p.1 ∈ codes := by
  cases c with
  | writeHeader code =>
    have hmem : code ∈ codes := by simpa [WriterCall.statusIn] using hc
    obtain ⟨h100, h999, hinf⟩ := hcodes code hmem
    change ∃ w', w.writeHeader code = .ok w' ∧ _
    unfold Writer.writeHeader
    split
    · exact ⟨w, rfl, hw⟩
    · rw [if_neg (by omega), if_neg (by simp [hinf])]
      exact ⟨_, rfl, by simp [Writer.commit, hmem]⟩
  | write bytes =>
    refine ⟨_, rfl, ?_⟩
    unfold Writer.write
    split
    · simpa using hw
    · simp [Writer.commit]
  | flush =>
    refine ⟨_, rfl, ?_⟩
    unfold Writer.flush
    split
    · exact hw
    · simp [Writer.commit]
  | headerSet | headerAdd | headerDel | headerCopy => exact ⟨_, rfl, hw⟩

theorem Writer.run_statusIn {w : Writer} (hw : ∀ p ∈ w.final, p.1 = 200 ∨ p.1 ∈ codes)
    {calls : List WriterCall} (hcalls : calls.all (·.statusIn codes) = true) :
    ∃ w', w.run calls = .ok w' ∧ ∀ p ∈ w'.final, p.1 = 200 ∨ p.1 ∈ codes := by
  induction calls generalizing w with
  | nil => exact ⟨w, rfl, hw⟩
  | cons c calls ih =>
    rw [List.all_cons, Bool.and_eq_true] at hcalls
    obtain ⟨w₁, hcall, hw₁⟩ := Writer.call_statusIn hcodes hw hcalls.1
    rw [Writer.run_cons_of_call hcall]
    exact ih hw₁ hcalls.2

/-- **A handler whose every `WriteHeader` code is a final one of `codes`**
does not panic, and the client gets status 200 or one of `codes`. -/
theorem respond_statusIn (head : Bool) {calls : List WriterCall}
    (hcalls : calls.all (·.statusIn codes) = true) :
    ∃ r, respond head calls = .ok r ∧ (r.status = 200 ∨ r.status ∈ codes) := by
  obtain ⟨w, hrun, hw⟩ := Writer.run_statusIn hcodes (w := Writer.pending head [] [])
    (by simp [Writer.pending]) hcalls
  refine ⟨w.finish, by rw [respond, hrun]; rfl, ?_⟩
  unfold Writer.finish
  split
  · rename_i status header hf
    exact hw _ hf
  · exact .inl rfl

end Codes

/-! ### A header, a status and a body -/

/-- The response to a handler whose writer holds `h` when it writes the
status `s` and then the bytes `body`: the panic for an invalid code; for an
informational code, that response and then status 200, which the write
sends; and the body when the final status allows one, the request is not
`HEAD` and the bytes fit a Content-Length that `h` declares. -/
def statusResponse (head : Bool) (h : Header) (s : Int) (body : List Char) :
    Except (List Char) Response :=
  if s < 100 ∨ 999 < s then .error (invalidCodeMessage s)
  else
    let status := if informational s then 200 else s
    .ok ⟨if informational s then [(s, h.delAll excludedHeadersNoBody)] else [], status,
      h.delAll (suppressedHeaders status),
      if !head && bodyAllowedForStatus status &&
          (declaredLength (h.get "Content-Length".toList)).all (body.length ≤ ·) then body
      else []⟩

/-- The one write after the final status, on a writer that had written nothing. -/
theorem Writer.finish_committed_append (head : Bool) (header : Header) (i : List (Int × Header))
    (status : Int) (sent : Header) (body : List Char) :
    ((Writer.committed head header i status sent).append status body).finish =
      ⟨i, status, sent.delAll (suppressedHeaders status),
        if !head && bodyAllowedForStatus status &&
            (declaredLength (sent.get "Content-Length".toList)).all (body.length ≤ ·) then body
        else []⟩ := by
  rw [Writer.finish, Writer.append_final]
  simp only [Writer.committed, Response.mk.injEq, true_and]
  unfold Writer.append
  by_cases hbody : body = []
  · simp [hbody]
  by_cases hallowed : bodyAllowedForStatus status = false
  · simp [hallowed]
  by_cases hfits : (declaredLength (sent.get "Content-Length".toList)).all (body.length ≤ ·)
  · simp only [hbody, hallowed, Nat.zero_add, hfits, if_true]
    cases head <;> simp_all
  · simp only [hbody, hallowed, Nat.zero_add, hfits]
    simp

/-- A handler that writes the status `s` and then `body`, on a writer holding
`h` after the informational responses `i`, gets `statusResponse`. -/
theorem Writer.run_status_write (head : Bool) (h : Header) (i : List (Int × Header)) (s : Int)
    (body : List Char) :
    ((Writer.pending head h i).run [.writeHeader s, .write body]).map Writer.finish =
      (statusResponse head h s body).map fun r => { r with interim := i ++ r.interim } := by
  simp only [Writer.run, Writer.call, Writer.writeHeader_pending, statusResponse]
  by_cases hinvalid : s < 100 ∨ 999 < s
  · simp [hinvalid, Except.map]
  by_cases hinf : informational s
  · -- the write after an informational status writes status 200
    simp only [hinvalid, hinf, if_false, if_true]
    show Except.ok ((Writer.pending head h _).write body).finish = _
    rw [Writer.write_pending, Writer.commit_pending, Writer.finish_committed_append]
    rfl
  · simp only [hinvalid, hinf, if_false, Bool.false_eq_true]
    show Except.ok (((Writer.pending head h i).commit s).write body).finish = _
    rw [Writer.write_commit, Writer.commit_pending, Writer.finish_committed_append]
    simp only [Except.map, List.append_nil]

/-- **A handler that edits its header, writes a status and writes a body**
gets `statusResponse` on the header its edits leave. -/
theorem respond_status_write (head : Bool) {edits : List WriterCall}
    (hedits : ∀ c ∈ edits, c.editHeader.isSome) (s : Int) (body : List Char) :
    respond head (edits ++ [.writeHeader s, .write body]) =
      statusResponse head (sentHeader edits) s body := by
  rw [respond, Writer.run_edits hedits]
  refine (Writer.run_status_write head (sentHeader edits) [] s body).trans ?_
  cases statusResponse head (sentHeader edits) s body <;> rfl

/-- A handler that writes the status `s` and nothing else, on a writer
holding `h` after the informational responses `i`, gets `statusResponse`
with the empty body. -/
theorem Writer.run_status (head : Bool) (h : Header) (i : List (Int × Header)) (s : Int) :
    ((Writer.pending head h i).run [.writeHeader s]).map Writer.finish =
      (statusResponse head h s []).map fun r => { r with interim := i ++ r.interim } := by
  simp only [Writer.run, Writer.call, Writer.writeHeader_pending, statusResponse]
  by_cases hinvalid : s < 100 ∨ 999 < s
  · simp [hinvalid, Except.map]
  by_cases hinf : informational s
  · -- the informational response, and status 200 when the handler ends
    have h200 : bodyAllowedForStatus 200 = true := by decide
    simp only [hinvalid, hinf, if_false, if_true, Except.map, Writer.finish, Writer.pending,
      suppressedHeaders_of_bodyAllowed h200, Header.delAll_nil, ite_self]
  · simp only [hinvalid, hinf, if_false, Bool.false_eq_true, Except.map, Writer.finish,
      Writer.commit_pending, Writer.committed, ite_self, List.append_nil]

/-- **A handler that edits its header and writes a status**, and writes no
body, gets `statusResponse` with the empty body. -/
theorem respond_status (head : Bool) {edits : List WriterCall}
    (hedits : ∀ c ∈ edits, c.editHeader.isSome) (s : Int) :
    respond head (edits ++ [.writeHeader s]) = statusResponse head (sentHeader edits) s [] := by
  rw [respond, Writer.run_edits hedits]
  refine (Writer.run_status head (sentHeader edits) [] s).trans ?_
  cases statusResponse head (sentHeader edits) s [] <;> rfl

/-- A `HEAD` request gets no body, whatever the handler writes. -/
theorem statusResponse_head (h : Header) (s : Int) (body : List Char) :
    statusResponse true h s body = statusResponse true h s [] := by
  unfold statusResponse
  split <;> simp

/-- A handler that writes its body only when the request is not `HEAD`, as
`ServeContent` does, gets `statusResponse` with that body. -/
theorem respond_status_unlessHead (head : Bool) {edits : List WriterCall}
    (hedits : ∀ c ∈ edits, c.editHeader.isSome) (s : Int) (body : List Char) :
    respond head (edits ++ .writeHeader s :: if head then [] else [.write body]) =
      statusResponse head (sentHeader edits) s body := by
  cases head
  · exact respond_status_write false hedits s body
  · rw [statusResponse_head]
    exact respond_status true hedits s

/-- A final status with no body: the header less the fields the status does
not send. -/
theorem statusResponse_nil {head : Bool} {h : Header} {s : Int} (hs : 100 ≤ s ∧ s ≤ 999)
    (hinf : informational s = false) :
    statusResponse head h s [] = .ok ⟨[], s, h.delAll (suppressedHeaders s), []⟩ := by
  have hvalid : ¬(s < 100 ∨ 999 < s) := by omega
  simp only [statusResponse, hvalid, hinf, if_false, Bool.false_eq_true, ite_self]

/-- A status that allows a body, on a header that declares no length: the
header and the body are sent as they are, the body only if the request is
not `HEAD`. -/
theorem statusResponse_of_bodyAllowed {head : Bool} {h : Header} {s : Int} (body : List Char)
    (hs : 200 ≤ s ∧ s ≤ 999) (hallowed : bodyAllowedForStatus s = true)
    (hlength : declaredLength (h.get "Content-Length".toList) = none) :
    statusResponse head h s body = .ok ⟨[], s, h, if head then [] else body⟩ := by
  have hinf : informational s = false := by simp [informational]; omega
  have hvalid : ¬(s < 100 ∨ 999 < s) := by omega
  simp only [statusResponse, hvalid, hinf, hallowed, hlength, if_false, Bool.false_eq_true,
    suppressedHeaders_of_bodyAllowed hallowed, Header.delAll_nil]
  cases head <;> rfl

/-! ### `http.Error` -/

/-- The header `http.Error` leaves on an empty one. -/
def httpErrorHeader : Header :=
  [("Content-Type".toList, ["text/plain; charset=utf-8".toList]),
   ("X-Content-Type-Options".toList, ["nosniff".toList])]

theorem httpError_eq (error : List Char) (code : Int) :
    httpError error code =
      [.headerDel "Content-Length".toList,
       .headerSet "Content-Type".toList "text/plain; charset=utf-8".toList,
       .headerSet "X-Content-Type-Options".toList "nosniff".toList] ++
      [.writeHeader code, .write (error ++ ['\n'])] := rfl

theorem sentHeader_httpError_edits :
    sentHeader [.headerDel "Content-Length".toList,
      .headerSet "Content-Type".toList "text/plain; charset=utf-8".toList,
      .headerSet "X-Content-Type-Options".toList "nosniff".toList] = httpErrorHeader := by
  decide

/-- `http.Error` leaves no `Content-Length`, so its message is sent whole. -/
theorem declaredLength_httpErrorHeader :
    declaredLength (httpErrorHeader.get "Content-Length".toList) = none := by
  have hvalues : httpErrorHeader.values "Content-Length".toList = [] := by
    rw [← sentHeader_httpError_edits]
    simp (disch := simp) only [sentHeader, sentHeaderFrom, Header.values_set, Header.values_del,
      sameField_self, sameField_of_length_ne, if_true, if_false, Bool.false_eq_true]
  rw [Header.get, hvalues]
  rfl

/-- `http.Error` as the handler's only calls: its status, its two fields, and
its message with a newline. -/
theorem respond_httpError (head : Bool) (error : List Char) (code : Int) :
    respond head (httpError error code) = statusResponse head httpErrorHeader code (error ++ ['\n']) := by
  rw [httpError_eq, respond_status_write head (by decide), sentHeader_httpError_edits]

/-- `http.Error` after a `WriteHeader(c)`: for a final `c`, its status and
fields are superfluous and only its message is written; after an
informational `c`, it is sent as it is. -/
theorem respond_writeHeader_httpError (head : Bool) (c : Int) (error : List Char) (code : Int) :
    respond head (.writeHeader c :: httpError error code) =
      if informational c then
        (statusResponse head httpErrorHeader code (error ++ ['\n'])).map
          fun r => { r with interim := (c, []) :: r.interim }
      else statusResponse head [] c (error ++ ['\n']) := by
  have hedits : ∀ call ∈ [WriterCall.headerDel "Content-Length".toList,
      .headerSet "Content-Type".toList "text/plain; charset=utf-8".toList,
      .headerSet "X-Content-Type-Options".toList "nosniff".toList], call.editHeader.isSome := by
    decide
  unfold respond
  simp only [Writer.run, Writer.call, Writer.writeHeader_pending]
  by_cases hinvalid : c < 100 ∨ 999 < c
  · have hinf : informational c = false := by simp [informational]; omega
    simp [hinvalid, hinf, statusResponse, Except.map]
  by_cases hinf : informational c
  · -- the informational response, then `http.Error` in full
    simp only [hinvalid, hinf, if_false, if_true]
    rw [httpError_eq, Writer.run_edits hedits]
    refine (Writer.run_status_write head _ [(c, [])] code _).trans ?_
    rw [show sentHeaderFrom (Writer.pending head [] _).header _ = httpErrorHeader from
      sentHeader_httpError_edits]
    rfl
  · -- after the final status `c`, only the message is written
    simp only [hinvalid, hinf, if_false, Bool.false_eq_true]
    rw [httpError_eq, Writer.commit_pending, Writer.run_edits hedits]
    show Except.ok ((Writer.committed head _ [] c []).append c (error ++ ['\n'])).finish = _
    rw [Writer.finish_committed_append]
    simp [statusResponse, hinvalid, hinf]

end Go
