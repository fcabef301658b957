import Mathlib.Data.List.DropRight
import Xtemplate.Go.ResponseWriter
import Xtemplate.Go.Path

/-!
`http.ServeContent` (`fs.go`): content served on a request, with the
request's preconditions, its `Range` and its method.

`ServeContent` sets `Last-Modified` from the modification time, unless that
is the zero time or the Unix epoch, and then evaluates the preconditions in
the order of RFC 7232 section 6 (`checkPreconditions`). A failed `If-Match`,
or without one a failed `If-Unmodified-Since`, answers 412. A matching
`If-None-Match` answers 304 to `GET` and `HEAD` (`writeNotModified`) and 412
to any other method; without an `If-None-Match`, an `If-Modified-Since` that
is not before the modification time answers 304. Otherwise the content is
served. The `Range` header, dropped when an `If-Range` does not match,
selects one range, sent as 206 with its `Content-Range`, or several, sent as
a `multipart/byteranges` body; a malformed `Range`, or one that misses the
content, answers 416, and ranges that add up to more than the content are
ignored. `Accept-Ranges: bytes` is set, `Content-Length` only when the
header has no `Content-Encoding`, and a `HEAD` request gets no body.

Entity tags are read by `scanETag`, and lists of them by `etagListMatches`,
a loop that stops at the first malformed tag. What `ServeContent` takes from
the rest of the standard library is a parameter, `ServeEnv`: the HTTP date
parser and formatter, the MIME type tables, the multipart boundary, and the
`GODEBUG` setting that decides whether an error response keeps the caller's
`Cache-Control`, `Content-Encoding`, `Etag` and `Last-Modified`. The content
is in memory, so computing its size and seeking in it cannot fail.

Every response `ServeContent` makes has one of its five statuses and no
panic (`respond_serveContent`). An unconditional request gets the content
with status 200 (`respond_serveContent_unconditional`), and a `GET` or
`HEAD` whose `If-None-Match` names the `Etag` gets 304
(`respond_serveContent_notModified`). On a plain request and a header with a
`Content-Type` and no `Content-Encoding`, it is the `serveContent` of
`Go.Http` (`Request.serveContent_eq_serveContent`).
-/

namespace Go

/-! ### Requests, times and the environment -/

/-- What `ServeContent` reads of an `http.Request`: its method, and its header,
whose keys `net/http` has canonicalized. -/
structure Request where
  method : List Char
  header : Header

/-- A `HEAD` request. -/
def Request.head (r : Request) : Bool := r.method == "HEAD".toList

/-- A `GET` or `HEAD` request, the methods a 304 answers. -/
def Request.getOrHead (r : Request) : Bool :=
  r.method == "GET".toList || r.method == "HEAD".toList

/-- The fields that make a request conditional or partial. -/
def conditionalFields : List (List Char) :=
  ["If-Match".toList, "If-Unmodified-Since".toList, "If-None-Match".toList,
   "If-Modified-Since".toList, "Range".toList]

/-- A request without any of `conditionalFields`. -/
def Request.unconditional (r : Request) : Bool :=
  conditionalFields.all fun key => r.header.get key = []

/-- A `time.Time` as `ServeContent` reads it: its Unix seconds and the
nanoseconds within the second. -/
structure Time where
  unix : Int
  nsec : Nat
  deriving DecidableEq, Repr

/-- `Time.IsZero`: the zero `time.Time`, January 1 of year 1 at midnight UTC. -/
def Time.isZero (t : Time) : Bool := t.unix == -62135596800 && t.nsec == 0

/-- `isZeroTime`: the zero time or the Unix epoch, which `ServeContent` takes
for an unknown modification time. -/
def Time.isZeroTime (t : Time) : Bool := t.isZero || (t.unix == 0 && t.nsec == 0)

/-- What `ServeContent` takes from the rest of the standard library. -/
structure ServeEnv where
  /-- `http.ParseTime`: the Unix seconds of a date in one of HTTP's three formats. -/
  parseTime : List Char → Option Int
  /-- `t.UTC().Format(http.TimeFormat)`, of a time's Unix seconds. -/
  formatTime : Int → List Char
  /-- `mime.TypeByExtension`. -/
  typeByExtension : List Char → List Char
  /-- `http.DetectContentType`. -/
  detectContentType : List Char → List Char
  /-- The random boundary of the `multipart.Writer`. -/
  boundary : List Char
  /-- `GODEBUG=httpservecontentkeepheaders=1`, the default for a main module
  whose `go` line is before 1.23. -/
  keepHeaders : Bool

/-- `h.has(key)`: the key is in the map, maybe with no values. -/
def Header.has (h : Header) (key : List Char) : Bool :=
  (List.lookup (canonicalMIMEHeaderKey key) h).isSome

theorem Header.has_of_values_ne_nil {h : Header} {key : List Char} (hv : h.values key ≠ []) :
    h.has key = true := by
  unfold Header.values at hv
  unfold Header.has
  cases hl : List.lookup (canonicalMIMEHeaderKey key) h with
  | none => simp [hl] at hv
  | some _ => rfl

/-! ### Entity tags -/

/-- `textproto`'s `isASCIISpace`. -/
def isASCIISpace (c : Char) : Bool := c == ' ' || c == '\t' || c == '\n' || c == '\r'

/-- `textproto.TrimString`: leading and trailing ASCII space removed. -/
def trimString (s : List Char) : List Char :=
  (s.dropWhile isASCIISpace).rdropWhile isASCIISpace

/-- The characters an entity tag may hold between its quotes. -/
def etagChar (c : Char) : Bool :=
  c.toNat == 0x21 || (0x23 ≤ c.toNat && c.toNat ≤ 0x7E) || 0x80 ≤ c.toNat

/-- The loop of `scanETag` after the opening quote: the tag up to and
including its closing quote, and the rest. -/
def scanETagBody : List Char → Option (List Char × List Char)
  | [] => none
  | c :: cs =>
    if c = '"' then some (['"'], cs)
    else if etagChar c then (scanETagBody cs).map fun p => (c :: p.1, p.2)
    else none

/-- `scanETag`: the entity tag `W/"…"` or `"…"` at the start of the trimmed
text, and the text after it; `none` where Go returns two empty strings. -/
def scanETag (s : List Char) : Option (List Char × List Char) :=
  let s := trimString s
  let (weak, rest) : List Char × List Char :=
    if hasPrefix s "W/".toList then ("W/".toList, s.drop 2) else ([], s)
  -- a tag shorter than two characters fails here, as `scanETagBody []` does
  match rest with
  | '"' :: body => (scanETagBody body).map fun p => (weak ++ '"' :: p.1, p.2)
  | _ => none

/-- `etagStrongMatch`: equal tags that are not weak. -/
def etagStrongMatch (a b : List Char) : Bool := a == b && a.head? == some '"'

/-- `etagWeakMatch`: equal tags once a weak prefix is removed. -/
def etagWeakMatch (a b : List Char) : Bool :=
  trimPrefix a "W/".toList == trimPrefix b "W/".toList

theorem length_trimString_le (s : List Char) : (trimString s).length ≤ s.length :=
  calc (trimString s).length ≤ (s.dropWhile isASCIISpace).length :=
        (List.rdropWhile_prefix _ _).length_le
    _ ≤ s.length := (List.dropWhile_suffix _).length_le

theorem scanETagBody_lt : ∀ {s t r : List Char}, scanETagBody s = some (t, r) →
    r.length < s.length
  | [], _, _, h => by cases h
  | c :: cs, t, r, h => by
    unfold scanETagBody at h
    split_ifs at h
    · cases h
      simp
    · obtain ⟨⟨t', r'⟩, h', hp⟩ := Option.map_eq_some_iff.mp h
      cases hp
      have := scanETagBody_lt h'
      simp only [List.length_cons]
      omega

theorem scanETag_lt {s t r : List Char} (h : scanETag s = some (t, r)) :
    r.length < s.length := by
  have htrim := length_trimString_le s
  -- the tag's body is a suffix of the trimmed text, after the quote
  have hbody : ∀ rest body weak, rest <:+ trimString s → rest = '"' :: body →
      (scanETagBody body).map (fun p => (weak ++ '"' :: p.1, p.2)) = some (t, r) →
      r.length < s.length := by
    intro rest body weak hsuffix hrest hscan
    obtain ⟨⟨t', r'⟩, h', hp⟩ := Option.map_eq_some_iff.mp hscan
    simp only [Prod.mk.injEq] at hp
    obtain ⟨-, rfl⟩ := hp
    have := scanETagBody_lt h'
    have := hsuffix.length_le
    rw [hrest, List.length_cons] at this
    omega
  unfold scanETag at h
  by_cases hw : hasPrefix (trimString s) "W/".toList
  · simp only [hw, if_true] at h
    split at h
    · exact hbody _ _ _ (List.drop_suffix 2 _) ‹_› h
    · cases h
  · simp only [hw, Bool.false_eq_true, if_false] at h
    split at h
    · exact hbody _ _ _ (List.suffix_refl _) ‹_› h
    · cases h

set_option linter.unusedVariables false in
/-- The loop of `checkIfMatch` and `checkIfNoneMatch`: whether the list holds
`*`, or a tag that `tagMatch` accepts, before its end or its first malformed tag. -/
def etagListMatches (tagMatch : List Char → Bool) (s : List Char) : Bool :=
  match h : trimString s with
  | [] => false
  | ',' :: rest => etagListMatches tagMatch rest
  | '*' :: _ => true
  | t =>
    match h' : scanETag t with
    | none => false
    | some (etag, remain) => tagMatch etag || etagListMatches tagMatch remain
termination_by s.length
decreasing_by
  · have := length_trimString_le s
    rw [h] at this
    simp only [List.length_cons] at this
    omega
  · have := length_trimString_le s
    have := scanETag_lt h'
    rw [h] at *
    omega

/-! ### Preconditions -/

/-- The result of one precondition: absent, true or false. -/
inductive CondResult where
  | condNone
  | condTrue
  | condFalse
  deriving DecidableEq, Repr

/-- What `checkPreconditions` decides: the calls of the response it has
sent, or the `Range` header to serve. -/
inductive Preconditions where
  | done (calls : List WriterCall)
  | serve (rangeHeader : List Char)

section Preconditions

variable (env : ServeEnv)

/-- `checkIfMatch`, on the writer's header `h`. -/
def checkIfMatch (h : Header) (r : Request) : CondResult :=
  let im := r.header.get "If-Match".toList
  if im = [] then .condNone
  else if etagListMatches (etagStrongMatch · (h.get "Etag".toList)) im then .condTrue
  else .condFalse

/-- `checkIfUnmodifiedSince`. -/
def checkIfUnmodifiedSince (r : Request) (modtime : Time) : CondResult :=
  let ius := r.header.get "If-Unmodified-Since".toList
  if ius = [] ∨ modtime.isZeroTime then .condNone
  else
    match env.parseTime ius with
    | none => .condNone
    -- the modification time to the second, as `Last-Modified` shows it
    | some t => if modtime.unix ≤ t then .condTrue else .condFalse

/-- `checkIfNoneMatch`, on the writer's header `h`. -/
def checkIfNoneMatch (h : Header) (r : Request) : CondResult :=
  let inm := r.header.get "If-None-Match".toList
  if inm = [] then .condNone
  else if etagListMatches (etagWeakMatch · (h.get "Etag".toList)) inm then .condFalse
  else .condTrue

/-- `checkIfModifiedSince`. -/
def checkIfModifiedSince (r : Request) (modtime : Time) : CondResult :=
  if !r.getOrHead then .condNone
  else
    let ims := r.header.get "If-Modified-Since".toList
    if ims = [] ∨ modtime.isZeroTime then .condNone
    else
      match env.parseTime ims with
      | none => .condNone
      | some t => if modtime.unix ≤ t then .condFalse else .condTrue

/-- `checkIfRange`, on the writer's header `h`. -/
def checkIfRange (h : Header) (r : Request) (modtime : Time) : CondResult :=
  if !r.getOrHead then .condNone
  else
    let ir := r.header.get "If-Range".toList
    if ir = [] then .condNone
    else
      match scanETag ir with
      | some (etag, _) =>
        if etagStrongMatch etag (h.get "Etag".toList) then .condTrue else .condFalse
      -- the value may also be the modification time's date
      | none =>
        if modtime.isZero then .condFalse
        else
          match env.parseTime ir with
          | some t => if t = modtime.unix then .condTrue else .condFalse
          | none => .condFalse

/-- `writeNotModified`: status 304, without the content's type, length and
encoding, and without `Last-Modified` when there is an `Etag`. Go deletes the
map entries by their exact keys, which are canonical. -/
def writeNotModified (h : Header) : List WriterCall :=
  [.headerDel "Content-Type".toList, .headerDel "Content-Length".toList,
   .headerDel "Content-Encoding".toList] ++
  (if h.get "Etag".toList ≠ [] then [.headerDel "Last-Modified".toList] else []) ++
  [.writeHeader 304]

/-- `checkPreconditions`, on the writer's header `h`. -/
def checkPreconditions (h : Header) (r : Request) (modtime : Time) : Preconditions :=
  let ch := match checkIfMatch h r with
    | .condNone => checkIfUnmodifiedSince env r modtime
    | ch => ch
  if ch = .condFalse then .done [.writeHeader 412]
  else
    let rangeHeader := r.header.get "Range".toList
    let serve : Preconditions :=
      .serve (if rangeHeader ≠ [] ∧ checkIfRange env h r modtime = .condFalse then []
        else rangeHeader)
    match checkIfNoneMatch h r with
    | .condFalse => if r.getOrHead then .done (writeNotModified h) else .done [.writeHeader 412]
    | .condNone =>
      if checkIfModifiedSince env r modtime = .condFalse then .done (writeNotModified h)
      else serve
    | .condTrue => serve

end Preconditions

/-! ### Ranges -/

/-- `httpRange`: a range's first byte and its length. -/
structure HttpRange where
  start : Int
  length : Int
  deriving DecidableEq, Repr

/-- `httpRange.contentRange`. -/
def HttpRange.contentRange (ra : HttpRange) (size : Int) : List Char :=
  "bytes ".toList ++ (toString ra.start).toList ++ ['-'] ++
    (toString (ra.start + ra.length - 1)).toList ++ ['/'] ++ (toString size).toList

/-- The bytes of the content a range selects: a seek to its start and a copy
of its length. -/
def HttpRange.slice (ra : HttpRange) (content : List Char) : List Char :=
  (content.drop ra.start.toNat).take ra.length.toNat

/-- The errors of `parseRange`. -/
inductive RangeError where
  | invalid
  | noOverlap
  deriving DecidableEq, Repr

/-- The messages of the errors, which the 416 response carries. -/
def RangeError.message : RangeError → List Char
  | .invalid => "invalid range".toList
  | .noOverlap => "invalid range: failed to overlap".toList

/-- One range of a `Range` header, trimmed and not empty: the range, or
`none` for one that starts past the content. -/
def parseOneRange (size : Int) (ra : List Char) : Except RangeError (Option HttpRange) :=
  if '-' ∉ ra then .error .invalid
  else
    let start := trimString (ra.takeWhile (· != '-'))
    let stop := trimString (ra.dropWhile (· != '-')).tail
    if start = [] then
      -- a suffix: `stop` counts the last bytes, and must not be negative
      if stop = [] ∨ stop.head? = some '-' then .error .invalid
      else
        match parseInt stop with
        | some i => if i < 0 then .error .invalid else .ok (some ⟨size - min i size, min i size⟩)
        | none => .error .invalid
    else
      match parseInt start with
      | none => .error .invalid
      | some i =>
        if i < 0 then .error .invalid
        -- a range that begins after the content does not overlap it
        else if size ≤ i then .ok none
        else if stop = [] then .ok (some ⟨i, size - i⟩)
        else
          match parseInt stop with
          | some j => if j < i then .error .invalid else .ok (some ⟨i, min j (size - 1) - i + 1⟩)
          | none => .error .invalid

/-- The loop of `parseRange` over the comma-separated ranges, with the
ranges read and whether one missed the content. -/
def parseRanges (size : Int) :
    List (List Char) → List HttpRange → Bool → Except RangeError (List HttpRange)
  | [], ranges, noOverlap => if noOverlap ∧ ranges = [] then .error .noOverlap else .ok ranges
  | ra :: ras, ranges, noOverlap =>
    let ra := trimString ra
    if ra = [] then parseRanges size ras ranges noOverlap
    else
      match parseOneRange size ra with
      | .error e => .error e
      | .ok none => parseRanges size ras ranges true
      | .ok (some r) => parseRanges size ras (ranges ++ [r]) noOverlap

/-- `parseRange`: the ranges of a `Range` header, none for an empty one. -/
def parseRange (s : List Char) (size : Int) : Except RangeError (List HttpRange) :=
  if s = [] then .ok []
  else if !hasPrefix s "bytes=".toList then .error .invalid
  else parseRanges size (split (s.drop 6) ',') [] false

/-- `sumRangesSize`. -/
def sumRangesSize (ranges : List HttpRange) : Int := (ranges.map (·.length)).sum

/-- The part header `CreatePart` writes for a range, with its keys sorted. -/
def HttpRange.mimeHeader (ra : HttpRange) (contentType : List Char) (size : Int) : List Char :=
  "Content-Range: ".toList ++ ra.contentRange size ++ "\r\nContent-Type: ".toList ++
    contentType ++ "\r\n\r\n".toList

/-- The `multipart/byteranges` body: each range after its boundary line and
part header, then the closing boundary. -/
def multipartBody (boundary contentType : List Char) (size : Int) (content : List Char) :
    Bool → List HttpRange → List Char
  | _, [] => "\r\n--".toList ++ boundary ++ "--\r\n".toList
  | first, ra :: ras =>
    (if first then "--".toList else "\r\n--".toList) ++ boundary ++ "\r\n".toList ++
      ra.mimeHeader contentType size ++ ra.slice content ++
      multipartBody boundary contentType size content false ras

/-! ### Serving -/

/-- `serveError`: `http.Error`, after deleting the caller's `Cache-Control`,
`Content-Encoding`, `Etag` and `Last-Modified` unless `GODEBUG` keeps them. -/
def serveError (keepHeaders : Bool) (h : Header) (text : List Char) (code : Int) :
    List WriterCall :=
  (if keepHeaders then []
   else (["Cache-Control".toList, "Content-Encoding".toList, "Etag".toList,
      "Last-Modified".toList].filter h.has).map .headerDel) ++
  httpError text code

/-- `setLastModified`. -/
def setLastModified (env : ServeEnv) (modtime : Time) : List WriterCall :=
  if modtime.isZeroTime then [] else [.headerSet "Last-Modified".toList (env.formatTime modtime.unix)]

/-- The content's type: the header's, or else the one of the name's extension,
or else the one sniffed from the first 512 bytes, which is then set. -/
def contentType (env : ServeEnv) (h : Header) (name content : List Char) :
    List WriterCall × List Char :=
  if h.has "Content-Type".toList then ([], h.get "Content-Type".toList)
  else
    let ctype := match env.typeByExtension (ext name) with
      | [] => env.detectContentType (content.take 512)
      | ctype => ctype
    ([.headerSet "Content-Type".toList ctype], ctype)

/-- The status, the range fields, the length and the body of the ranges
`ranges`, or of the whole content when there are none. -/
def rangeResponse (env : ServeEnv) (ctype content : List Char) :
    List HttpRange → Int × List WriterCall × Int × List Char
  | [] => (200, [], content.length, content)
  | [ra] =>
    (206, [.headerSet "Content-Range".toList (ra.contentRange content.length)], ra.length,
      ra.slice content)
  | ranges =>
    let body := multipartBody env.boundary ctype content.length content true ranges
    -- `rangesMIMESize` counts the same body, with a boundary of the same length
    (206, [.headerSet "Content-Type".toList
      ("multipart/byteranges; boundary=".toList ++ env.boundary)], body.length, body)

/-- What `serveContent` does once it has the ranges: ranges that add up to
more than the content are ignored; `Accept-Ranges` is set, the length unless
the header has a `Content-Encoding`, and the body is written unless the
request is `HEAD`. -/
def sendRanges (env : ServeEnv) (r : Request) (h : Header) (ctype content : List Char)
    (ranges : List HttpRange) : List WriterCall :=
  let ranges := if (content.length : Int) < sumRangesSize ranges then [] else ranges
  let (code, rangeCalls, sendSize, body) := rangeResponse env ctype content ranges
  let h := sentHeaderFrom h rangeCalls
  rangeCalls ++ [.headerSet "Accept-Ranges".toList "bytes".toList] ++
    (if h.get "Content-Encoding".toList = [] then
      [.headerSet "Content-Length".toList (toString sendSize).toList] else []) ++
    [.writeHeader code] ++ (if r.head then [] else [.write body])

/-- `http.ServeContent(w, r, name, modtime, content)` on a writer holding `h`. -/
def Request.serveContent (r : Request) (env : ServeEnv) (h : Header) (name : List Char)
    (modtime : Time) (content : List Char) : List WriterCall :=
  let lastModified := setLastModified env modtime
  let h := sentHeaderFrom h lastModified
  lastModified ++
  match checkPreconditions env h r modtime with
  | .done calls => calls
  | .serve rangeHeader =>
    let (typeCalls, ctype) := contentType env h name content
    let h := sentHeaderFrom h typeCalls
    typeCalls ++
    match parseRange rangeHeader content.length with
    | .ok ranges => sendRanges env r h ctype content ranges
    -- an empty content is served whole to ranges that miss it
    | .error .noOverlap =>
      if content.length = 0 then sendRanges env r h ctype content []
      else .headerSet "Content-Range".toList ("bytes */".toList ++ (toString content.length).toList) ::
        serveError env.keepHeaders h RangeError.noOverlap.message 416
    | .error .invalid => serveError env.keepHeaders h RangeError.invalid.message 416

/-! ### Quoted tags -/

theorem trimString_quoted (t : List Char) : trimString ('"' :: t ++ ['"']) = '"' :: t ++ ['"'] := by
  have hdrop : ('"' :: t ++ ['"']).dropWhile isASCIISpace = '"' :: t ++ ['"'] := by
    simp [isASCIISpace]
  rw [trimString, hdrop, List.rdropWhile_eq_self_iff]
  intro hne
  simp [isASCIISpace]

theorem scanETagBody_quoted {t : List Char} (ht : t.all etagChar = true) (rest : List Char) :
    scanETagBody (t ++ '"' :: rest) = some (t ++ ['"'], rest) := by
  induction t with
  | nil => simp [scanETagBody]
  | cons c t ih =>
    rw [List.all_cons, Bool.and_eq_true] at ht
    -- an entity-tag character is never the closing quote
    have hc : c ≠ '"' := by
      rintro rfl
      exact absurd ht.1 (by decide)
    simp [scanETagBody, hc, ht.1, ih ht.2]

theorem scanETag_quoted {t : List Char} (ht : t.all etagChar = true) :
    scanETag ('"' :: t ++ ['"']) = some ('"' :: t ++ ['"'], []) := by
  have hweak : hasPrefix ('"' :: t ++ ['"']) "W/".toList = false := rfl
  simp only [scanETag, trimString_quoted, hweak, Bool.false_eq_true, if_false]
  change Option.map (fun p => ('"' :: p.1, p.2)) (scanETagBody (t ++ ['"'])) = _
  rw [scanETagBody_quoted ht]
  rfl

theorem etagListMatches_nil (tagMatch : List Char → Bool) : etagListMatches tagMatch [] = false := by
  rw [etagListMatches]
  rfl

/-- A list that is one well-formed tag matches as the tag does. -/
theorem etagListMatches_quoted (tagMatch : List Char → Bool) {t : List Char}
    (ht : t.all etagChar = true) :
    etagListMatches tagMatch ('"' :: t ++ ['"']) = tagMatch ('"' :: t ++ ['"']) := by
  rw [etagListMatches]
  split
  · rename_i heq
    rw [trimString_quoted] at heq
    cases heq
  · rename_i heq
    rw [trimString_quoted] at heq
    cases heq
  · rename_i heq
    rw [trimString_quoted] at heq
    cases heq
  · -- the trimmed text is the tag itself, which scans whole
    split
    · rename_i hscan
      rw [trimString_quoted, scanETag_quoted ht] at hscan
      cases hscan
    · rename_i etag remain hscan
      rw [trimString_quoted, scanETag_quoted ht] at hscan
      cases hscan
      rw [etagListMatches_nil, Bool.or_false]

/-- A request whose `If-None-Match` is the `Etag` does not match the
precondition. -/
theorem checkIfNoneMatch_quoted {h : Header} {r : Request} {t : List Char}
    (ht : t.all etagChar = true) (hinm : r.header.get "If-None-Match".toList = '"' :: t ++ ['"'])
    (hetag : h.get "Etag".toList = '"' :: t ++ ['"']) : checkIfNoneMatch h r = .condFalse := by
  have hweak : etagWeakMatch ('"' :: t ++ ['"']) ('"' :: t ++ ['"']) = true := by
    simp [etagWeakMatch]
  dsimp only [checkIfNoneMatch]
  rw [hinm, hetag, if_neg (by simp), etagListMatches_quoted _ ht, hweak, if_pos rfl]

/-! ### The statuses it writes -/

/-- The statuses `ServeContent` writes. -/
def serveContentCodes : List Int := [200, 206, 304, 412, 416]

theorem serveContentCodes_final :
    ∀ s ∈ serveContentCodes, 100 ≤ s ∧ s ≤ 999 ∧ informational s = false := by
  intro s hs
  simp only [serveContentCodes, List.mem_cons, List.not_mem_nil, or_false] at hs
  rcases hs with rfl | rfl | rfl | rfl | rfl <;> simp [informational]

section Statuses

variable (env : ServeEnv)

/-- `checkPreconditions` answers with 412 or with `writeNotModified`. -/
theorem checkPreconditions_done {h : Header} {r : Request} {modtime : Time}
    {calls : List WriterCall} (hdone : checkPreconditions env h r modtime = .done calls) :
    calls = [.writeHeader 412] ∨ calls = writeNotModified h := by
  unfold checkPreconditions at hdone
  dsimp only at hdone
  -- the branches that answer, and those that serve, which are not `done`
  split_ifs at hdone
  all_goals first
    | (cases hdone; simp)
    | (split at hdone <;> cases hdone <;> simp)

theorem setLastModified_statusIn (codes : List Int) (modtime : Time) :
    (setLastModified env modtime).all (·.statusIn codes) = true := by
  unfold setLastModified
  split <;> rfl

theorem contentType_statusIn (codes : List Int) (h : Header) (name content : List Char) :
    (contentType env h name content).1.all (·.statusIn codes) = true := by
  unfold contentType
  split <;> rfl

theorem serveError_statusIn {codes : List Int} (keepHeaders : Bool) (h : Header) (text : List Char)
    {code : Int} (hcode : code ∈ codes) :
    (serveError keepHeaders h text code).all (·.statusIn codes) = true := by
  unfold serveError
  split <;> simp [httpError, WriterCall.statusIn, hcode]

theorem checkPreconditions_statusIn {h : Header} {r : Request} {modtime : Time}
    {calls : List WriterCall} (hdone : checkPreconditions env h r modtime = .done calls) :
    calls.all (·.statusIn serveContentCodes) = true := by
  rcases checkPreconditions_done env hdone with rfl | rfl
  · rfl
  · unfold writeNotModified
    split <;> rfl

theorem rangeResponse_statusIn (ctype content : List Char) (ranges : List HttpRange) :
    (WriterCall.writeHeader (rangeResponse env ctype content ranges).1).statusIn
        serveContentCodes = true ∧
      (rangeResponse env ctype content ranges).2.1.all (·.statusIn serveContentCodes) = true := by
  unfold rangeResponse
  split <;> exact ⟨rfl, rfl⟩

theorem sendRanges_statusIn (r : Request) (h : Header) (ctype content : List Char)
    (ranges : List HttpRange) :
    (sendRanges env r h ctype content ranges).all (·.statusIn serveContentCodes) = true := by
  unfold sendRanges
  dsimp only
  generalize (if (content.length : Int) < sumRangesSize ranges then [] else ranges) = ranges'
  obtain ⟨hwrite, hcalls⟩ := rangeResponse_statusIn env ctype content ranges'
  simp only [List.all_append, hcalls, List.all_cons, hwrite, List.all_nil, Bool.true_and]
  split <;> split <;> rfl

theorem Request.serveContent_statusIn (r : Request) (h : Header) (name : List Char) (modtime : Time)
    (content : List Char) :
    (r.serveContent env h name modtime content).all (·.statusIn serveContentCodes) = true := by
  unfold Request.serveContent
  dsimp only
  rw [List.all_append, setLastModified_statusIn, Bool.true_and]
  split
  · exact checkPreconditions_statusIn env ‹_›
  · rw [List.all_append, contentType_statusIn, Bool.true_and]
    split
    · exact sendRanges_statusIn env r _ _ _ _
    · split
      · exact sendRanges_statusIn env r _ _ _ _
      · rw [List.all_cons]
        exact serveError_statusIn _ _ _ (by simp [serveContentCodes])
    · exact serveError_statusIn _ _ _ (by simp [serveContentCodes])

end Statuses

/-- **`ServeContent` never panics**: after header edits, or any calls whose
codes are its own, the client gets one of its five statuses. -/
theorem respond_serveContent {pre : List WriterCall}
    (hpre : pre.all (·.statusIn serveContentCodes) = true) (r : Request) (env : ServeEnv)
    (h : Header) (name : List Char) (modtime : Time) (content : List Char) :
    ∃ resp, respond r.head (pre ++ r.serveContent env h name modtime content) = .ok resp ∧
      resp.status ∈ serveContentCodes := by
  have hcalls : (pre ++ r.serveContent env h name modtime content).all
      (·.statusIn serveContentCodes) = true := by
    rw [List.all_append, hpre, Request.serveContent_statusIn]
    rfl
  obtain ⟨resp, hresp, hstatus⟩ := respond_statusIn serveContentCodes_final r.head hcalls
  refine ⟨resp, hresp, ?_⟩
  rcases hstatus with h200 | hmem
  · simp [h200, serveContentCodes]
  · exact hmem

section Requests

variable (env : ServeEnv)

theorem Request.get_of_unconditional {r : Request} (hr : r.unconditional = true) {key : List Char}
    (hkey : key ∈ conditionalFields) : r.header.get key = [] :=
  of_decide_eq_true (List.all_eq_true.mp hr key hkey)

theorem checkIfMatch_of_absent (h : Header) {r : Request}
    (hm : r.header.get "If-Match".toList = []) : checkIfMatch h r = .condNone := by
  dsimp only [checkIfMatch]
  rw [if_pos hm]

theorem checkIfUnmodifiedSince_of_absent {r : Request}
    (hu : r.header.get "If-Unmodified-Since".toList = []) (modtime : Time) :
    checkIfUnmodifiedSince env r modtime = .condNone := by
  dsimp only [checkIfUnmodifiedSince]
  rw [if_pos (.inl hu)]

theorem checkIfNoneMatch_of_absent (h : Header) {r : Request}
    (hn : r.header.get "If-None-Match".toList = []) : checkIfNoneMatch h r = .condNone := by
  dsimp only [checkIfNoneMatch]
  rw [if_pos hn]

theorem checkIfModifiedSince_of_absent {r : Request}
    (hms : r.header.get "If-Modified-Since".toList = []) (modtime : Time) :
    checkIfModifiedSince env r modtime = .condNone := by
  dsimp only [checkIfModifiedSince]
  split
  · rfl
  · rw [if_pos (.inl hms)]

theorem checkPreconditions_unconditional (h : Header) {r : Request} (hr : r.unconditional = true)
    (modtime : Time) : checkPreconditions env h r modtime = .serve [] := by
  have hget : ∀ key ∈ conditionalFields, r.header.get key = [] :=
    fun _ hkey => r.get_of_unconditional hr hkey
  unfold checkPreconditions
  rw [checkIfMatch_of_absent h (hget _ (by simp [conditionalFields]))]
  dsimp only
  rw [checkIfUnmodifiedSince_of_absent env (hget _ (by simp [conditionalFields])), if_neg (by decide),
    checkIfNoneMatch_of_absent h (hget _ (by simp [conditionalFields]))]
  dsimp only
  rw [checkIfModifiedSince_of_absent env (hget _ (by simp [conditionalFields])), if_neg (by decide),
    hget _ (by simp [conditionalFields])]
  rfl

theorem sendRanges_nil (r : Request) {h : Header} (hce : h.get "Content-Encoding".toList ≠ [])
    (ctype content : List Char) :
    sendRanges env r h ctype content [] =
      [.headerSet "Accept-Ranges".toList "bytes".toList, .writeHeader 200] ++
        if r.head then [] else [.write content] := by
  have hsum : ¬ (content.length : Int) < sumRangesSize [] := by
    simp [sumRangesSize]
  simp only [sendRanges, hsum, if_false, rangeResponse, sentHeaderFrom, hce, List.nil_append,
    List.cons_append, List.append_nil]

theorem setLastModified_keepsField (modtime : Time) {x : List Char}
    (hx : sameField x "Last-Modified".toList = false) :
    ∀ c ∈ setLastModified env modtime, c.keepsField x := by
  unfold setLastModified
  split
  · simp
  · simpa [WriterCall.keepsField] using hx

theorem setLastModified_editHeader (modtime : Time) :
    ∀ c ∈ setLastModified env modtime, c.editHeader.isSome := by
  unfold setLastModified
  split <;> simp [WriterCall.editHeader]

theorem contentType_keepsField (h : Header) (name content : List Char) {x : List Char}
    (hx : sameField x "Content-Type".toList = false) :
    ∀ c ∈ (contentType env h name content).1, c.keepsField x := by
  unfold contentType
  split
  · simp
  · simpa [WriterCall.keepsField] using hx

theorem contentType_editHeader (h : Header) (name content : List Char) :
    ∀ c ∈ (contentType env h name content).1, c.editHeader.isSome := by
  unfold contentType
  split <;> simp [WriterCall.editHeader]

/-- An unconditional request is served the whole content with status 200, on
a header with a `Content-Encoding`. -/
theorem Request.serveContent_unconditional {r : Request} (hr : r.unconditional = true) {h : Header}
    (hce : h.get "Content-Encoding".toList ≠ []) (name : List Char) (modtime : Time)
    (content : List Char) :
    r.serveContent env h name modtime content =
      setLastModified env modtime ++
        (contentType env (sentHeaderFrom h (setLastModified env modtime)) name content).1 ++
        [.headerSet "Accept-Ranges".toList "bytes".toList, .writeHeader 200] ++
        if r.head then [] else [.write content] := by
  -- neither the modification time nor the type touches the encoding
  have hce' : (sentHeaderFrom (sentHeaderFrom h (setLastModified env modtime))
      (contentType env (sentHeaderFrom h (setLastModified env modtime)) name content).1).get
        "Content-Encoding".toList ≠ [] := by
    rw [get_sentHeaderFrom_of_keepsField
        (contentType_keepsField env _ _ _ (sameField_of_length_ne (by simp))),
      get_sentHeaderFrom_of_keepsField
        (setLastModified_keepsField env _ (sameField_of_length_ne (by simp)))]
    exact hce
  unfold Request.serveContent
  dsimp only
  rw [checkPreconditions_unconditional env _ hr]
  dsimp only
  rw [show parseRange [] (content.length : Int) = .ok [] from rfl]
  dsimp only
  rw [sendRanges_nil env r hce']
  simp only [List.append_assoc]

/-- **An unconditional request gets the content**, with status 200, after
header edits that leave a `Content-Encoding` and no `Content-Length`: the
header is the one the edits, `Last-Modified`, the type and `Accept-Ranges`
leave, and the body is empty for `HEAD`. -/
theorem respond_serveContent_unconditional {pre : List WriterCall}
    (hpre : ∀ c ∈ pre, c.editHeader.isSome) {r : Request} (hr : r.unconditional = true)
    (hce : (sentHeader pre).get "Content-Encoding".toList ≠ [])
    (hcl : (sentHeader pre).get "Content-Length".toList = []) (name : List Char) (modtime : Time)
    (content : List Char) :
    respond r.head (pre ++ r.serveContent env (sentHeader pre) name modtime content) =
      .ok ⟨[], 200, sentHeader (pre ++ setLastModified env modtime ++
          (contentType env (sentHeaderFrom (sentHeader pre) (setLastModified env modtime)) name
            content).1 ++ [.headerSet "Accept-Ranges".toList "bytes".toList]),
        if r.head then [] else content⟩ := by
  set edits := pre ++ setLastModified env modtime ++
    (contentType env (sentHeaderFrom (sentHeader pre) (setLastModified env modtime)) name
      content).1 ++ [.headerSet "Accept-Ranges".toList "bytes".toList] with hedits_def
  have hedits : ∀ c ∈ edits, c.editHeader.isSome := by
    intro c hc
    simp only [hedits_def, List.mem_append, List.mem_singleton] at hc
    rcases hc with ((hc | hc) | hc) | rfl
    · exact hpre c hc
    · exact setLastModified_editHeader env modtime c hc
    · exact contentType_editHeader env _ name content c hc
    · rfl
  -- the edits after `pre` leave its length, so no length bounds the body
  have hlength : declaredLength ((sentHeader edits).get "Content-Length".toList) = none := by
    have hkeep : ∀ c ∈ setLastModified env modtime ++
        (contentType env (sentHeaderFrom (sentHeader pre) (setLastModified env modtime)) name
          content).1 ++ [.headerSet "Accept-Ranges".toList "bytes".toList],
        c.keepsField "Content-Length".toList := by
      intro c hc
      simp only [List.mem_append, List.mem_singleton] at hc
      rcases hc with (hc | hc) | rfl
      · exact setLastModified_keepsField env modtime (sameField_of_length_ne (by simp)) c hc
      · exact contentType_keepsField env _ name content (sameField_of_length_ne (by simp)) c hc
      · show (!sameField "Content-Length".toList "Accept-Ranges".toList) = true
        rw [sameField_of_length_ne (by simp)]
        rfl
    rw [hedits_def, List.append_assoc, List.append_assoc, sentHeader,
      sentHeaderFrom_append hpre, get_sentHeaderFrom_of_keepsField (by simpa using hkeep)]
    rw [← sentHeader, hcl]
    rfl
  rw [Request.serveContent_unconditional env hr hce]
  have hcalls : pre ++ (setLastModified env modtime ++
      (contentType env (sentHeaderFrom (sentHeader pre) (setLastModified env modtime)) name
        content).1 ++ [.headerSet "Accept-Ranges".toList "bytes".toList, .writeHeader 200] ++
      if r.head then [] else [.write content]) =
      edits ++ .writeHeader 200 :: if r.head then [] else [.write content] := by
    simp [hedits_def]
  rw [hcalls, respond_status_unlessHead r.head hedits,
    statusResponse_of_bodyAllowed content (by norm_num) (by decide) hlength]

theorem checkPreconditions_notModified {h : Header} {r : Request} (hg : r.getOrHead = true)
    (hm : r.header.get "If-Match".toList = []) (hu : r.header.get "If-Unmodified-Since".toList = [])
    (hn : checkIfNoneMatch h r = .condFalse) (modtime : Time) :
    checkPreconditions env h r modtime = .done (writeNotModified h) := by
  unfold checkPreconditions
  rw [checkIfMatch_of_absent h hm]
  dsimp only
  rw [checkIfUnmodifiedSince_of_absent env hu, if_neg (by decide), hn]
  dsimp only
  rw [if_pos hg]

/-- A `GET` or `HEAD` whose `If-None-Match` fails, without `If-Match` or
`If-Unmodified-Since`, is answered by `writeNotModified` after `Last-Modified`. -/
theorem Request.serveContent_notModified {h : Header} {r : Request} (hg : r.getOrHead = true)
    (hm : r.header.get "If-Match".toList = []) (hu : r.header.get "If-Unmodified-Since".toList = [])
    {modtime : Time} (hn : checkIfNoneMatch (sentHeaderFrom h (setLastModified env modtime)) r =
      .condFalse) (name content : List Char) :
    r.serveContent env h name modtime content =
      setLastModified env modtime ++ writeNotModified (sentHeaderFrom h (setLastModified env modtime)) := by
  unfold Request.serveContent
  dsimp only
  rw [checkPreconditions_notModified env hg hm hu hn]

/-- The fields `writeNotModified` deletes before its status. -/
def notModifiedFields (h : Header) : List (List Char) :=
  ["Content-Type".toList, "Content-Length".toList, "Content-Encoding".toList] ++
    (if h.get "Etag".toList ≠ [] then ["Last-Modified".toList] else [])

theorem writeNotModified_eq (h : Header) :
    writeNotModified h = (notModifiedFields h).map .headerDel ++ [.writeHeader 304] := by
  unfold writeNotModified notModifiedFields
  split_ifs <;> rfl

/-- `writeNotModified` after header edits sends 304 with no body, on the
header the edits leave less the fields it deletes and those a 304 does not
send. -/
theorem respond_writeNotModified (head : Bool) {edits : List WriterCall}
    (hedits : ∀ c ∈ edits, c.editHeader.isSome) (h : Header) :
    respond head (edits ++ writeNotModified h) =
      .ok ⟨[], 304, ((sentHeader edits).delAll (notModifiedFields h)).delAll (suppressedHeaders 304),
        []⟩ := by
  have hdels : ∀ c ∈ edits ++ (notModifiedFields h).map .headerDel, c.editHeader.isSome := by
    intro c hc
    rcases List.mem_append.mp hc with hc | hc
    · exact hedits c hc
    · obtain ⟨k, -, rfl⟩ := List.mem_map.mp hc
      rfl
  rw [writeNotModified_eq, ← List.append_assoc, respond_status head hdels,
    statusResponse_nil (by norm_num) (by decide), sentHeader, sentHeaderFrom_append hedits,
    sentHeaderFrom_map_headerDel]
  rfl

/-- **A matching `If-None-Match` gets 304**: on a `GET` or `HEAD` without
`If-Match` or `If-Unmodified-Since`, after header edits, the client gets 304
with no body, without the content's type, length and encoding, and with every
other field as the edits left it but `Last-Modified` and `Transfer-Encoding`. -/
theorem respond_serveContent_notModified {pre : List WriterCall}
    (hpre : ∀ c ∈ pre, c.editHeader.isSome) {r : Request} (hg : r.getOrHead = true)
    (hm : r.header.get "If-Match".toList = []) (hu : r.header.get "If-Unmodified-Since".toList = [])
    {name : List Char} {modtime : Time} {content : List Char}
    (hn : checkIfNoneMatch (sentHeaderFrom (sentHeader pre) (setLastModified env modtime)) r =
      .condFalse) :
    ∃ hdr, respond r.head (pre ++ r.serveContent env (sentHeader pre) name modtime content) =
        .ok ⟨[], 304, hdr, []⟩ ∧
      (∀ k ∈ ["Content-Type".toList, "Content-Length".toList, "Content-Encoding".toList],
        hdr.values k = []) ∧
      ∀ x, (∀ k ∈ ["Content-Type".toList, "Content-Length".toList, "Content-Encoding".toList,
          "Transfer-Encoding".toList, "Last-Modified".toList], sameField x k = false) →
        hdr.values x = (sentHeader pre).values x := by
  set h₁ := sentHeaderFrom (sentHeader pre) (setLastModified env modtime) with hh₁
  have hedits : ∀ c ∈ pre ++ setLastModified env modtime, c.editHeader.isSome := by
    intro c hc
    rcases List.mem_append.mp hc with hc | hc
    · exact hpre c hc
    · exact setLastModified_editHeader env modtime c hc
  have hsent : sentHeader (pre ++ setLastModified env modtime) = h₁ := by
    rw [sentHeader, sentHeaderFrom_append hpre]
    rfl
  rw [Request.serveContent_notModified env hg hm hu hn, ← List.append_assoc,
    respond_writeNotModified r.head hedits, hsent]
  refine ⟨_, rfl, fun k hk => ?_, fun x hx => ?_⟩
  · -- each of the three is deleted
    have hdel : (notModifiedFields h₁).any (sameField k) = true := by
      rw [List.any_eq_true]
      exact ⟨k, List.mem_append_left _ hk, sameField_self k⟩
    rw [Header.values_delAll, Header.values_delAll, hdel]
    simp
  · have hCT := hx "Content-Type".toList (by simp)
    have hCL := hx "Content-Length".toList (by simp)
    have hCE := hx "Content-Encoding".toList (by simp)
    have hTE := hx "Transfer-Encoding".toList (by simp)
    have hLM := hx "Last-Modified".toList (by simp)
    have hsupp : (suppressedHeaders 304).any (sameField x) = false := by
      rw [show suppressedHeaders 304 = ["Content-Type".toList, "Content-Length".toList,
        "Transfer-Encoding".toList] from rfl, List.any_cons, List.any_cons, List.any_cons,
        List.any_nil, hCT, hCL, hTE]
      rfl
    have hdel : (notModifiedFields h₁).any (sameField x) = false := by
      rw [notModifiedFields, List.any_append, List.any_cons, List.any_cons, List.any_cons,
        List.any_nil, hCT, hCL, hCE]
      split
      · rw [List.any_cons, List.any_nil, hLM]
        rfl
      · rfl
    rw [Header.values_delAll, Header.values_delAll, hsupp, hdel, hh₁,
      values_sentHeaderFrom_of_keepsField (setLastModified_keepsField env modtime hLM)]
    rfl

/-- **`serveContent` of `Go.Http` is `ServeContent`** on an unconditional
request that is not `HEAD`, with no modification time, on a header that has a
`Content-Type` and no `Content-Encoding`. -/
theorem Request.serveContent_eq_serveContent {r : Request} (hr : r.unconditional = true)
    (hhead : r.head = false) {modtime : Time} (hz : modtime.isZeroTime = true) {h : Header}
    (hct : h.has "Content-Type".toList = true) (hce : h.get "Content-Encoding".toList = [])
    (name content : List Char) :
    r.serveContent env h name modtime content = Go.serveContent content := by
  have hlm : setLastModified env modtime = [] := by rw [setLastModified, if_pos hz]
  have htype : contentType env h name content = ([], h.get "Content-Type".toList) := by
    rw [contentType, if_pos hct]
  have hsum : ¬ (content.length : Int) < sumRangesSize [] := by
    simp [sumRangesSize]
  unfold Request.serveContent
  dsimp only
  rw [hlm, sentHeaderFrom, checkPreconditions_unconditional env h hr]
  dsimp only
  rw [htype, show parseRange [] (content.length : Int) = .ok [] from rfl]
  dsimp only
  simp only [sendRanges, hsum, if_false, rangeResponse, sentHeaderFrom, hce, hhead, if_true,
    Bool.false_eq_true]
  rfl

end Requests

end Go
