import Xtemplate.Handlers
import Xtemplate.Encoding
import Xtemplate.Go.Path
import Xtemplate.Go.Map
import Mathlib.Data.List.Sort

/-!
Building an instance's routes from its templates FS (`build.go`, and the
`fs.WalkDir` of `Config.Instance` in `instance.go`).

`fs.WalkDir` visits every file. A file with the template extension is parsed,
and each template it defines may get a route (`addTemplateHandler`). Every
other file is a static file (`addStaticFileHandler`): its route is its path,
unless a file of its path without the extension was already added, in which
case it is read as an encoding of that file and joins that file's encodings.

The functions the build applies to file contents are parameters (`Codecs`):
SHA-384 with base64, the decompressors and `http.DetectContentType`. So is
the template parser (`TemplateParser`), which gives each file's templates as
`Template`s. Minifying template files is left out, as are the `slog` calls.
An error formatted with `%v` is modelled as one wrapped with `%w`: the text
is the same, and nothing asks `errors.As` of a build error.
-/

namespace Xtemplate

open Go

/-! ### The templates FS -/

/-- A file of an `fs.FS`. -/
structure FSFile where
  path : List Char
  content : List Char
  /-- Whether the `fs.File` that `Open` returns is an `io.ReadSeeker`. -/
  seekable : Bool

/-- An `fs.FS`, as its files; no path names two files. -/
structure FS where
  files : List FSFile
  paths_nodup : (files.map FSFile.path).Nodup

/-- `fsys.Open(path)`, for a file. -/
def FS.open (fs : FS) (path : List Char) : Option FSFile := fs.files.find? (·.path == path)

/-- The error of opening a path that names no file. -/
def fileNotExist : Err := errorf "file does not exist"

/-- The order of two paths' elements in which `fs.WalkDir` visits them: it
reads each directory's entries sorted by name. -/
def walkLE : List (List Char) → List (List Char) → Bool
  | [], _ => true
  | _ :: _, [] => false
  | a :: as, b :: bs => if a = b then walkLE as bs else decide (a < b)

/-- The files `fs.WalkDir(fsys, ".", fn)` hands to `fn`, in order. -/
def walkDir (fs : FS) : List (List Char) :=
  (fs.files.map FSFile.path).insertionSort fun p q => walkLE (split p '/') (split q '/') = true

/-! ### The instance's files and routes -/

/-- The library functions the build applies to file contents. -/
structure Codecs where
  /-- `base64.URLEncoding` of the SHA-384 digest. -/
  sha384 : List Char → List Char
  /-- The error of `gzip.NewReader` or `zstd.NewReader`, by encoding, if any. -/
  readerError : List Char → List Char → Option Err
  /-- What reading a decompressor to its end gives, by encoding. -/
  decode : List Char → List Char → Except Err (List Char)
  /-- `http.DetectContentType`. -/
  detectContentType : List Char → List Char

/-- `fileInfo`: what the static file handler of one path serves. -/
structure FileInfo where
  identityPath : List Char
  hash : List Char
  contentType : List Char
  encodings : List EncodingInfo

/-- The handler of a route. -/
inductive RouteHandler where
  /-- `staticFileHandler` of the file info at that path. -/
  | staticFile (identityPath : List Char)
  /-- `bufferingTemplateHandler` of the named template. -/
  | buffering (name : List Char)
  /-- `flushingTemplateHandler` of the named template. -/
  | flushing (name : List Char)

/-- `InstanceRoute`. -/
structure InstanceRoute where
  pattern : List Char
  handler : RouteHandler

/-- `InstanceStats`. -/
structure InstanceStats where
  routes : Nat
  templateFiles : Nat
  templateDefinitions : Nat
  templateInitializers : Nat
  staticFiles : Nat
  staticFilesAlternateEncodings : Nat

/-- `builder`: the parts of the instance the walk fills in. -/
structure Builder where
  router : ServeMux
  files : Map (List Char) FileInfo
  templates : Map (List Char) Template
  routes : List InstanceRoute
  stats : InstanceStats

/-- The builder before the walk. -/
def Builder.empty : Builder := ⟨[], .empty, .empty, [], ⟨0, 0, 0, 0, 0, 0⟩⟩

/-- `catch` (a keyword here): a panic of `fn` becomes the error
`failed to <description>: <panic>`. -/
def catchPanic {α : Type} (description : List Char) : Except (List Char) α → Except Err α
  | .ok a => .ok a
  | .error msg => .error (.leaf (.other ("failed to ".toList ++ description ++ ": ".toList ++ msg)))

/-- `b.router.HandleFunc(pattern, handler)` inside `catch`, and the route
recorded. -/
def Builder.addRoute (b : Builder) (route : InstanceRoute) : Except (Abort Err) Builder :=
  match catchPanic ("add handler to servemux '".toList ++ route.pattern ++ "'".toList)
      (b.router.handleFunc route.pattern) with
  | .error err => .error (.error err)
  | .ok router =>
    .ok { b with router, routes := b.routes ++ [route],
                 stats := { b.stats with routes := b.stats.routes + 1 } }

/-! ### `addStaticFileHandler` -/

/-- `extensionContentTypes`. -/
def extensionContentTypes : Map (List Char) (List Char) :=
  [(".css".toList, "text/css; charset=utf-8".toList),
   (".js".toList, "text/javascript; charset=utf-8".toList),
   (".csv".toList, "text/csv".toList)]

/-- The encoding a file is read with when a file of its path without the
extension was already added: the compression its extension names, and
`identity` for any other extension. -/
def alternateEncoding (ext : List Char) : List Char :=
  if ext = ".gz".toList then "gzip".toList
  else if ext = ".zst".toList then "zstd".toList
  else if ext = ".br".toList then "br".toList
  else "identity".toList

/-- The bytes the hash is computed over: the file, or its decompressor's
output. -/
def hashInput (codecs : Codecs) (encoding content : List Char) : Except Err (List Char) :=
  if encoding = "identity".toList then .ok content else codecs.decode encoding content

/-- `builder.addStaticFileHandler`. -/
def addStaticFileHandler (codecs : Codecs) (fs : FS) (b : Builder) (path : List Char) :
    Except (Abort Err) Builder :=
  match fs.open path with
  | none => .error (.error (.wrap ("failed to open static file '".toList ++ path ++ "': ".toList)
      fileNotExist))
  | some f =>
    -- `fsfile.(io.ReadSeeker)` is a type assertion: it panics when the file cannot seek
    if !f.seekable then
      .error (.panic "interface conversion: fs.File is not io.ReadSeeker: missing method Seek".toList)
    else
    let size : Int := f.content.length
    let ext := Go.ext path
    let stripped := trimSuffix (clean ('/' :: path)) ext
    let (identityPath, file, encoding) : List Char × FileInfo × List Char :=
      match b.files.get stripped with
      | some file => (stripped, file, alternateEncoding ext)
      | none => (clean ('/' :: path), ⟨[], [], [], []⟩, "identity".toList)
    match (if encoding = "gzip".toList ∨ encoding = "zstd".toList then
        codecs.readerError encoding f.content else none) with
    | some err => .error (.error (.wrap ("failed to create decompressor for file `".toList ++
        path ++ "`: ".toList) err))
    | none =>
    match hashInput codecs encoding f.content with
    | .error err => .error (.error (.wrap "failed to hash file ".toList err))
    | .ok bytes =>
    let sri := "sha384-".toList ++ codecs.sha384 bytes
    if encoding = "identity".toList then
      -- a file of its own: its route is `GET` and its identity path
      let contentType := (extensionContentTypes.get ext).getD
        (codecs.detectContentType (f.content.take 512))
      let file := { file with hash := sri, identityPath, contentType,
                              encodings := [⟨encoding, path, size⟩] }
      match b.addRoute ⟨"GET ".toList ++ identityPath, .staticFile identityPath⟩ with
      | .error err => .error err
      | .ok b =>
        .ok { b with files := b.files.set identityPath file,
                     stats := { b.stats with staticFiles := b.stats.staticFiles + 1 } }
    else if file.hash ≠ sri then
      .error (.error (.leaf (.other ("encoded file contents did not match original file '".toList ++
        path ++ "': expected ".toList ++ file.hash ++ ", got ".toList ++ sri))))
    else
      -- `sort.Slice` by size: on at most four entries it runs an insertion sort, which is stable
      let encodings := (file.encodings ++ [EncodingInfo.mk encoding path size]).insertionSort
        fun e e' => e.size ≤ e'.size
      .ok { b with files := b.files.set identityPath { file with encodings },
                   stats := { b.stats with staticFilesAlternateEncodings :=
                     b.stats.staticFilesAlternateEncodings + 1 } }

/-! ### `addTemplateHandler` -/

/-- What `parse.Parse` makes of a template file, given its cleaned path and
its content: the templates it defines, by name, or its error. Go returns them
in a map; the handler visits them in this list's order. -/
def TemplateParser : Type := List Char → List Char → Except Err (List (List Char × Template))

/-- The methods of `routeMatcher`. -/
def routeMethods : List (List Char) :=
  ["GET".toList, "POST".toList, "PUT".toList, "PATCH".toList, "DELETE".toList, "SSE".toList]

/-- `routeMatcher.FindStringSubmatch(name)` on
`^(GET|POST|PUT|PATCH|DELETE|SSE) (.*)$`: the method and the rest, which
holds no newline since `.` matches none. -/
def routeMatch (name : List Char) : Option (List Char × List Char) :=
  match routeMethods.find? fun m => hasPrefix name (m ++ [' ']) with
  | some m =>
    let rest := name.drop (m.length + 1)
    if '\n' ∈ rest then none else some (m, rest)
  | none => none

/-- The route of a template named `name` from the file at `path`, if it gets
one: the file's own template is served at its path without the extension
(unless the file is hidden), and a template named like `GET /path` at that
pattern. -/
def templateRoute (templateExtension path name : List Char) : Option InstanceRoute :=
  if name = path then
    if (splitPath path).2.head? = some '.' then none
    else
      let routePath := trimSuffix path templateExtension
      let b := base routePath
      -- files named `index` handle requests to the directory
      let routePath := if b = "index".toList then dir routePath ++ "/".toList else routePath
      let routePath :=
        if b = "index\x7b$\x7d".toList then dir routePath ++ "/\x7b$\x7d".toList else routePath
      some ⟨"GET ".toList ++ clean routePath, .buffering name⟩
  else
    match routeMatch name with
    | some (method, p) =>
      if method = "SSE".toList then some ⟨"GET ".toList ++ p, .flushing name⟩
      else some ⟨method ++ " ".toList ++ p, .buffering name⟩
    | none => none

/-- One template of a file: added to the template set, and its route
registered. -/
def addTemplate (templateExtension path : List Char) (b : Builder)
    (tmpl : List Char × Template) : Except (Abort Err) Builder :=
  let b := { b with templates := b.templates.set tmpl.1 tmpl.2,
                    stats := { b.stats with templateDefinitions := b.stats.templateDefinitions + 1 } }
  match templateRoute templateExtension path tmpl.1 with
  | none => .ok b
  | some route => b.addRoute route

/-- `builder.addTemplateHandler`. -/
def addTemplateHandler (parse : TemplateParser) (templateExtension : List Char) (fs : FS)
    (b : Builder) (path : List Char) : Except (Abort Err) Builder :=
  match fs.open path with
  | none => .error (.error (.wrap ("could not read template file '".toList ++ path ++ "': ".toList)
      fileNotExist))
  | some f =>
    let path := clean ('/' :: path)
    match parse path f.content with
    | .error err =>
      .error (.error (.wrap ("could not parse template file '".toList ++ path ++ "': ".toList) err))
    | .ok tmpls =>
      tmpls.foldlM (addTemplate templateExtension path)
        { b with stats := { b.stats with templateFiles := b.stats.templateFiles + 1 } }

/-! ### The walk -/

/-- One file of the walk. -/
def addFile (codecs : Codecs) (parse : TemplateParser) (templateExtension : List Char) (fs : FS)
    (b : Builder) (path : List Char) : Except (Abort Err) Builder :=
  if hasSuffix path templateExtension then addTemplateHandler parse templateExtension fs b path
  else addStaticFileHandler codecs fs b path

/-- The `fs.WalkDir` of `Config.Instance`: every file added in walk order; an
error is wrapped, a panic goes through. -/
def walkTemplatesFS (codecs : Codecs) (parse : TemplateParser) (templateExtension : List Char)
    (fs : FS) (b : Builder) : Except (Abort Err) Builder :=
  match (walkDir fs).foldlM (addFile codecs parse templateExtension fs) b with
  | .error (.error err) => .error (.error (.wrap "error scanning files: ".toList err))
  | r => r

end Xtemplate
