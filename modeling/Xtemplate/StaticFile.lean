import Xtemplate.Instance
import Xtemplate.Go.ServeContent

/-!
The static file handler (`staticFileHandler`, `handlers.go`) and what the
build guarantees it.

For each static file the build stores a `fileInfo`: its identity path, the
hash of its bytes, and its encodings, the file itself and the compressed
copies found beside it. `StaticFiles` is what every step of the walk keeps:
each stored file info is filed under its identity path, lists the identity
encoding, and names only encodings with a name and seekable files of the FS
whose bytes, decompressed by their encoding, hash to its hash; and each
static route is `GET` of a stored path (`addStaticFileHandler_staticFiles`,
`walkTemplatesFS_staticFiles`).

The FS is one value, the instance's templates FS, from the build to every
request: the handler opens the file the build found. So its two 500 answers,
for no encoding and for a file that does not open, and its panic for a file
that cannot seek, are modelled but never reached on a built instance
(`staticFileHandler_stored`). The handler ends in `http.ServeContent`
(`Go.Request.serveContent`), with the request's preconditions, `Range` and
method; the modification time the build recorded for a path is `modtime`.

From it, the handler of every static route of a built instance answers a
request for its path, with no `hash` query or the right one, by serving one
stored encoding of the file, whatever the `Accept-Encoding`
(`instance_serves_static_files`): the client gets one of `ServeContent`'s
statuses, never 404 or 500 and never a panic; an unconditional request gets
200 with the file's `Etag`, type, encoding and bytes; a `GET` or `HEAD` whose
`If-None-Match` is the `Etag` gets 304 (`ServesFile`). A client that decodes
the body as its `Content-Encoding` says gets bytes whose hash is the `Etag`;
without `Accept-Encoding` the body is the identity file itself.

`DotX.StaticFileHash` gives templates the hash to put in a file's URL; the
handler serves such a URL with an immutable `Cache-Control` and answers any
other hash with 404 (`staticFileHash_served`).
-/

namespace Xtemplate

open Go

/-! ### The handler -/

/-- A request to a static file, as the handler reads it: its method and
header, whose `Accept-Encoding` values negotiation reads and the rest of which
`ServeContent` reads, its URL path, and the value of its `hash` query
parameter, empty when there is none. -/
structure FileRequest extends Request where
  urlPath : List Char
  queryHash : List Char

/-- The headers the handler adds before serving `encoding`. -/
def staticHeaders (fileinfo : FileInfo) (encoding : EncodingInfo) (queryhash : List Char) :
    List WriterCall :=
  [.headerAdd "Etag".toList ("\"".toList ++ fileinfo.hash ++ "\"".toList),
   .headerAdd "Content-Type".toList fileinfo.contentType,
   .headerAdd "Content-Encoding".toList encoding.encoding,
   .headerAdd "Vary".toList "Accept-Encoding".toList] ++
  -- cache aggressively if the request is disambiguated by a valid hash
  if queryhash ≠ [] then
    [.headerSet "Cache-Control".toList "public, max-age=31536000, immutable".toList]
  else []

/-- The handler's calls once it has the file of `encoding`: its headers, then
`http.ServeContent(w, r, encoding.path, encoding.modtime, file)` on the
header they leave. -/
def serveStaticFile (serve : ServeEnv) (modtime : List Char → Time) (fileinfo : FileInfo)
    (encoding : EncodingInfo) (r : FileRequest) (content : List Char) : List WriterCall :=
  staticHeaders fileinfo encoding r.queryHash ++
    r.serveContent serve (sentHeader (staticHeaders fileinfo encoding r.queryHash)) encoding.path
      (modtime encoding.path) content

/-- `staticFileHandler(fs, fileinfo)` on a request: its calls on the response
writer, or the panic of the type assertion `file.(io.ReadSeeker)`. -/
def staticFileHandler (serve : ServeEnv) (fs : FS) (modtime : List Char → Time)
    (fileinfo : FileInfo) (r : FileRequest) : Except (List Char) (List WriterCall) :=
  -- should not happen; we only add handlers for existent files
  if clean r.urlPath ≠ fileinfo.identityPath then .ok notFound
  -- if the request provides a hash, check that it matches
  else if r.queryHash ≠ [] ∧ r.queryHash ≠ fileinfo.hash then .ok notFound
  else
  match (negiotiateEncoding (r.header.values "Accept-Encoding".toList) fileinfo.encodings).1 with
  | none => .ok (httpError "internal server error".toList 500)
  | some encoding =>
  match fs.open encoding.path with
  | none => .ok (httpError "internal server error".toList 500)
  | some file =>
    if !file.seekable then
      .error "interface conversion: fs.File is not io.ReadSeeker: missing method Seek".toList
    else .ok (serveStaticFile serve modtime fileinfo encoding r file.content)

/-! ### What the build stores -/

section Stored

variable (codecs : Codecs) (fs : FS)

/-- An encoding as the build stores it: it has a name, and names a seekable
file of `fs` whose bytes, decompressed by the encoding, hash to `hash`. -/
def EncodingInfo.Stored (hash : List Char) (e : EncodingInfo) : Prop :=
  e.encoding ≠ [] ∧ ∃ f, fs.open e.path = some f ∧ f.seekable = true ∧
    ∃ bytes, hashInput codecs e.encoding f.content = .ok bytes ∧
      hash = "sha384-".toList ++ codecs.sha384 bytes

/-- A file info as the build stores it under `key`. -/
structure FileInfo.Stored (key : List Char) (fi : FileInfo) : Prop where
  identityPath_eq : fi.identityPath = key
  identity_mem : ∃ e ∈ fi.encodings, e.encoding = "identity".toList
  encodings_stored : ∀ e ∈ fi.encodings, e.Stored codecs fs fi.hash

/-- The static files and routes of a build, as the handlers rely on them. -/
structure StaticFiles (files : Map (List Char) FileInfo) (routes : List InstanceRoute) : Prop where
  stored : ∀ key fi, files.get key = some fi → fi.Stored codecs fs key
  routes_stored : ∀ r ∈ routes, ∀ p, r.handler = .staticFile p →
    r.pattern = "GET ".toList ++ p ∧ (files.get p).isSome

variable {codecs fs}

theorem staticFiles_empty : StaticFiles codecs fs .empty [] :=
  ⟨fun _ _ h => (by cases h), fun _ hr => (by cases hr)⟩

/-- Storing a file info keeps the invariant. -/
theorem StaticFiles.set {files : Map (List Char) FileInfo} {routes : List InstanceRoute}
    (h : StaticFiles codecs fs files routes) {key : List Char} {fi : FileInfo}
    (hfi : fi.Stored codecs fs key) : StaticFiles codecs fs (files.set key fi) routes := by
  constructor
  · intro key' fi' hget
    rw [Map.get_set] at hget
    by_cases hk : key' = key
    · subst hk
      simp only [beq_self_eq_true, if_true, Option.some.injEq] at hget
      exact hget ▸ hfi
    · simp only [beq_false_of_ne hk, Bool.false_eq_true, if_false] at hget
      exact h.stored key' fi' hget
  · intro r hr p hp
    obtain ⟨hpat, hsome⟩ := h.routes_stored r hr p hp
    refine ⟨hpat, ?_⟩
    rw [Map.get_set]
    split
    · rfl
    · exact hsome

/-- A route that serves no static file keeps the invariant. -/
theorem StaticFiles.route {files : Map (List Char) FileInfo} {routes : List InstanceRoute}
    (h : StaticFiles codecs fs files routes) {route : InstanceRoute}
    (hroute : ∀ p, route.handler ≠ .staticFile p) :
    StaticFiles codecs fs files (routes ++ [route]) := by
  refine ⟨h.stored, fun r hr p hp => ?_⟩
  rcases List.mem_append.mp hr with hr | hr
  · exact h.routes_stored r hr p hp
  · rw [List.mem_singleton] at hr
    subst hr
    exact absurd hp (hroute p)

/-- Storing a file info with its route keeps the invariant. -/
theorem StaticFiles.set_route {files : Map (List Char) FileInfo} {routes : List InstanceRoute}
    (h : StaticFiles codecs fs files routes) {key : List Char} {fi : FileInfo}
    (hfi : fi.Stored codecs fs key) :
    StaticFiles codecs fs (files.set key fi) (routes ++ [⟨"GET ".toList ++ key, .staticFile key⟩]) := by
  have hset := h.set hfi
  refine ⟨hset.stored, fun r hr p hp => ?_⟩
  rcases List.mem_append.mp hr with hr | hr
  · exact hset.routes_stored r hr p hp
  · rw [List.mem_singleton] at hr
    subst hr
    cases hp
    refine ⟨rfl, ?_⟩
    simp [Map.get_set]

end Stored

/-! ### The walk keeps it -/

section Walk

variable {codecs : Codecs} {fs : FS}

theorem Builder.addRoute_eq_ok {b b' : Builder} {route : InstanceRoute}
    (h : b.addRoute route = .ok b') : b'.files = b.files ∧ b'.routes = b.routes ++ [route] := by
  unfold Builder.addRoute at h
  split at h
  · cases h
  · cases h
    exact ⟨rfl, rfl⟩

/-- A template's route serves no static file. -/
theorem templateRoute_handler {templateExtension path name : List Char} {route : InstanceRoute}
    (h : templateRoute templateExtension path name = some route) (p : List Char) :
    route.handler ≠ .staticFile p := by
  unfold templateRoute at h
  repeat' split at h
  -- each route found is a template handler's
  all_goals first
    | (cases h; intro heq; cases heq)
    | cases h

theorem addTemplate_staticFiles {templateExtension path : List Char} {b b' : Builder}
    {tmpl : List Char × Template} (hb : StaticFiles codecs fs b.files b.routes)
    (h : addTemplate templateExtension path b tmpl = .ok b') :
    StaticFiles codecs fs b'.files b'.routes := by
  unfold addTemplate at h
  split at h
  · cases h
    exact hb
  · rename_i route hroute
    obtain ⟨hfiles, hroutes⟩ := Builder.addRoute_eq_ok h
    rw [hfiles, hroutes]
    exact hb.route (templateRoute_handler hroute)

theorem addTemplateHandler_staticFiles {parse : TemplateParser} {templateExtension path : List Char}
    {b b' : Builder} (hb : StaticFiles codecs fs b.files b.routes)
    (h : addTemplateHandler parse templateExtension fs b path = .ok b') :
    StaticFiles codecs fs b'.files b'.routes := by
  unfold addTemplateHandler at h
  split at h
  · cases h
  · dsimp only at h
    split at h
    · cases h
    · exact foldlM_ok_inv (fun b => StaticFiles codecs fs b.files b.routes)
        (fun _ _ _ hb h => addTemplate_staticFiles hb h) _ hb h

/-- The tail of `addStaticFileHandler` for a file of its own: stored under
its identity path with its one identity encoding, once its route is added. -/
theorem staticFiles_addIdentity {b b' : Builder} {path identityPath contentType : List Char}
    {f : FSFile} (hb : StaticFiles codecs fs b.files b.routes)
    (hopen : fs.open path = some f) (hseek : f.seekable = true)
    (h : (match b.addRoute ⟨"GET ".toList ++ identityPath, .staticFile identityPath⟩ with
      | .error err => .error err
      | .ok b => .ok { b with
          files := b.files.set identityPath ⟨identityPath,
            "sha384-".toList ++ codecs.sha384 f.content, contentType,
            [EncodingInfo.mk "identity".toList path f.content.length]⟩,
          stats := { b.stats with staticFiles := b.stats.staticFiles + 1 } } :
        Except (Abort Err) Builder) = .ok b') :
    StaticFiles codecs fs b'.files b'.routes := by
  split at h
  · cases h
  · rename_i b₁ hb₁
    cases h
    obtain ⟨hfiles, hroutes⟩ := Builder.addRoute_eq_ok hb₁
    rw [hfiles, hroutes]
    -- the identity file hashes as it is
    have hstored : EncodingInfo.Stored codecs fs ("sha384-".toList ++ codecs.sha384 f.content)
        ⟨"identity".toList, path, f.content.length⟩ :=
      ⟨by simp, f, hopen, hseek, f.content, by simp [hashInput], rfl⟩
    refine hb.set_route ⟨rfl, ⟨_, List.mem_singleton_self _, rfl⟩, fun e he => ?_⟩
    rw [List.mem_singleton] at he
    exact he ▸ hstored

/-- Every encoding the build names has a name. -/
theorem alternateEncoding_ne_nil (ext : List Char) : alternateEncoding ext ≠ [] := by
  unfold alternateEncoding
  split_ifs <;> simp

/-- `addStaticFileHandler` keeps the invariant: a file of its own is stored
with its identity encoding and its route, and a compressed copy joins the
encodings of the file it decompresses to once the hashes match. -/
theorem addStaticFileHandler_staticFiles {b b' : Builder} {path : List Char}
    (hb : StaticFiles codecs fs b.files b.routes)
    (h : addStaticFileHandler codecs fs b path = .ok b') :
    StaticFiles codecs fs b'.files b'.routes := by
  unfold addStaticFileHandler at h
  cases hopen : fs.open path with
  | none =>
    rw [hopen] at h
    cases h
  | some f =>
    rw [hopen] at h
    dsimp only at h
    cases hseek : f.seekable
    · simp [hseek] at h
    simp only [hseek, Bool.not_true, Bool.false_eq_true, if_false] at h
    have hidentity : ¬ ("identity".toList = "gzip".toList ∨ "identity".toList = "zstd".toList) := by
      decide
    cases hget : b.files.get (trimSuffix (clean ('/' :: path)) (Go.ext path)) with
    | none =>
      simp only [hget, hidentity, hashInput, ↓reduceIte] at h
      exact staticFiles_addIdentity hb hopen hseek h
    | some file =>
      simp only [hget] at h
      by_cases hid : alternateEncoding (Go.ext path) = "identity".toList
      · -- an extension that names no compression: stored as a file of its own
        simp only [hid, hidentity, hashInput, ↓reduceIte] at h
        exact staticFiles_addIdentity hb hopen hseek h
      · -- a compressed copy: decompressed, it must hash as the stored file
        simp only [hid, ↓reduceIte] at h
        split at h
        · cases h
        · split at h
          · cases h
          · rename_i bytes hbytes
            split at h
            · cases h
            · rename_i hhash
              cases h
              have hfile := hb.stored _ _ hget
              have hnew : EncodingInfo.Stored codecs fs file.hash
                  ⟨alternateEncoding (Go.ext path), path, f.content.length⟩ :=
                ⟨alternateEncoding_ne_nil _, f, hopen, hseek, bytes, hbytes, not_not.mp hhash⟩
              have hperm := List.perm_insertionSort (fun e e' : EncodingInfo => e.size ≤ e'.size)
                (file.encodings ++ [⟨alternateEncoding (Go.ext path), path, f.content.length⟩])
              refine hb.set ⟨hfile.identityPath_eq, ?_, fun e he => ?_⟩
              · obtain ⟨e, he, hide⟩ := hfile.identity_mem
                exact ⟨e, hperm.mem_iff.mpr (List.mem_append_left _ he), hide⟩
              · rcases List.mem_append.mp (hperm.mem_iff.mp he) with he | he
                · exact hfile.encodings_stored e he
                · rw [List.mem_singleton] at he
                  exact he ▸ hnew

theorem addFile_staticFiles {parse : TemplateParser} {templateExtension path : List Char}
    {b b' : Builder} (hb : StaticFiles codecs fs b.files b.routes)
    (h : addFile codecs parse templateExtension fs b path = .ok b') :
    StaticFiles codecs fs b'.files b'.routes := by
  unfold addFile at h
  split at h
  · exact addTemplateHandler_staticFiles hb h
  · exact addStaticFileHandler_staticFiles hb h

/-- **The walk keeps the invariant**: it holds of the empty builder, and every
file the walk adds keeps it. -/
theorem walkTemplatesFS_staticFiles {parse : TemplateParser} {templateExtension : List Char}
    {b : Builder} (h : walkTemplatesFS codecs parse templateExtension fs .empty = .ok b) :
    StaticFiles codecs fs b.files b.routes := by
  unfold walkTemplatesFS at h
  split at h
  · cases h
  · have hempty : StaticFiles codecs fs Builder.empty.files Builder.empty.routes :=
      staticFiles_empty
    exact foldlM_ok_inv (fun b => StaticFiles codecs fs b.files b.routes)
      (fun _ _ _ hb h => addFile_staticFiles hb h) _ hempty h

end Walk

/-- A built instance: its FS, the builder the walk left, and the `INIT `
loop over that builder's templates. -/
theorem Config.instance_eq_ok {env : Env} {codecs : Codecs} {parse : TemplateParser}
    {config : Config} {cfgs : List ConfigOption} {w : World} {inst : Instance}
    {stats : InstanceStats} {routes : List InstanceRoute}
    (h : (Config.instance env codecs parse config cfgs w).1 = .ok (inst, stats, routes)) :
    ∃ fs b, inst.config.templatesFS = some fs ∧
      walkTemplatesFS codecs parse inst.config.templateExtension fs .empty = .ok b ∧
      inst.router = b.router ∧ inst.files = b.files ∧ inst.templates = b.templates ∧
      routes = b.routes ∧ b.templates.toList.foldlM (runInitializer inst.bufferDot) b.stats = .ok stats := by
  unfold Config.instance at h
  dsimp only at h
  repeat' split at h
  all_goals first
    | (cases h; exact ⟨_, _, rfl, ‹_›, rfl, rfl, rfl, rfl, ‹_›⟩)
    | cases h

/-- A built instance's static files and routes keep the invariant over the FS
its config names, the one its handlers serve from. -/
theorem Config.instance_staticFiles {env : Env} {codecs : Codecs} {parse : TemplateParser}
    {config : Config} {cfgs : List ConfigOption} {w : World} {inst : Instance}
    {stats : InstanceStats} {routes : List InstanceRoute}
    (h : (Config.instance env codecs parse config cfgs w).1 = .ok (inst, stats, routes)) :
    ∃ fs, inst.config.templatesFS = some fs ∧ StaticFiles codecs fs inst.files routes := by
  obtain ⟨fs, b, hfs, hwalk, -, hfiles, -, hroutes, -⟩ := Config.instance_eq_ok h
  rw [hfiles, hroutes]
  exact ⟨fs, hfs, walkTemplatesFS_staticFiles hwalk⟩

/-! ### What the handler's headers hold -/

section Headers

variable (fileinfo : FileInfo) (encoding : EncodingInfo)

theorem staticHeaders_editHeader (queryhash : List Char) :
    ∀ c ∈ staticHeaders fileinfo encoding queryhash, c.editHeader.isSome := by
  intro c hc
  simp only [staticHeaders, List.mem_append, List.mem_cons, List.not_mem_nil, or_false] at hc
  rcases hc with (rfl | rfl | rfl | rfl) | hc
  any_goals rfl
  split at hc
  · rw [List.mem_singleton] at hc
    subst hc
    rfl
  · cases hc

theorem staticHeaders_statusIn (codes : List Int) (queryhash : List Char) :
    (staticHeaders fileinfo encoding queryhash).all (·.statusIn codes) = true := by
  unfold staticHeaders
  split <;> rfl

/-- The fields the handler's headers set, each key as many times as it is
added. -/
theorem values_staticHeaders (queryhash x : List Char) :
    (sentHeader (staticHeaders fileinfo encoding queryhash)).values x =
      if queryhash ≠ [] ∧ sameField x "Cache-Control".toList then
        ["public, max-age=31536000, immutable".toList]
      else (if sameField x "Etag".toList then ["\"".toList ++ fileinfo.hash ++ "\"".toList] else []) ++
        (if sameField x "Content-Type".toList then [fileinfo.contentType] else []) ++
        (if sameField x "Content-Encoding".toList then [encoding.encoding] else []) ++
        (if sameField x "Vary".toList then ["Accept-Encoding".toList] else []) := by
  have hbase : (sentHeader (staticHeaders fileinfo encoding [])).values x =
      (if sameField x "Etag".toList then ["\"".toList ++ fileinfo.hash ++ "\"".toList] else []) ++
        (if sameField x "Content-Type".toList then [fileinfo.contentType] else []) ++
        (if sameField x "Content-Encoding".toList then [encoding.encoding] else []) ++
        (if sameField x "Vary".toList then ["Accept-Encoding".toList] else []) := by
    simp only [staticHeaders, sentHeader, ne_eq, not_true_eq_false, if_false, List.append_nil,
      sentHeaderFrom, Header.values_add]
    split_ifs <;> rfl
  by_cases hq : queryhash = []
  · subst hq
    simp only [ne_eq, not_true_eq_false, false_and, if_false]
    exact hbase
  · -- the hash query adds `Cache-Control` last
    have hcache : staticHeaders fileinfo encoding queryhash = staticHeaders fileinfo encoding [] ++
        [.headerSet "Cache-Control".toList "public, max-age=31536000, immutable".toList] := by
      simp [staticHeaders, hq]
    rw [hcache, sentHeader, sentHeaderFrom_append (staticHeaders_editHeader _ _ _), sentHeaderFrom,
      sentHeaderFrom, Header.values_set, ← sentHeader, hbase]
    simp only [ne_eq, hq, not_false_eq_true, true_and]

/-- The handler's `Etag`, type and encoding, and the length it does not set. -/
theorem staticHeaders_fields (queryhash : List Char) :
    (sentHeader (staticHeaders fileinfo encoding queryhash)).values "Etag".toList =
        ["\"".toList ++ fileinfo.hash ++ "\"".toList] ∧
      (sentHeader (staticHeaders fileinfo encoding queryhash)).values "Content-Type".toList =
        [fileinfo.contentType] ∧
      (sentHeader (staticHeaders fileinfo encoding queryhash)).values "Content-Encoding".toList =
        [encoding.encoding] ∧
      (sentHeader (staticHeaders fileinfo encoding queryhash)).values "Content-Length".toList = [] := by
  -- the keys differ in length, but for `Etag` and `Vary`, which differ in their first letter
  have hvary : sameField "Etag".toList "Vary".toList = false := sameField_of_head_ne (by simp)
  refine ⟨?_, ?_, ?_, ?_⟩ <;>
    simp (disch := simp) only [values_staticHeaders, sameField_self, hvary, sameField_of_length_ne,
      Bool.false_eq_true, and_false, if_false, if_true, List.nil_append, List.append_nil]

end Headers

/-! ### Serving -/

/-- What the client receives from `calls` that serve the encoding `e` of `fi`
with the bytes `content` on the request `req`: one of `ServeContent`'s
statuses, never a panic; status 200 with the file's `Etag`, type, encoding
and bytes when the request is unconditional; and status 304 with the `Etag`,
no `Content-Encoding` and no body to a `GET` or `HEAD` whose `If-None-Match`
is the `Etag`, when it has no `If-Match` or `If-Unmodified-Since`. -/
structure ServesFile (req : FileRequest) (fi : FileInfo) (e : EncodingInfo) (content : List Char)
    (calls : List WriterCall) : Prop where
  responds : ∃ resp, respond req.head calls = .ok resp ∧ resp.status ∈ serveContentCodes
  unconditional : req.unconditional = true → ∃ resp, respond req.head calls = .ok resp ∧
    resp.status = 200 ∧
    resp.header.values "Etag".toList = ["\"".toList ++ fi.hash ++ "\"".toList] ∧
    resp.header.values "Content-Type".toList = [fi.contentType] ∧
    resp.header.values "Content-Encoding".toList = [e.encoding] ∧
    resp.body = if req.head then [] else content
  notModified : req.getOrHead = true → req.header.get "If-Match".toList = [] →
    req.header.get "If-Unmodified-Since".toList = [] →
    req.header.get "If-None-Match".toList = "\"".toList ++ fi.hash ++ "\"".toList →
    ∃ resp, respond req.head calls = .ok resp ∧ resp.status = 304 ∧
      resp.header.values "Etag".toList = ["\"".toList ++ fi.hash ++ "\"".toList] ∧
      resp.header.values "Content-Encoding".toList = [] ∧ resp.body = []

section Serving

variable {codecs : Codecs} {fs : FS} {key : List Char} {fi : FileInfo}

/-- The handler of a stored file, on a request for its path with no `hash`
query or the right one, serves the encoding negotiation selects: one with a
name, and a seekable file of the FS whose bytes, decompressed by that
encoding, hash to the file's hash. -/
theorem staticFileHandler_stored (hfi : fi.Stored codecs fs key) (serve : ServeEnv)
    (modtime : List Char → Time) (req : FileRequest) (hpath : clean req.urlPath = key)
    (hhash : req.queryHash = [] ∨ req.queryHash = fi.hash) :
    ∃ e ∈ fi.encodings,
      (negiotiateEncoding (req.header.values "Accept-Encoding".toList) fi.encodings).1 = some e ∧
      e.encoding ≠ [] ∧ ∃ f bytes, fs.open e.path = some f ∧
        hashInput codecs e.encoding f.content = .ok bytes ∧
        fi.hash = "sha384-".toList ++ codecs.sha384 bytes ∧
        staticFileHandler serve fs modtime fi req = .ok (serveStaticFile serve modtime fi e req f.content) := by
  have hne : fi.encodings ≠ [] := by
    obtain ⟨e, he, -⟩ := hfi.identity_mem
    exact List.ne_nil_of_mem he
  obtain ⟨e, he, hneg⟩ := negiotiateEncoding_mem (req.header.values "Accept-Encoding".toList) hne
  obtain ⟨hname, f, hopen, hseek, bytes, hbytes, hsri⟩ := hfi.encodings_stored e he
  refine ⟨e, he, hneg, hname, f, bytes, hopen, hbytes, hsri, ?_⟩
  -- the path and the hash checks pass, and the file the build found opens
  have hp : clean req.urlPath = fi.identityPath := by rw [hfi.identityPath_eq, hpath]
  have hq : ¬ (req.queryHash ≠ [] ∧ req.queryHash ≠ fi.hash) := by
    rcases hhash with h | h <;> simp [h]
  simp only [staticFileHandler, hp, ne_eq, not_true_eq_false, hq, hneg, hopen, hseek,
    Bool.not_true, Bool.false_eq_true, ↓reduceIte]

/-- A request without `Accept-Encoding` is served the identity encoding. -/
theorem identity_of_no_accept (hfi : fi.Stored codecs fs key) {e : EncodingInfo}
    (hneg : (negiotiateEncoding [] fi.encodings).1 = some e) : e.encoding = "identity".toList := by
  obtain ⟨e', -, hid, hneg'⟩ := negiotiateEncoding_no_accept hfi.identity_mem
  rw [hneg'] at hneg
  obtain rfl : e' = e := Option.some.inj hneg
  exact hid

/-- The hash of a stored file is an entity tag's text when the digest's is. -/
theorem FileInfo.Stored.hash_etagChars (hfi : fi.Stored codecs fs key)
    (hsri : ∀ bytes, (codecs.sha384 bytes).all etagChar = true) : fi.hash.all etagChar = true := by
  obtain ⟨e, he, -⟩ := hfi.identity_mem
  obtain ⟨-, f, -, -, bytes, -, hhash⟩ := hfi.encodings_stored e he
  rw [hhash, List.all_append, hsri bytes, Bool.and_true]
  rfl

end Serving

section Responses

variable (serve : ServeEnv) (modtime : List Char → Time) (fi : FileInfo) (e : EncodingInfo)
  (req : FileRequest) (content : List Char)

/-- An unconditional request gets the file with status 200: the handler's
headers, `Last-Modified` and `Accept-Ranges`. -/
theorem respond_serveStaticFile_unconditional (hname : e.encoding ≠ [])
    (hr : req.unconditional = true) :
    respond req.head (serveStaticFile serve modtime fi e req content) =
      .ok ⟨[], 200, sentHeader (staticHeaders fi e req.queryHash ++
          setLastModified serve (modtime e.path) ++
          [.headerSet "Accept-Ranges".toList "bytes".toList]),
        if req.head then [] else content⟩ := by
  obtain ⟨-, hct, hce, hcl⟩ := staticHeaders_fields fi e req.queryHash
  have hedits := staticHeaders_editHeader fi e req.queryHash
  -- the handler set a type, so `ServeContent` sets none
  have htype : (contentType serve (sentHeaderFrom (sentHeader (staticHeaders fi e req.queryHash))
      (setLastModified serve (modtime e.path))) e.path content).1 = [] := by
    have hhas : (sentHeaderFrom (sentHeader (staticHeaders fi e req.queryHash))
        (setLastModified serve (modtime e.path))).has "Content-Type".toList = true := by
      apply Header.has_of_values_ne_nil
      rw [values_sentHeaderFrom_of_keepsField
        (setLastModified_keepsField serve _ (sameField_of_length_ne (by simp))), hct]
      simp
    rw [contentType, if_pos hhas]
  have hrespond := respond_serveContent_unconditional serve hedits hr
    (by rw [Header.get, hce]; exact hname) (by rw [Header.get, hcl]; rfl) e.path (modtime e.path) content
  rw [htype, List.append_nil] at hrespond
  exact hrespond

/-- The fields the handler set reach the 200 response. -/
theorem values_serveStaticFile_unconditional {x : List Char}
    (hlm : sameField x "Last-Modified".toList = false)
    (har : sameField x "Accept-Ranges".toList = false) :
    (sentHeader (staticHeaders fi e req.queryHash ++ setLastModified serve (modtime e.path) ++
        [.headerSet "Accept-Ranges".toList "bytes".toList])).values x =
      (sentHeader (staticHeaders fi e req.queryHash)).values x := by
  have hkeep : ∀ c ∈ setLastModified serve (modtime e.path) ++
      [.headerSet "Accept-Ranges".toList "bytes".toList], c.keepsField x := by
    intro c hc
    rcases List.mem_append.mp hc with hc | hc
    · exact setLastModified_keepsField serve _ hlm c hc
    · rw [List.mem_singleton] at hc
      subst hc
      simpa [WriterCall.keepsField] using har
  rw [List.append_assoc, sentHeader, sentHeaderFrom_append (staticHeaders_editHeader _ _ _),
    values_sentHeaderFrom_of_keepsField hkeep]
  rfl

/-- **What the handler's calls send**, for an encoding with a name and a hash
that is an entity tag's text. -/
theorem serveStaticFile_servesFile (hname : e.encoding ≠ [])
    (hetag : fi.hash.all etagChar = true) :
    ServesFile req fi e content (serveStaticFile serve modtime fi e req content) where
  responds := respond_serveContent (staticHeaders_statusIn fi e _ req.queryHash) req.toRequest
    serve _ e.path (modtime e.path) content
  unconditional hr := by
    obtain ⟨hetagv, hct, hce, -⟩ := staticHeaders_fields fi e req.queryHash
    refine ⟨_, respond_serveStaticFile_unconditional serve modtime fi e req content hname hr, rfl,
      ?_, ?_, ?_, rfl⟩
    · rw [values_serveStaticFile_unconditional serve modtime fi e req
        (sameField_of_length_ne (by simp)) (sameField_of_length_ne (by simp)), hetagv]
    · rw [values_serveStaticFile_unconditional serve modtime fi e req
        (sameField_of_length_ne (by simp)) (sameField_of_length_ne (by simp)), hct]
    · rw [values_serveStaticFile_unconditional serve modtime fi e req
        (sameField_of_length_ne (by simp)) (sameField_of_length_ne (by simp)), hce]
  notModified hg hm hu hinm := by
    obtain ⟨hetagv, -, -, -⟩ := staticHeaders_fields fi e req.queryHash
    -- `Last-Modified` leaves the `Etag` the `If-None-Match` names
    have hget : (sentHeaderFrom (sentHeader (staticHeaders fi e req.queryHash))
        (setLastModified serve (modtime e.path))).get "Etag".toList =
          '"' :: fi.hash ++ ['"'] := by
      rw [get_sentHeaderFrom_of_keepsField
        (setLastModified_keepsField serve _ (sameField_of_length_ne (by simp))), Header.get, hetagv]
      rfl
    obtain ⟨hdr, hrespond, hgone, hkept⟩ := respond_serveContent_notModified serve
      (staticHeaders_editHeader fi e req.queryHash) hg hm hu
      (checkIfNoneMatch_quoted hetag hinm hget)
    refine ⟨_, hrespond, rfl, ?_, hgone _ (by simp), rfl⟩
    rw [hkept _ (fun k hk => ?_), hetagv]
    simp only [List.mem_cons, List.not_mem_nil, or_false] at hk
    rcases hk with rfl | rfl | rfl | rfl | rfl <;> exact sameField_of_length_ne (by simp)

end Responses

/-- **Every static route of a built instance serves its file.** The route is
`GET` of a stored path, and its handler answers every request for that path,
with no `hash` query or the right one, whatever its `Accept-Encoding`, by
serving one stored encoding of the file: the bytes of a file of the
instance's templates FS that, decompressed by the encoding, hash to the
`Etag`, and the identity file itself when the request has no
`Accept-Encoding`. The client gets one of `ServeContent`'s statuses, 200 with
the file's `Etag`, type, encoding and bytes for an unconditional request,
and 304 for a `GET` or `HEAD` whose `If-None-Match` is the `Etag`, provided
the digest's text is an entity tag's, as base64 is. -/
theorem instance_serves_static_files {env : Env} {codecs : Codecs} {parse : TemplateParser}
    {config : Config} {cfgs : List ConfigOption} {w : World} {inst : Instance}
    {stats : InstanceStats} {routes : List InstanceRoute}
    (h : (Config.instance env codecs parse config cfgs w).1 = .ok (inst, stats, routes))
    (hsri : ∀ bytes, (codecs.sha384 bytes).all etagChar = true)
    {r : InstanceRoute} (hr : r ∈ routes) {p : List Char} (hp : r.handler = .staticFile p) :
    ∃ fs fi, inst.config.templatesFS = some fs ∧ inst.files.get p = some fi ∧
      r.pattern = "GET ".toList ++ p ∧
      ∀ (serve : ServeEnv) (modtime : List Char → Time) (req : FileRequest),
        clean req.urlPath = p → (req.queryHash = [] ∨ req.queryHash = fi.hash) →
        ∃ e ∈ fi.encodings, ∃ f bytes, fs.open e.path = some f ∧
          hashInput codecs e.encoding f.content = .ok bytes ∧
          fi.hash = "sha384-".toList ++ codecs.sha384 bytes ∧
          (req.header.values "Accept-Encoding".toList = [] →
            e.encoding = "identity".toList ∧ bytes = f.content) ∧
          staticFileHandler serve fs modtime fi req =
            .ok (serveStaticFile serve modtime fi e req f.content) ∧
          ServesFile req fi e f.content (serveStaticFile serve modtime fi e req f.content) := by
  obtain ⟨fs, hfs, hstatic⟩ := Config.instance_staticFiles h
  obtain ⟨hpat, hsome⟩ := hstatic.routes_stored r hr p hp
  obtain ⟨fi, hfi⟩ := Option.isSome_iff_exists.mp hsome
  have hstored := hstatic.stored p fi hfi
  refine ⟨fs, fi, hfs, hfi, hpat, fun serve modtime req hpath hhash => ?_⟩
  obtain ⟨e, he, hneg, hname, f, bytes, hopen, hbytes, hsri', hserved⟩ :=
    staticFileHandler_stored hstored serve modtime req hpath hhash
  refine ⟨e, he, f, bytes, hopen, hbytes, hsri', fun hnone => ?_, hserved,
    serveStaticFile_servesFile serve modtime fi e req f.content hname (hstored.hash_etagChars hsri)⟩
  -- identity is hashed as it is stored
  have hid := identity_of_no_accept hstored (hnone ▸ hneg)
  refine ⟨hid, ?_⟩
  simp only [hashInput, hid, if_true, Except.ok.injEq] at hbytes
  exact hbytes.symm

/-! ### `DotX.StaticFileHash` -/

/-- `DotX.StaticFileHash(urlpath)`: the hash of the static file at the path,
rooted and cleaned. -/
def DotX.staticFileHash (inst : Instance) (urlpath : List Char) : Except Err (List Char) :=
  let urlpath := clean ('/' :: urlpath)
  match inst.files.get urlpath with
  | none => .error (.leaf (.other ("file does not exist: '".toList ++ urlpath ++ "'".toList)))
  | some fileinfo => .ok fileinfo.hash

/-- A request for a stored file's path whose `hash` is set but wrong is not
found. -/
theorem staticFileHandler_wrong_hash (serve : ServeEnv) {fs : FS} (modtime : List Char → Time)
    {fi : FileInfo} {req : FileRequest} (hpath : clean req.urlPath = fi.identityPath)
    (hset : req.queryHash ≠ []) (hwrong : req.queryHash ≠ fi.hash) :
    staticFileHandler serve fs modtime fi req = .ok notFound := by
  simp [staticFileHandler, hpath, hset, hwrong]

/-- `http.NotFound` sends 404 with its message, none for `HEAD`. -/
theorem respond_notFound (head : Bool) :
    respond head notFound =
      .ok ⟨[], 404, httpErrorHeader, if head then [] else "404 page not found\n".toList⟩ := by
  rw [notFound, respond_httpError,
    statusResponse_of_bodyAllowed _ (by norm_num) (by decide) declaredLength_httpErrorHeader]
  rfl

/-- A stored file's hash is never empty, so a URL carrying it is cached. -/
theorem FileInfo.Stored.hash_ne_nil {codecs : Codecs} {fs : FS} {key : List Char} {fi : FileInfo}
    (hfi : fi.Stored codecs fs key) : fi.hash ≠ [] := by
  obtain ⟨e, he, -⟩ := hfi.identity_mem
  obtain ⟨-, f, -, -, bytes, -, hsri⟩ := hfi.encodings_stored e he
  simp [hsri]

/-- **The hash a template gets is the one the handler wants.** For every
static route of a built instance and every name that roots and cleans to
its path, `StaticFileHash` returns the file's hash. A request for the path
with that hash is served a stored encoding, and an unconditional one gets
200 with `Cache-Control: public, max-age=31536000, immutable`; a request
with any other hash gets 404. -/
theorem staticFileHash_served {env : Env} {codecs : Codecs} {parse : TemplateParser}
    {config : Config} {cfgs : List ConfigOption} {w : World} {inst : Instance}
    {stats : InstanceStats} {routes : List InstanceRoute}
    (h : (Config.instance env codecs parse config cfgs w).1 = .ok (inst, stats, routes))
    {r : InstanceRoute} (hr : r ∈ routes) {p : List Char} (hp : r.handler = .staticFile p)
    {name : List Char} (hname : clean ('/' :: name) = p) :
    ∃ fs fi, inst.config.templatesFS = some fs ∧ inst.files.get p = some fi ∧
      DotX.staticFileHash inst name = .ok fi.hash ∧
      ∀ (serve : ServeEnv) (modtime : List Char → Time) (req : FileRequest),
        clean req.urlPath = p →
        (req.queryHash = fi.hash → ∃ e ∈ fi.encodings, ∃ f,
          staticFileHandler serve fs modtime fi req = .ok (serveStaticFile serve modtime fi e req f) ∧
          (req.unconditional = true → ∃ resp,
            respond req.head (serveStaticFile serve modtime fi e req f) = .ok resp ∧
            resp.status = 200 ∧
            resp.header.values "Cache-Control".toList =
              ["public, max-age=31536000, immutable".toList])) ∧
        (req.queryHash ≠ [] → req.queryHash ≠ fi.hash →
          staticFileHandler serve fs modtime fi req = .ok notFound ∧
          respond req.head notFound =
            .ok ⟨[], 404, httpErrorHeader, if req.head then [] else "404 page not found\n".toList⟩) := by
  obtain ⟨fs, hfs, hstatic⟩ := Config.instance_staticFiles h
  obtain ⟨-, hsome⟩ := hstatic.routes_stored r hr p hp
  obtain ⟨fi, hfi⟩ := Option.isSome_iff_exists.mp hsome
  have hstored := hstatic.stored p fi hfi
  refine ⟨fs, fi, hfs, hfi, by simp [DotX.staticFileHash, hname, hfi],
    fun serve modtime req hpath => ⟨fun hhash => ?_, fun hset hwrong => ?_⟩⟩
  · obtain ⟨e, he, -, hname', f, -, -, -, -, hserved⟩ :=
      staticFileHandler_stored hstored serve modtime req hpath (.inr hhash)
    refine ⟨e, he, f.content, hserved, fun hr' => ⟨_,
      respond_serveStaticFile_unconditional serve modtime fi e req f.content hname' hr', rfl, ?_⟩⟩
    -- the valid hash sets `Cache-Control`, which `ServeContent` keeps
    rw [values_serveStaticFile_unconditional serve modtime fi e req
      (sameField_of_head_ne (by simp)) (sameField_of_head_ne (by simp)), values_staticHeaders,
      if_pos ⟨hhash ▸ hstored.hash_ne_nil, sameField_self _⟩]
  · exact ⟨staticFileHandler_wrong_hash serve modtime (by rw [hpath, hstored.identityPath_eq])
      hset hwrong, respond_notFound req.head⟩

/-- An FS with one stylesheet. -/
def cssFS : FS := ⟨[⟨"a.css".toList, "a\x7b\x7d".toList, true⟩], by decide⟩

/-- The route the build gives the stylesheet. -/
def cssRoute : InstanceRoute := ⟨"GET /a.css".toList, .staticFile "/a.css".toList⟩

/-- The theorem at the build of `cssFS` and its one route. -/
theorem instance_serves_static_files_css :
    ∃ inst stats, (Config.instance Env.up plainCodecs noTemplates (.ofFS cssFS) []
        World.initial).1 = .ok (inst, stats, [cssRoute]) ∧
      (∀ bytes, (plainCodecs.sha384 bytes).all etagChar = true) ∧
      ∃ fs fi, inst.config.templatesFS = some fs ∧ inst.files.get "/a.css".toList = some fi ∧
        cssRoute.pattern = "GET ".toList ++ "/a.css".toList ∧
        ∀ (serve : ServeEnv) (modtime : List Char → Time) (req : FileRequest),
          clean req.urlPath = "/a.css".toList → (req.queryHash = [] ∨ req.queryHash = fi.hash) →
          ∃ e ∈ fi.encodings, ∃ f bytes, fs.open e.path = some f ∧
            hashInput plainCodecs e.encoding f.content = .ok bytes ∧
            fi.hash = "sha384-".toList ++ plainCodecs.sha384 bytes ∧
            (req.header.values "Accept-Encoding".toList = [] →
              e.encoding = "identity".toList ∧ bytes = f.content) ∧
            staticFileHandler serve fs modtime fi req =
              .ok (serveStaticFile serve modtime fi e req f.content) ∧
            ServesFile req fi e f.content (serveStaticFile serve modtime fi e req f.content) := by
  obtain ⟨inst, stats, h⟩ : ∃ inst stats, (Config.instance Env.up plainCodecs noTemplates
      (.ofFS cssFS) [] World.initial).1 = .ok (inst, stats, [cssRoute]) := ⟨_, _, rfl⟩
  have hsri : ∀ bytes, (plainCodecs.sha384 bytes).all etagChar = true := fun _ => rfl
  exact ⟨inst, stats, h, hsri, instance_serves_static_files h hsri List.mem_cons_self rfl⟩

/-- The theorem at the stylesheet, named `a.css` as a template would. -/
theorem staticFileHash_served_css :
    ∃ inst stats, (Config.instance Env.up plainCodecs noTemplates (.ofFS cssFS) []
        World.initial).1 = .ok (inst, stats, [cssRoute]) ∧
      ∃ fs fi, inst.config.templatesFS = some fs ∧ inst.files.get "/a.css".toList = some fi ∧
        DotX.staticFileHash inst "a.css".toList = .ok fi.hash ∧
        ∀ (serve : ServeEnv) (modtime : List Char → Time) (req : FileRequest),
          clean req.urlPath = "/a.css".toList →
          (req.queryHash = fi.hash → ∃ e ∈ fi.encodings, ∃ f,
            staticFileHandler serve fs modtime fi req = .ok (serveStaticFile serve modtime fi e req f) ∧
            (req.unconditional = true → ∃ resp,
              respond req.head (serveStaticFile serve modtime fi e req f) = .ok resp ∧
              resp.status = 200 ∧
              resp.header.values "Cache-Control".toList =
                ["public, max-age=31536000, immutable".toList])) ∧
          (req.queryHash ≠ [] → req.queryHash ≠ fi.hash →
            staticFileHandler serve fs modtime fi req = .ok notFound ∧
            respond req.head notFound =
              .ok ⟨[], 404, httpErrorHeader, if req.head then [] else "404 page not found\n".toList⟩) := by
  obtain ⟨inst, stats, h⟩ : ∃ inst stats, (Config.instance Env.up plainCodecs noTemplates
      (.ofFS cssFS) [] World.initial).1 = .ok (inst, stats, [cssRoute]) := ⟨_, _, rfl⟩
  exact ⟨inst, stats, h, staticFileHash_served h List.mem_cons_self rfl (by decide)⟩

end Xtemplate
