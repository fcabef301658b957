import Xtemplate.Build

/-!
`Config` and `Config.Instance` (`config.go`, `instance.go`), with the `Init`
of each provider (`dot_db_config.go`, `dot_fs_config.go`,
`dot_nats_config.go`).

`Config.Instance` applies the options, walks the templates FS, checks that no
two configured providers share a field name, initializes the providers in
order, builds the two dots with `makeDot`, and runs the `INIT ` templates. A
step that fails returns its error; `makeDot` and the walk can also panic, and
nothing recovers those panics.

What the providers open lives outside the instance, in the `World`: `sql.DB`
pools, NATS connections and in-process NATS servers, with the contexts that
`Server` makes. What the outside answers (whether a database accepts a ping,
what is on disk) is the `Env`. The logger, the function maps, the template
delimiters and minification are left out.
-/

namespace Xtemplate

open Go

/-! ### The world outside -/

/-- What the process holds that an instance build or a server changes. -/
structure World where
  /-- `nextInstanceIdentity`. -/
  nextInstance : Nat
  /-- The next fresh handle for a context, a pool, a connection or a server;
  the handle `0` is `context.Background()`. -/
  nextHandle : Nat
  /-- The contexts `context.WithCancel` made. -/
  contexts : List Nat
  /-- The contexts cancelled. -/
  cancelled : List Nat
  /-- The open `sql.DB` pools. -/
  pools : List Nat
  /-- The open NATS connections. -/
  conns : List Nat
  /-- The running in-process NATS servers, each with the context whose end
  shuts it down. -/
  servers : List (Nat × Nat)

/-- A process before any instance: only `context.Background()` exists. -/
def World.initial : World := ⟨0, 1, [], [], [], [], []⟩

/-- A fresh handle. -/
def World.fresh (w : World) : Nat × World := (w.nextHandle, { w with nextHandle := w.nextHandle + 1 })

/-- `cancel()` of a context: it is done from now on, and the goroutine that
waits on it shuts its in-process NATS server down. -/
def World.cancel (w : World) (ctx : Nat) : World :=
  { w with cancelled := w.cancelled ++ [ctx], servers := w.servers.filter (·.2 != ctx) }

/-- What the outside answers when an instance is built. -/
structure Env where
  /-- The files `os.DirFS(dir)` holds now. -/
  dirFS : List Char → FS
  /-- The error of `sql.Open(driver, connstr)`, if any. -/
  sqlOpen : List Char → List Char → Option Err
  /-- The error of `db.Ping()` on that pool, if any. -/
  sqlPing : List Char → List Char → Option Err
  /-- The error of `Stat(".")` on `os.DirFS(path)`, if any. -/
  statDir : List Char → Option Err
  /-- The error of `server.NewServer`, if any. -/
  natsServer : Option Err
  /-- The error of `connOpt.Connect()`, if any. -/
  natsConnect : Option Err
  /-- The error of `jetstream.New`, if any. -/
  jetStream : Option Err

/-! ### Provider `Init` -/

/-- `DotDBConfig.Init`: a configured pool is kept; otherwise one is opened
and pinged. A pool whose ping fails stays open. -/
def DotDBConfig.init (env : Env) (d : DotDBConfig) (w : World) : Except Err DotDBConfig × World :=
  match d.db with
  | some _ => (.ok d, w)
  | none =>
    match env.sqlOpen d.driver d.connstr with
    | some err =>
      (.error (.wrap ("failed to open database with driver name '".toList ++ d.driver ++
        "': ".toList) err), w)
    | none =>
      let (pool, w) := w.fresh
      let w := { w with pools := w.pools ++ [pool] }
      match env.sqlPing d.driver d.connstr with
      | some err => (.error (.wrap "failed to ping database on open: ".toList err), w)
      | none => (.ok { d with db := some pool }, w)

/-- `DotDirConfig.Init`: a configured FS is kept; otherwise the directory is
opened with `os.DirFS` and checked with a `Stat`. -/
def DotDirConfig.init (env : Env) (d : DotDirConfig) (w : World) : Except Err DotDirConfig × World :=
  match d.fs with
  | some _ => (.ok d, w)
  | none =>
    match env.statDir d.path with
    | some err =>
      (.error (.wrap ("failed to stat fs current directory '".toList ++ d.path ++ "': ".toList) err), w)
    | none =>
      let (fs, w) := w.fresh
      (.ok { d with fs := some fs }, w)

/-- The in-process NATS server of `DotNatsConfig.Init`, started and tied to
the context. -/
def startInProcessServer (env : Env) (ctx : Nat) (w : World) : Except Err World :=
  match env.natsServer with
  | some err => .error (.wrap "failed to start in-process nats server: ".toList err)
  | none =>
    let (server, w) := w.fresh
    .ok { w with servers := w.servers ++ [(server, ctx)] }

/-- `DotNatsConfig.Init`: a configured connection gets a JetStream context;
otherwise a connection is opened, to an in-process server if the config asks
for one. A connection whose JetStream context fails stays open. -/
def DotNatsConfig.init (env : Env) (ctx : Nat) (d : DotNatsConfig) (w : World) :
    Except Err DotNatsConfig × World :=
  match d.conn with
  | some _ =>
    if d.js then (.ok d, w)
    else
      match env.jetStream with
      | some err => (.error err, w)
      | none => (.ok { d with js := true }, w)
  | none =>
    match d.natsConfig with
    | none =>
      (.error (errorf "no nats client and no config provided to initialzie nats client"), w)
    | some nc =>
      match (if nc.inProcessServer then startInProcessServer env ctx w else .ok w) with
      | .error err => (.error err, w)
      | .ok w =>
        match env.natsConnect with
        | some err => (.error (.wrap "failed to connect to in-process server: ".toList err), w)
        | none =>
          let (conn, w) := w.fresh
          let w := { w with conns := w.conns ++ [conn] }
          match env.jetStream with
          | some err => (.error err, w)
          | none => (.ok { d with conn := some conn, js := true }, w)

/-- `Init(ctx)` of a provider. The package's own providers and
`DotFlagsConfig` have nothing to open. -/
def DotConfig.init (env : Env) (ctx : Nat) : DotConfig → World → Except Err DotConfig × World
  | .db d, w => let (r, w) := d.init env w; (r.map .db, w)
  | .dir d, w => let (r, w) := d.init env w; (r.map .dir, w)
  | .nats d, w => let (r, w) := d.init env ctx w; (r.map .nats, w)
  | .custom p, w =>
    (match p.initError with
     | some err => .error err
     | none => .ok (.custom p), w)
  | dp, w => (.ok dp, w)

/-- The `Init` loop of `Config.Instance`: every provider in order, until one
fails. -/
def initProviders (env : Env) (ctx : Nat) : List DotConfig → World → Except Err (List DotConfig) × World
  | [], w => (.ok [], w)
  | d :: ds, w =>
    match d.init env ctx w with
    | (.error err, w) =>
      (.error (.wrap ("failed to initialize dot field '".toList ++ d.fieldName ++ "': ".toList) err), w)
    | (.ok d, w) =>
      match initProviders env ctx ds w with
      | (.ok ds, w) => (.ok (d :: ds), w)
      | (.error err, w) => (.error err, w)

/-! ### `Config` -/

/-- `Config`. `ctx` is a context by handle; its zero value is
`context.Background()`, as `Defaults` makes a nil one. -/
structure Config where
  templatesDir : List Char
  templatesFS : Option FS
  templateExtension : List Char
  databases : List DotDBConfig
  flags : List DotFlagsConfig
  directories : List DotDirConfig
  nats : List DotNatsConfig
  customProviders : List DotConfig
  ctx : Nat

/-- `Option` (a name of Lean's core): a change to a config, which may fail. -/
def ConfigOption : Type := Config → Except Err Config

/-- `Config.Defaults`. -/
def Config.defaults (c : Config) : Config :=
  { c with templatesDir := if c.templatesDir = [] then "templates".toList else c.templatesDir,
           templateExtension :=
             if c.templateExtension = [] then ".html".toList else c.templateExtension }

/-- `Config.Options`: the options in order, until one fails. -/
def Config.options (c : Config) (cfgs : List ConfigOption) : Except Err Config :=
  cfgs.foldlM (fun c o =>
    match o c with
    | .ok c => .ok c
    | .error err => .error (.wrap "failed to apply xtemplate config option: ".toList err)) c

/-- The configured providers, in the order `Config.Instance` collects them. -/
def Config.dotProviders (c : Config) : List DotConfig :=
  c.databases.map .db ++ c.flags.map .flags ++ c.directories.map .dir ++ c.nats.map .nats ++
    c.customProviders

/-- A field name that more than one configured provider uses, with its count.
Go ranges over a map of counts, in an unspecified order; here the first such
name in provider order. -/
def duplicateName (dps : List DotConfig) : Option (List Char × Nat) :=
  let names := dps.map DotConfig.fieldName
  (names.find? fun n => names.count n > 1).map fun n => (n, names.count n)

/-! ### `Config.Instance` -/

/-- `Instance`. -/
structure Instance where
  config : Config
  id : Nat
  router : ServeMux
  files : Map (List Char) FileInfo
  templates : Map (List Char) Template
  bufferDot : Dot
  flusherDot : Dot

/-- One template of the `INIT ` loop: executed on a dot value of a recorder
and cleaned up; its output is dropped. -/
def runInitializer (d : Dot) (stats : InstanceStats) (tmpl : List Char × Template) :
    Except Err InstanceStats :=
  if hasPrefix tmpl.1 "INIT ".toList then
    -- `httptest.NewRecorder()` is an `http.Flusher`
    match d.value true with
    | .error err => .error (.wrap "failed to initialize dot value: ".toList err)
    | .ok v =>
      let run := tmpl.2 v
      match (d.cleanup run.fields run.err).1 with
      | some err => .error (.wrap ("template initializer '".toList ++ tmpl.1 ++ "' failed: ".toList) err)
      | none => .ok { stats with templateInitializers := stats.templateInitializers + 1 }
  else .ok stats

/-- `Config.Instance(cfgs...)`: the instance, its stats and its routes, or
the error or panic that stopped the build, and the world after it. -/
def Config.instance (env : Env) (codecs : Codecs) (parse : TemplateParser) (config : Config)
    (cfgs : List ConfigOption) (w : World) :
    Except (Abort Err) (Instance × InstanceStats × List InstanceRoute) × World :=
  let id := w.nextInstance + 1
  let w := { w with nextInstance := id }
  match config.defaults.options cfgs with
  | .error err => (.error (.error err), w)
  | .ok cfg =>
  -- a nil `TemplatesFS` is set to the directory's FS, which the handlers then serve from
  let fs := cfg.templatesFS.getD (env.dirFS cfg.templatesDir)
  let cfg := { cfg with templatesFS := some fs }
  match walkTemplatesFS codecs parse cfg.templateExtension fs .empty with
  | .error abort => (.error abort, w)
  | .ok b =>
  match duplicateName cfg.dotProviders with
  | some (name, count) =>
    (.error (.error (.leaf (.other ("dot field name '".toList ++ name ++ "' is used ".toList ++
      (toString count).toList ++ " times".toList)))), w)
  | none =>
  match initProviders env cfg.ctx cfg.dotProviders w with
  | (.error err, w) => (.error (.error err), w)
  | (.ok dot, w) =>
  -- `reflect.StructOf` panics on a field name it cannot take
  match makeDot ([.x, .req] ++ dot ++ [.resp]) with
  | .error msg => (.error (.panic msg), w)
  | .ok bufferDot =>
  match makeDot ([.x, .req] ++ dot ++ [.flush]) with
  | .error msg => (.error (.panic msg), w)
  | .ok flusherDot =>
  match b.templates.toList.foldlM (runInitializer bufferDot) b.stats with
  | .error err => (.error (.error err), w)
  | .ok stats =>
    (.ok (⟨cfg, id, b.router, b.files, b.templates, bufferDot, flusherDot⟩, stats, b.routes), w)

/-! ### What a build leaves of the world -/

/-- `w'` is `w` after some provider `Init`s: the same contexts, none more
cancelled, and no handle handed out twice. -/
structure World.Grows (w w' : World) : Prop where
  contexts_eq : w'.contexts = w.contexts
  cancelled_eq : w'.cancelled = w.cancelled
  nextHandle_le : w.nextHandle ≤ w'.nextHandle

theorem World.Grows.refl (w : World) : w.Grows w := ⟨rfl, rfl, le_rfl⟩

theorem World.Grows.trans {w₁ w₂ w₃ : World} (h₁ : w₁.Grows w₂) (h₂ : w₂.Grows w₃) :
    w₁.Grows w₃ :=
  ⟨h₂.contexts_eq.trans h₁.contexts_eq, h₂.cancelled_eq.trans h₁.cancelled_eq,
    h₁.nextHandle_le.trans h₂.nextHandle_le⟩

/-- A world whose only change is a fresh handle and what it is recorded as
grows. -/
theorem World.grows_of_fresh {w w' : World} (hc : w'.contexts = w.contexts)
    (hx : w'.cancelled = w.cancelled) (hn : w'.nextHandle = w.nextHandle + 1) : w.Grows w' :=
  ⟨hc, hx, by omega⟩

theorem DotDBConfig.init_grows (env : Env) (d : DotDBConfig) (w : World) :
    w.Grows (d.init env w).2 := by
  unfold DotDBConfig.init
  dsimp only
  split
  · exact .refl w
  · split
    · exact .refl w
    · split <;> exact World.grows_of_fresh rfl rfl rfl

theorem DotDirConfig.init_grows (env : Env) (d : DotDirConfig) (w : World) :
    w.Grows (d.init env w).2 := by
  unfold DotDirConfig.init
  dsimp only
  split
  · exact .refl w
  · split
    · exact .refl w
    · exact World.grows_of_fresh rfl rfl rfl

theorem startInProcessServer_grows {env : Env} {ctx : Nat} {w w' : World}
    (h : startInProcessServer env ctx w = .ok w') : w.Grows w' := by
  unfold startInProcessServer at h
  split at h
  · cases h
  · cases h
    exact World.grows_of_fresh rfl rfl rfl

theorem DotNatsConfig.init_grows (env : Env) (ctx : Nat) (d : DotNatsConfig) (w : World) :
    w.Grows (d.init env ctx w).2 := by
  unfold DotNatsConfig.init
  dsimp only
  split
  · split
    · exact .refl w
    · split <;> exact .refl w
  · split
    · exact .refl w
    · -- the server, if one is started, then the connection
      split
      · exact .refl w
      · rename_i w₁ hstart
        have h₁ : w.Grows w₁ := by
          split at hstart
          · exact startInProcessServer_grows hstart
          · cases hstart
            exact .refl w
        split
        · exact h₁
        · split <;> exact h₁.trans (World.grows_of_fresh rfl rfl rfl)

theorem DotConfig.init_grows (env : Env) (ctx : Nat) (dp : DotConfig) (w : World) :
    w.Grows (dp.init env ctx w).2 := by
  cases dp with
  | db d => exact DotDBConfig.init_grows env d w
  | dir d => exact DotDirConfig.init_grows env d w
  | nats d => exact DotNatsConfig.init_grows env ctx d w
  | custom p => exact .refl w
  | x | req | resp | flush | flags _ => exact .refl w

theorem initProviders_grows (env : Env) (ctx : Nat) (dps : List DotConfig) (w : World) :
    w.Grows (initProviders env ctx dps w).2 := by
  induction dps generalizing w with
  | nil => exact .refl w
  | cons dp dps ih =>
    have hdp := DotConfig.init_grows env ctx dp w
    unfold initProviders
    -- the first provider's `Init`, then the others' from the world it leaves
    split
    · rename_i err w₁ heq
      rw [heq] at hdp
      exact hdp
    · rename_i d w₁ heq
      rw [heq] at hdp
      have hrest := ih w₁
      split <;> rename_i heq' <;> rw [heq'] at hrest <;> exact hdp.trans hrest

theorem grows_of_initProviders_eq {env : Env} {ctx : Nat} {dps : List DotConfig} {w w' : World}
    {r : Except Err (List DotConfig)} (h : initProviders env ctx dps w = (r, w')) : w.Grows w' := by
  have hg := initProviders_grows env ctx dps w
  rw [h] at hg
  exact hg

/-- A build changes no context and hands out only fresh handles. -/
theorem Config.instance_grows (env : Env) (codecs : Codecs) (parse : TemplateParser)
    (config : Config) (cfgs : List ConfigOption) (w : World) :
    w.Grows (Config.instance env codecs parse config cfgs w).2 := by
  -- every step but the `Init` loop leaves the world as the counter step left it
  have hid : w.Grows { w with nextInstance := w.nextInstance + 1 } := ⟨rfl, rfl, le_rfl⟩
  unfold Config.instance
  dsimp only
  repeat' split
  all_goals first
    | exact hid
    | exact hid.trans (grows_of_initProviders_eq ‹_›)

/-- An option that keeps `Ctx`; every option of the package does. -/
def KeepsCtx (o : ConfigOption) : Prop := ∀ c c', o c = .ok c' → c'.ctx = c.ctx

theorem Config.options_ctx {c c' : Config} {cfgs : List ConfigOption}
    (hkeep : ∀ o ∈ cfgs, KeepsCtx o) (h : c.options cfgs = .ok c') : c'.ctx = c.ctx := by
  induction cfgs generalizing c with
  | nil =>
    cases h
    rfl
  | cons o cfgs ih =>
    simp only [Config.options, List.foldlM_cons] at h
    -- the first option, then the others from the config it made
    cases ho : o c with
    | error err =>
      rw [ho] at h
      cases h
    | ok c₁ =>
      rw [ho] at h
      have h₁ := hkeep o List.mem_cons_self c c₁ ho
      rw [← h₁]
      exact ih (fun o' ho' => hkeep o' (List.mem_cons_of_mem _ ho')) h

/-- The instance a build returns runs in the config's context. -/
theorem Config.instance_ctx {env : Env} {codecs : Codecs} {parse : TemplateParser}
    {config : Config} {cfgs : List ConfigOption} {w : World} {inst : Instance}
    {stats : InstanceStats} {routes : List InstanceRoute} (hkeep : ∀ o ∈ cfgs, KeepsCtx o)
    (h : (Config.instance env codecs parse config cfgs w).1 = .ok (inst, stats, routes)) :
    inst.config.ctx = config.ctx := by
  unfold Config.instance at h
  split at h
  · cases h
  · rename_i cfg hcfg
    have hctx : cfg.ctx = config.defaults.ctx := Config.options_ctx hkeep hcfg
    dsimp only at h
    repeat' split at h
    all_goals first
      | (cases h; exact hctx)
      | cases h

/-! ### Inputs, and builds that fail -/

/-- The config `Config{}` with only its templates FS set. -/
def Config.ofFS (fs : FS) : Config := ⟨[], some fs, [], [], [], [], [], [], 0⟩

/-- An outside that answers every request: an empty disk, and databases and
NATS that accept. -/
def Env.up : Env :=
  ⟨fun _ => ⟨[], by decide⟩, fun _ _ => none, fun _ _ => none, fun _ => none, none, none, none⟩

/-- An empty templates FS. -/
def emptyFS : FS := ⟨[], by decide⟩

/-- Codecs that keep every file as it is: a fixed digest and content type,
and decompressors that return their input. -/
def plainCodecs : Codecs :=
  ⟨fun _ => "digest".toList, fun _ _ => none, fun _ s => .ok s,
    fun _ => "text/plain; charset=utf-8".toList⟩

/-- The parser of an FS without template files: it defines no templates. -/
def noTemplates : TemplateParser := fun _ _ => .ok []

/-- A file `foo` and, beside it, `foo.txt`. -/
def fooTxtFS : FS :=
  ⟨[⟨"foo".toList, "foo".toList, true⟩, ⟨"foo.txt".toList, "text".toList, true⟩], by decide⟩

/-- A stylesheet and, beside it, a zip of it. -/
def resetZipFS : FS :=
  ⟨[⟨"reset.css".toList, "a{}".toList, true⟩, ⟨"reset.css.zip".toList, "zip".toList, true⟩],
    by decide⟩

/-- `foo.txt` beside `foo` strips to the identity path `/foo` of `foo`, and
its extension names no compression, so it is read as an `identity` file of
its own and registered at `GET /foo` a second time: the `ServeMux` panics, and
the build fails with the error `catch` makes of it. So does `reset.css.zip`
beside `reset.css`, whatever the hashes, decoders and parser. -/
theorem instance_fails_on_sibling_extension (env : Env) (codecs : Codecs) (parse : TemplateParser)
    (w : World) :
    (Config.instance env codecs parse (.ofFS fooTxtFS) [] w).1 =
        .error (.error (.wrap "error scanning files: ".toList (.leaf (.other
          ("failed to add handler to servemux 'GET /foo': ".toList ++
            "pattern \"GET /foo\" conflicts with pattern \"GET /foo\"".toList))))) ∧
      ∃ err, (Config.instance env codecs parse (.ofFS resetZipFS) [] w).1 = .error (.error err) :=
  ⟨rfl, _, rfl⟩

/-- An FS with one file that `Open` returns without a `Seek` method. -/
def unseekableFS : FS := ⟨[⟨"a.txt".toList, "a".toList, false⟩], by decide⟩

/-- `Config.Instance` panics on a database provider named `X`, the name of a
built-in field, since only the configured providers' names are checked and
`reflect.StructOf` panics on the duplicate; and on an FS whose file cannot
seek, at the type assertion to `io.ReadSeeker`. -/
theorem instance_panics (env : Env) (codecs : Codecs) (parse : TemplateParser) (w : World) :
    (Config.instance env codecs parse
        { Config.ofFS ⟨[], by decide⟩ with databases := [⟨"X".toList, some 1, [], [], 0⟩] } [] w).1 =
        .error (.panic "reflect.StructOf: duplicate field X".toList) ∧
      (Config.instance env codecs parse (.ofFS unseekableFS) [] w).1 =
        .error (.panic "interface conversion: fs.File is not io.ReadSeeker: missing method Seek".toList) :=
  ⟨rfl, rfl⟩

end Xtemplate
