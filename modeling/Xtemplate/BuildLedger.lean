import Xtemplate.StaticFile

/-!
The bookkeeping of a build (`build.go`, and the walk and the `INIT ` loop of
`Config.Instance` in `instance.go`).

A builder keeps four records of what it added: the `http.ServeMux`, the list
of routes `Config.Instance` returns, the map of static file infos, and the
`InstanceStats` counters. `Builder.Ledger` says that they agree with each
other and with the files walked so far:

* the mux holds exactly the routes' patterns, each once, and `Routes` counts
  them;
* every stored file info has its route, and `StaticFiles` counts the infos;
* every static file walked is one encoding of one stored file info, none lost
  and none stored twice, and `StaticFiles + StaticFilesAlternateEncodings`
  counts them;
* `TemplateFiles` counts the template files walked.

Each operation of the builder keeps it (`Builder.Ledger.addRoute`,
`Builder.Ledger.addTemplateHandler`, `Builder.Ledger.addStaticFileHandler`),
so the whole walk does (`walkTemplatesFS_ledger`). After the walk the `INIT `
loop adds the initializers it ran, and a built instance reports it all
(`instance_build_ledger`).
-/

namespace Xtemplate

open Go

/-- The paths of the encodings stored under one key. -/
def encodingPaths (e : List Char × FileInfo) : List (List Char) :=
  e.2.encodings.map EncodingInfo.path

/-- The paths of the encodings stored for the static files, in map order. -/
def storedPaths (files : Map (List Char) FileInfo) : List (List Char) :=
  files.toList.flatMap encodingPaths

/-- The walked paths that are template files. -/
def templatePaths (templateExtension : List Char) (walked : List (List Char)) :
    List (List Char) :=
  walked.filter fun p => hasSuffix p templateExtension

/-- The walked paths that are static files. -/
def staticPaths (templateExtension : List Char) (walked : List (List Char)) :
    List (List Char) :=
  walked.filter fun p => !hasSuffix p templateExtension

/-- What the builder's records say, after the files `walked`. -/
structure Builder.Ledger (templateExtension : List Char) (walked : List (List Char))
    (b : Builder) : Prop where
  router_eq : b.router = b.routes.map InstanceRoute.pattern
  router_nodup : b.router.Nodup
  routes_count : b.stats.routes = b.routes.length
  keys_nodup : (b.files.toList.map Prod.fst).Nodup
  keys_routed : ∀ k fi, b.files.get k = some fi → "GET ".toList ++ k ∈ b.router
  files_count : b.stats.staticFiles = b.files.len
  stored_perm : (storedPaths b.files).Perm (staticPaths templateExtension walked)
  encodings_count : b.stats.staticFiles + b.stats.staticFilesAlternateEncodings =
    (staticPaths templateExtension walked).length
  templateFiles_count : b.stats.templateFiles = (templatePaths templateExtension walked).length
  initializers_zero : b.stats.templateInitializers = 0

section Paths

variable {templateExtension path : List Char} {walked : List (List Char)}

theorem templatePaths_append_of_template (h : hasSuffix path templateExtension = true) :
    templatePaths templateExtension (walked ++ [path]) =
      templatePaths templateExtension walked ++ [path] := by
  simp [templatePaths, List.filter_append, h]

theorem staticPaths_append_of_template (h : hasSuffix path templateExtension = true) :
    staticPaths templateExtension (walked ++ [path]) = staticPaths templateExtension walked := by
  simp [staticPaths, List.filter_append, h]

theorem templatePaths_append_of_static (h : hasSuffix path templateExtension = false) :
    templatePaths templateExtension (walked ++ [path]) = templatePaths templateExtension walked := by
  simp [templatePaths, List.filter_append, h]

theorem staticPaths_append_of_static (h : hasSuffix path templateExtension = false) :
    staticPaths templateExtension (walked ++ [path]) =
      staticPaths templateExtension walked ++ [path] := by
  simp [staticPaths, List.filter_append, h]

theorem templatePaths_perm {walked walked' : List (List Char)} (h : walked.Perm walked') :
    (templatePaths templateExtension walked).Perm (templatePaths templateExtension walked') :=
  h.filter _

theorem staticPaths_perm {walked walked' : List (List Char)} (h : walked.Perm walked') :
    (staticPaths templateExtension walked).Perm (staticPaths templateExtension walked') :=
  h.filter _

end Paths

/-! ### What each operation does -/

theorem catchPanic_eq_ok {α : Type} {description : List Char} {x : Except (List Char) α} {a : α}
    (h : catchPanic description x = .ok a) : x = .ok a := by
  cases x with
  | error msg => cases h
  | ok a' =>
    simp only [catchPanic, Except.ok.injEq] at h
    rw [h]

/-- `addRoute` registers a new pattern and records its route. -/
theorem Builder.addRoute_spec {b b' : Builder} {route : InstanceRoute}
    (h : b.addRoute route = .ok b') :
    route.pattern ∉ b.router ∧
      b' = { b with router := b.router ++ [route.pattern], routes := b.routes ++ [route],
                    stats := { b.stats with routes := b.stats.routes + 1 } } := by
  unfold Builder.addRoute at h
  split at h
  · cases h
  · rename_i router hrouter
    cases h
    obtain ⟨hnot, rfl⟩ := ServeMux.eq_of_handleFunc_eq_ok (catchPanic_eq_ok hrouter)
    exact ⟨hnot, rfl⟩

/-- What a static file does to the builder: a file of its own gets its route
and a file info with one encoding, itself; a compressed copy joins the
encodings of the file info already stored for it. -/
theorem addStaticFileHandler_cases {codecs : Codecs} {fs : FS} {b b' : Builder} {path : List Char}
    (h : addStaticFileHandler codecs fs b path = .ok b') :
    (∃ (identityPath : List Char) (fi : FileInfo) (b₁ : Builder),
      b.addRoute ⟨"GET ".toList ++ identityPath, .staticFile identityPath⟩ = .ok b₁ ∧
      fi.encodings.map EncodingInfo.path = [path] ∧
      b' = { b₁ with files := b₁.files.set identityPath fi,
                     stats := { b₁.stats with staticFiles := b₁.stats.staticFiles + 1 } }) ∨
    (∃ (key : List Char) (file : FileInfo) (encodings : List EncodingInfo), b.files.get key = some file ∧
      (encodings.map EncodingInfo.path).Perm (file.encodings.map EncodingInfo.path ++ [path]) ∧
      b' = { b with files := b.files.set key { file with encodings },
                    stats := { b.stats with staticFilesAlternateEncodings :=
                      b.stats.staticFilesAlternateEncodings + 1 } }) := by
  unfold addStaticFileHandler at h
  cases hopen : fs.open path with
  | none =>
    rw [hopen] at h
    cases h
  | some f =>
    rw [hopen] at h
    dsimp only at h
    cases hseek : f.seekable
    · simp [hseek] at h
    simp only [hseek, Bool.not_true, Bool.false_eq_true, if_false] at h
    have hidentity : ¬ ("identity".toList = "gzip".toList ∨ "identity".toList = "zstd".toList) := by
      decide
    cases hget : b.files.get (trimSuffix (clean ('/' :: path)) (Go.ext path)) with
    | none =>
      -- a file of its own
      simp only [hget, hidentity, hashInput, ↓reduceIte] at h
      split at h
      · cases h
      · rename_i b₁ hb₁
        cases h
        exact .inl ⟨_, _, b₁, hb₁, rfl, rfl⟩
    | some file =>
      simp only [hget] at h
      by_cases hid : alternateEncoding (Go.ext path) = "identity".toList
      · -- an extension that names no compression: a file of its own too
        simp only [hid, hidentity, hashInput, ↓reduceIte] at h
        split at h
        · cases h
        · rename_i b₁ hb₁
          cases h
          exact .inl ⟨_, _, b₁, hb₁, rfl, rfl⟩
      · -- a compressed copy, once its decompressed bytes hash as the stored file
        simp only [hid, ↓reduceIte] at h
        split at h
        · cases h
        · split at h
          · cases h
          · split at h
            · cases h
            · cases h
              refine .inr ⟨_, file, _, hget, ?_, rfl⟩
              have hperm := List.perm_insertionSort (fun e e' : EncodingInfo => e.size ≤ e'.size)
                (file.encodings ++ [⟨alternateEncoding (Go.ext path), path, f.content.length⟩])
              simpa only [List.map_append, List.map_singleton] using hperm.map EncodingInfo.path

/-! ### Each operation keeps the ledger -/

section Steps

variable {templateExtension : List Char} {walked : List (List Char)} {b b' : Builder}

theorem Builder.Ledger.addRoute (hb : b.Ledger templateExtension walked) {route : InstanceRoute}
    (h : b.addRoute route = .ok b') : b'.Ledger templateExtension walked := by
  obtain ⟨hnot, rfl⟩ := Builder.addRoute_spec h
  refine { hb with router_eq := ?_, router_nodup := ?_, routes_count := ?_, keys_routed := ?_ }
  · simp [hb.router_eq]
  · exact hb.router_nodup.append (List.nodup_singleton _) (by simpa using hnot)
  · simp [hb.routes_count]
  · exact fun k fi hk => List.mem_append_left _ (hb.keys_routed k fi hk)

/-- Adding a template to the set, and its route if it has one. -/
theorem Builder.Ledger.addTemplate (hb : b.Ledger templateExtension walked) {path : List Char}
    {tmpl : List Char × Template} (h : Xtemplate.addTemplate templateExtension path b tmpl = .ok b') :
    b'.Ledger templateExtension walked := by
  unfold Xtemplate.addTemplate at h
  -- the template set and its count are no part of the ledger
  have hb₁ : Builder.Ledger templateExtension walked
      { b with templates := b.templates.set tmpl.1 tmpl.2,
               stats := { b.stats with templateDefinitions := b.stats.templateDefinitions + 1 } } :=
    { hb with }
  split at h
  · cases h
    exact hb₁
  · exact hb₁.addRoute h

theorem Builder.Ledger.addTemplateHandler (hb : b.Ledger templateExtension walked)
    {parse : TemplateParser} {fs : FS} {path : List Char}
    (hsuf : hasSuffix path templateExtension = true)
    (h : Xtemplate.addTemplateHandler parse templateExtension fs b path = .ok b') :
    b'.Ledger templateExtension (walked ++ [path]) := by
  unfold Xtemplate.addTemplateHandler at h
  split at h
  · cases h
  · dsimp only at h
    split at h
    · cases h
    · -- the file is counted before its templates are added
      have hb₁ : Builder.Ledger templateExtension (walked ++ [path])
          { b with stats := { b.stats with templateFiles := b.stats.templateFiles + 1 } } := by
        refine { hb with stored_perm := ?_, encodings_count := ?_, templateFiles_count := ?_ }
        · rw [staticPaths_append_of_template hsuf]
          exact hb.stored_perm
        · rw [staticPaths_append_of_template hsuf]
          exact hb.encodings_count
        · simp [templatePaths_append_of_template hsuf, hb.templateFiles_count]
      exact foldlM_ok_inv (fun b => b.Ledger templateExtension (walked ++ [path]))
        (fun _ _ _ hb h => hb.addTemplate h) _ hb₁ h

/-- A file of its own: its identity path is new, since its route is. -/
theorem Builder.Ledger.addIdentity (hb : b.Ledger templateExtension walked) {path : List Char}
    (hsuf : hasSuffix path templateExtension = false) {identityPath : List Char} {fi : FileInfo}
    {b₁ : Builder} (hroute : b.addRoute ⟨"GET ".toList ++ identityPath, .staticFile identityPath⟩ = .ok b₁)
    (hpaths : fi.encodings.map EncodingInfo.path = [path]) :
    Builder.Ledger templateExtension (walked ++ [path])
      { b₁ with files := b₁.files.set identityPath fi,
                stats := { b₁.stats with staticFiles := b₁.stats.staticFiles + 1 } } := by
  have hb₁ := hb.addRoute hroute
  obtain ⟨hnot, rfl⟩ := Builder.addRoute_spec hroute
  have hnew : b.files.get identityPath = none := by
    cases hg : b.files.get identityPath with
    | none => rfl
    | some fi' => exact absurd (hb.keys_routed _ _ hg) hnot
  have hlist := Map.toList_set_of_get_eq_none hnew fi
  refine { hb₁ with keys_nodup := ?_, keys_routed := ?_, files_count := ?_, stored_perm := ?_,
                    encodings_count := ?_, templateFiles_count := ?_ }
  · exact nodup_map_fst_set hb.keys_nodup identityPath fi
  · intro k fi' hk
    rcases Map.get_set_eq_some hk with ⟨rfl, -⟩ | ⟨-, hk⟩
    · simp
    · exact List.mem_append_left _ (hb.keys_routed k fi' hk)
  · simp [Map.len_set, hnew, hb.files_count]
  · -- the new info stores the file itself, after every encoding stored before
    have hstored : storedPaths (b.files.set identityPath fi) = storedPaths b.files ++ [path] := by
      simp only [storedPaths, hlist, List.flatMap_append, List.flatMap_singleton, encodingPaths,
        hpaths]
    rw [hstored, staticPaths_append_of_static hsuf]
    exact hb.stored_perm.append_right _
  · simp only [staticPaths_append_of_static hsuf, List.length_append, List.length_singleton]
    have := hb.encodings_count
    omega
  · rw [templatePaths_append_of_static hsuf]
    exact hb.templateFiles_count

/-- A compressed copy: its file info is already stored, and keeps its key. -/
theorem Builder.Ledger.addEncoding (hb : b.Ledger templateExtension walked) {path : List Char}
    (hsuf : hasSuffix path templateExtension = false) {key : List Char} {file : FileInfo}
    {encodings : List EncodingInfo} (hget : b.files.get key = some file)
    (hperm : (encodings.map EncodingInfo.path).Perm (file.encodings.map EncodingInfo.path ++ [path])) :
    Builder.Ledger templateExtension (walked ++ [path])
      { b with files := b.files.set key { file with encodings },
               stats := { b.stats with staticFilesAlternateEncodings :=
                 b.stats.staticFilesAlternateEncodings + 1 } } := by
  refine { hb with keys_nodup := ?_, keys_routed := ?_, files_count := ?_, stored_perm := ?_,
                   encodings_count := ?_, templateFiles_count := ?_ }
  · exact nodup_map_fst_set hb.keys_nodup key _
  · intro k fi' hk
    rcases Map.get_set_eq_some hk with ⟨rfl, -⟩ | ⟨-, hk⟩
    · exact hb.keys_routed _ file hget
    · exact hb.keys_routed k fi' hk
  · simp [Map.len_set, hget, hb.files_count]
  · -- replacing the info's encodings adds the copy to the stored paths
    have hset := flatMap_set_perm encodingPaths hb.keys_nodup hget { file with encodings }
    have hcancel : (storedPaths (b.files.set key { file with encodings }) ++
        file.encodings.map EncodingInfo.path).Perm
        ((storedPaths b.files ++ [path]) ++ file.encodings.map EncodingInfo.path) := by
      -- the copy's paths are the old ones and the copy, which goes before them
      refine hset.trans ((hperm.append_left _).trans ((List.perm_append_comm.append_left _).trans ?_))
      exact List.Perm.of_eq (List.append_assoc _ _ _).symm
    rw [staticPaths_append_of_static hsuf]
    exact (List.perm_append_right_iff _).mp hcancel |>.trans (hb.stored_perm.append_right _)
  · simp only [staticPaths_append_of_static hsuf, List.length_append, List.length_singleton]
    have := hb.encodings_count
    omega
  · rw [templatePaths_append_of_static hsuf]
    exact hb.templateFiles_count

theorem Builder.Ledger.addStaticFileHandler (hb : b.Ledger templateExtension walked)
    {codecs : Codecs} {fs : FS} {path : List Char} (hsuf : hasSuffix path templateExtension = false)
    (h : Xtemplate.addStaticFileHandler codecs fs b path = .ok b') :
    b'.Ledger templateExtension (walked ++ [path]) := by
  rcases addStaticFileHandler_cases h with
    ⟨identityPath, fi, b₁, hroute, hpaths, rfl⟩ | ⟨key, file, encodings, hget, hperm, rfl⟩
  · exact hb.addIdentity hsuf hroute hpaths
  · exact hb.addEncoding hsuf hget hperm

theorem Builder.Ledger.addFile (hb : b.Ledger templateExtension walked) {codecs : Codecs}
    {parse : TemplateParser} {fs : FS} {path : List Char}
    (h : Xtemplate.addFile codecs parse templateExtension fs b path = .ok b') :
    b'.Ledger templateExtension (walked ++ [path]) := by
  unfold Xtemplate.addFile at h
  cases hsuf : hasSuffix path templateExtension
  · rw [hsuf] at h
    exact hb.addStaticFileHandler hsuf h
  · rw [hsuf] at h
    exact hb.addTemplateHandler hsuf h

end Steps

theorem ledger_empty (templateExtension : List Char) : Builder.empty.Ledger templateExtension [] where
  router_eq := rfl
  router_nodup := List.nodup_nil
  routes_count := rfl
  keys_nodup := List.nodup_nil
  keys_routed := fun _ _ h => by cases h
  files_count := rfl
  stored_perm := List.Perm.nil
  encodings_count := rfl
  templateFiles_count := rfl
  initializers_zero := rfl

/-- **The walk keeps the ledger**, over the files in walk order. -/
theorem walkTemplatesFS_ledger {codecs : Codecs} {parse : TemplateParser}
    {templateExtension : List Char} {fs : FS} {b : Builder}
    (h : walkTemplatesFS codecs parse templateExtension fs .empty = .ok b) :
    b.Ledger templateExtension (walkDir fs) := by
  unfold walkTemplatesFS at h
  split at h
  · cases h
  · have := foldlM_ok_run (fun walked (b : Builder) => b.Ledger templateExtension walked)
      (fun _ _ _ _ hb h => hb.addFile h) (walkDir fs) (ledger_empty templateExtension) h
    rwa [List.nil_append] at this

/-! ### The `INIT ` loop -/

/-- One template of the `INIT ` loop adds one initializer if it ran one. -/
theorem runInitializer_eq_ok {d : Dot} {st st' : InstanceStats} {t : List Char × Template}
    (h : runInitializer d st t = .ok st') :
    st' = { st with templateInitializers := st.templateInitializers +
      (if hasPrefix t.1 "INIT ".toList then 1 else 0) } := by
  unfold runInitializer at h
  by_cases hinit : hasPrefix t.1 "INIT ".toList = true
  · rw [if_pos hinit] at h
    split at h
    · cases h
    · dsimp only at h
      split at h
      · cases h
      · cases h
        rw [if_pos hinit]
  · rw [if_neg hinit] at h
    cases h
    rw [if_neg hinit]
    rfl

/-- The `INIT ` loop counts the initializers it ran and changes no other
counter. -/
theorem foldlM_runInitializer {d : Dot} (l : List (List Char × Template)) :
    ∀ {st st' : InstanceStats}, l.foldlM (runInitializer d) st = .ok st' →
      st' = { st with templateInitializers := st.templateInitializers +
        (l.filter fun t => hasPrefix t.1 "INIT ".toList).length } := by
  induction l with
  | nil =>
    intro st st' h
    cases h
    rfl
  | cons t l ih =>
    intro st st' h
    rw [List.foldlM_cons] at h
    cases hstep : runInitializer d st t with
    | error err =>
      rw [hstep] at h
      cases h
    | ok st₁ =>
      rw [hstep] at h
      rw [ih h, runInitializer_eq_ok hstep]
      by_cases hinit : hasPrefix t.1 "INIT ".toList = true
      · rw [if_pos hinit, List.filter_cons_of_pos (by exact hinit), List.length_cons]
        congr 1
        dsimp only
        omega
      · rw [if_neg hinit, List.filter_cons_of_neg (by exact hinit)]
        congr 1

/-- **A built instance's books balance.** Its router holds exactly the
patterns of the routes it reports, each once; `Routes` counts them; every
stored static file has its route; `StaticFiles` counts the stored files;
the encodings stored are the FS's static files, each once, and
`StaticFiles + StaticFilesAlternateEncodings` counts them; `TemplateFiles`
counts the FS's template files; and `TemplateInitializers` counts the
templates named `INIT ...`. -/
theorem instance_build_ledger {env : Env} {codecs : Codecs} {parse : TemplateParser}
    {config : Config} {cfgs : List ConfigOption} {w : World} {inst : Instance}
    {stats : InstanceStats} {routes : List InstanceRoute}
    (h : (Config.instance env codecs parse config cfgs w).1 = .ok (inst, stats, routes)) :
    ∃ fs, inst.config.templatesFS = some fs ∧
      inst.router = routes.map InstanceRoute.pattern ∧ inst.router.Nodup ∧
      stats.routes = routes.length ∧
      (∀ k fi, inst.files.get k = some fi → "GET ".toList ++ k ∈ inst.router) ∧
      stats.staticFiles = inst.files.len ∧
      (storedPaths inst.files).Perm
        (staticPaths inst.config.templateExtension (fs.files.map FSFile.path)) ∧
      stats.staticFiles + stats.staticFilesAlternateEncodings =
        (staticPaths inst.config.templateExtension (fs.files.map FSFile.path)).length ∧
      stats.templateFiles =
        (templatePaths inst.config.templateExtension (fs.files.map FSFile.path)).length ∧
      stats.templateInitializers =
        (inst.templates.toList.filter fun t => hasPrefix t.1 "INIT ".toList).length := by
  obtain ⟨fs, b, hfs, hwalk, hrouter, hfiles, htemplates, hroutes, hinit⟩ := Config.instance_eq_ok h
  have hb := walkTemplatesFS_ledger hwalk
  have hstats := foldlM_runInitializer _ hinit
  -- the walk visits the FS's files in another order
  have hwalked : (walkDir fs).Perm (fs.files.map FSFile.path) := List.perm_insertionSort _ _
  subst hstats hroutes
  rw [hrouter, hfiles, htemplates]
  refine ⟨fs, hfs, hb.router_eq, hb.router_nodup, hb.routes_count, hb.keys_routed,
    hb.files_count, hb.stored_perm.trans (staticPaths_perm hwalked), ?_, ?_, ?_⟩
  · rw [← (staticPaths_perm hwalked).length_eq]
    exact hb.encodings_count
  · rw [← (templatePaths_perm hwalked).length_eq]
    exact hb.templateFiles_count
  · simp [hb.initializers_zero]

/-! ### The route table -/

/-- A route a template of the template file `p` asks for: the file parses, and
`templateRoute` gives the route for one of the templates it defines. -/
def TemplateRouteOf (parse : TemplateParser) (templateExtension : List Char) (fs : FS)
    (p : List Char) (r : InstanceRoute) : Prop :=
  ∃ f tmpls, fs.open p = some f ∧ parse (clean ('/' :: p)) f.content = .ok tmpls ∧
    ∃ t ∈ tmpls, templateRoute templateExtension (clean ('/' :: p)) t.1 = some r

/-- The routes of a builder after the files `walked`: each is a stored file's
static route or one a walked template file asks for; every template file
walked parsed, and every route its templates ask for is there; and so is the
route of every stored file. -/
structure Builder.RouteTable (parse : TemplateParser) (templateExtension : List Char) (fs : FS)
    (walked : List (List Char)) (b : Builder) : Prop where
  sound : ∀ r ∈ b.routes,
    (∃ k, r = ⟨"GET ".toList ++ k, .staticFile k⟩ ∧ (b.files.get k).isSome) ∨
      ∃ p ∈ templatePaths templateExtension walked, TemplateRouteOf parse templateExtension fs p r
  templates_routed : ∀ p ∈ templatePaths templateExtension walked, ∃ f tmpls,
    fs.open p = some f ∧ parse (clean ('/' :: p)) f.content = .ok tmpls ∧
      ∀ t ∈ tmpls, ∀ r, templateRoute templateExtension (clean ('/' :: p)) t.1 = some r → r ∈ b.routes
  files_routed : ∀ k, (b.files.get k).isSome → ⟨"GET ".toList ++ k, .staticFile k⟩ ∈ b.routes

/-- `addTemplate` records the template's route, if it has one. -/
theorem addTemplate_routes {templateExtension path : List Char} {b b' : Builder}
    {tmpl : List Char × Template} (h : addTemplate templateExtension path b tmpl = .ok b') :
    b'.routes = b.routes ++ (templateRoute templateExtension path tmpl.1).toList ∧ b'.files = b.files := by
  unfold addTemplate at h
  split at h
  · rename_i hnone
    cases h
    simp [hnone]
  · rename_i route hroute
    obtain ⟨-, rfl⟩ := Builder.addRoute_spec h
    simp [hroute]

/-- The loop over a file's templates appends each one's route. -/
theorem foldlM_addTemplate_routes {templateExtension path : List Char} (tmpls : List (List Char × Template)) :
    ∀ {b b' : Builder}, tmpls.foldlM (addTemplate templateExtension path) b = .ok b' →
      b'.routes = b.routes ++ tmpls.filterMap (fun t => templateRoute templateExtension path t.1) ∧
        b'.files = b.files := by
  induction tmpls with
  | nil =>
    intro b b' h
    cases h
    simp
  | cons t tmpls ih =>
    intro b b' h
    rw [List.foldlM_cons] at h
    cases ht : addTemplate templateExtension path b t with
    | error err =>
      rw [ht] at h
      cases h
    | ok b₁ =>
      rw [ht] at h
      obtain ⟨hroutes, hfiles⟩ := ih h
      obtain ⟨hroutes₁, hfiles₁⟩ := addTemplate_routes ht
      refine ⟨?_, hfiles.trans hfiles₁⟩
      rw [hroutes, hroutes₁, List.filterMap_cons, List.append_assoc]
      cases templateRoute templateExtension path t.1 <;> rfl

/-- A template file: it parses, and its templates' routes follow the routes
before it, in the parser's order. -/
theorem addTemplateHandler_routes {parse : TemplateParser} {templateExtension : List Char} {fs : FS}
    {b b' : Builder} {path : List Char}
    (h : addTemplateHandler parse templateExtension fs b path = .ok b') :
    ∃ f tmpls, fs.open path = some f ∧ parse (clean ('/' :: path)) f.content = .ok tmpls ∧
      b'.routes = b.routes ++ tmpls.filterMap
        (fun t => templateRoute templateExtension (clean ('/' :: path)) t.1) ∧
      b'.files = b.files := by
  unfold addTemplateHandler at h
  split at h
  · cases h
  · rename_i f hopen
    dsimp only at h
    split at h
    · cases h
    · rename_i tmpls hparse
      obtain ⟨hroutes, hfiles⟩ := foldlM_addTemplate_routes tmpls h
      exact ⟨f, tmpls, hopen, hparse, hroutes, hfiles⟩

section RouteTable

variable {parse : TemplateParser} {templateExtension : List Char} {fs : FS}
  {walked : List (List Char)} {b b' : Builder}

theorem Builder.RouteTable.addTemplateHandler (hb : b.RouteTable parse templateExtension fs walked)
    {path : List Char} (hsuf : hasSuffix path templateExtension = true)
    (h : Xtemplate.addTemplateHandler parse templateExtension fs b path = .ok b') :
    b'.RouteTable parse templateExtension fs (walked ++ [path]) := by
  obtain ⟨f, tmpls, hopen, hparse, hroutes, hfiles⟩ := addTemplateHandler_routes h
  have htp : templatePaths templateExtension (walked ++ [path]) =
      templatePaths templateExtension walked ++ [path] := templatePaths_append_of_template hsuf
  refine ⟨fun r hr => ?_, fun p hp => ?_, fun k hk => ?_⟩
  · rw [hroutes] at hr
    rcases List.mem_append.mp hr with hr | hr
    · -- a route from before
      rcases hb.sound r hr with ⟨k, rfl, hk⟩ | ⟨p, hp, hrp⟩
      · exact .inl ⟨k, rfl, hfiles ▸ hk⟩
      · exact .inr ⟨p, htp ▸ List.mem_append_left _ hp, hrp⟩
    · -- a route the new file's templates ask for
      obtain ⟨t, ht, hrt⟩ := List.mem_filterMap.mp hr
      exact .inr ⟨path, htp ▸ List.mem_append_right _ (List.mem_singleton_self path),
        f, tmpls, hopen, hparse, t, ht, hrt⟩
  · rw [htp] at hp
    rcases List.mem_append.mp hp with hp | hp
    · obtain ⟨f', tmpls', hopen', hparse', hall⟩ := hb.templates_routed p hp
      exact ⟨f', tmpls', hopen', hparse', fun t ht r hr =>
        hroutes ▸ List.mem_append_left _ (hall t ht r hr)⟩
    · rw [List.mem_singleton] at hp
      subst hp
      exact ⟨f, tmpls, hopen, hparse, fun t ht r hr =>
        hroutes ▸ List.mem_append_right _ (List.mem_filterMap.mpr ⟨t, ht, hr⟩)⟩
  · rw [hfiles] at hk
    exact hroutes ▸ List.mem_append_left _ (hb.files_routed k hk)

theorem Builder.RouteTable.addStaticFileHandler (hb : b.RouteTable parse templateExtension fs walked)
    {codecs : Codecs} {path : List Char} (hsuf : hasSuffix path templateExtension = false)
    (h : Xtemplate.addStaticFileHandler codecs fs b path = .ok b') :
    b'.RouteTable parse templateExtension fs (walked ++ [path]) := by
  have htp : templatePaths templateExtension (walked ++ [path]) = templatePaths templateExtension walked :=
    templatePaths_append_of_static hsuf
  rcases addStaticFileHandler_cases h with
    ⟨identityPath, fi, b₁, hroute, -, rfl⟩ | ⟨key, file, encodings, hget, -, rfl⟩
  · -- a file of its own: its route and its info
    obtain ⟨-, rfl⟩ := Builder.addRoute_spec hroute
    refine ⟨fun r hr => ?_, fun p hp => ?_, fun k hk => ?_⟩
    · rcases List.mem_append.mp hr with hr | hr
      · rcases hb.sound r hr with ⟨k, rfl, hk⟩ | hrp
        · exact .inl ⟨k, rfl, Map.isSome_get_set.mpr (.inr hk)⟩
        · exact .inr (htp ▸ hrp)
      · rw [List.mem_singleton] at hr
        subst hr
        exact .inl ⟨identityPath, rfl, Map.isSome_get_set.mpr (.inl rfl)⟩
    · obtain ⟨f, tmpls, hopen, hparse, hall⟩ := hb.templates_routed p (htp ▸ hp)
      exact ⟨f, tmpls, hopen, hparse, fun t ht r hr => List.mem_append_left _ (hall t ht r hr)⟩
    · rcases Map.isSome_get_set.mp hk with rfl | hk
      · exact List.mem_append_right _ (List.mem_singleton_self _)
      · exact List.mem_append_left _ (hb.files_routed k hk)
  · -- a compressed copy: the routes stay, and so do the keys
    refine ⟨fun r hr => ?_, htp ▸ hb.templates_routed, fun k hk => ?_⟩
    · rcases hb.sound r hr with ⟨k, rfl, hk⟩ | hrp
      · exact .inl ⟨k, rfl, Map.isSome_get_set.mpr (.inr hk)⟩
      · exact .inr (htp ▸ hrp)
    · rcases Map.isSome_get_set.mp hk with rfl | hk
      · exact hb.files_routed _ (by simp [hget])
      · exact hb.files_routed k hk

theorem Builder.RouteTable.addFile (hb : b.RouteTable parse templateExtension fs walked)
    {codecs : Codecs} {path : List Char}
    (h : Xtemplate.addFile codecs parse templateExtension fs b path = .ok b') :
    b'.RouteTable parse templateExtension fs (walked ++ [path]) := by
  unfold Xtemplate.addFile at h
  cases hsuf : hasSuffix path templateExtension
  · rw [hsuf] at h
    exact hb.addStaticFileHandler hsuf h
  · rw [hsuf] at h
    exact hb.addTemplateHandler hsuf h

end RouteTable

/-- **The walk keeps the route table**, over the files in walk order. -/
theorem walkTemplatesFS_routeTable {codecs : Codecs} {parse : TemplateParser}
    {templateExtension : List Char} {fs : FS} {b : Builder}
    (h : walkTemplatesFS codecs parse templateExtension fs .empty = .ok b) :
    b.RouteTable parse templateExtension fs (walkDir fs) := by
  unfold walkTemplatesFS at h
  split at h
  · cases h
  · have hempty : Builder.empty.RouteTable parse templateExtension fs [] :=
      ⟨fun _ hr => (by cases hr), fun _ hp => (by cases hp), fun _ hk => (by simp [Builder.empty] at hk)⟩
    have := foldlM_ok_run (fun walked (b : Builder) => b.RouteTable parse templateExtension fs walked)
      (fun _ _ _ _ hb h => hb.addFile h) (walkDir fs) hempty h
    rwa [List.nil_append] at this

/-- **A built instance's route table.** Every route it reports is the `GET`
route of a stored static file, or a route that a template of one of the FS's
template files asks for (`templateRoute`: the file's own template at its path
without the extension, `index` serving its directory, hidden files left out;
a template named `METHOD /path` at that pattern, `SSE` as a flushing `GET`).
Conversely every template file parsed, and every route its templates ask for
is among the routes, as is the route of every stored static file. -/
theorem instance_route_table {env : Env} {codecs : Codecs} {parse : TemplateParser}
    {config : Config} {cfgs : List ConfigOption} {w : World} {inst : Instance}
    {stats : InstanceStats} {routes : List InstanceRoute}
    (h : (Config.instance env codecs parse config cfgs w).1 = .ok (inst, stats, routes)) :
    ∃ fs, inst.config.templatesFS = some fs ∧
      (∀ r ∈ routes, (∃ k, r = ⟨"GET ".toList ++ k, .staticFile k⟩ ∧ (inst.files.get k).isSome) ∨
        ∃ p ∈ templatePaths inst.config.templateExtension (fs.files.map FSFile.path),
          TemplateRouteOf parse inst.config.templateExtension fs p r) ∧
      (∀ p ∈ templatePaths inst.config.templateExtension (fs.files.map FSFile.path), ∃ f tmpls,
        fs.open p = some f ∧ parse (clean ('/' :: p)) f.content = .ok tmpls ∧
        ∀ t ∈ tmpls, ∀ r, templateRoute inst.config.templateExtension (clean ('/' :: p)) t.1 = some r →
          r ∈ routes) ∧
      (∀ k, (inst.files.get k).isSome → ⟨"GET ".toList ++ k, .staticFile k⟩ ∈ routes) := by
  obtain ⟨fs, b, hfs, hwalk, -, hfiles, -, hroutes, -⟩ := Config.instance_eq_ok h
  have hb := walkTemplatesFS_routeTable hwalk
  -- the walk visits the FS's files in another order
  have hwalked : (walkDir fs).Perm (fs.files.map FSFile.path) := List.perm_insertionSort _ _
  have hmem : ∀ p, p ∈ templatePaths inst.config.templateExtension (walkDir fs) ↔
      p ∈ templatePaths inst.config.templateExtension (fs.files.map FSFile.path) :=
    fun _ => (templatePaths_perm hwalked).mem_iff
  subst hroutes
  rw [hfiles]
  refine ⟨fs, hfs, fun r hr => ?_, fun p hp => hb.templates_routed p ((hmem p).mpr hp),
    hb.files_routed⟩
  rcases hb.sound r hr with hk | ⟨p, hp, hrp⟩
  · exact .inl hk
  · exact .inr ⟨p, (hmem p).mp hp, hrp⟩

/-- A site: a stylesheet with its gzip copy beside it, and an index page. -/
def siteFS : FS :=
  ⟨[⟨"a.css".toList, "a\x7b\x7d".toList, true⟩, ⟨"a.css.gz".toList, "a\x7b\x7d".toList, true⟩,
    ⟨"index.html".toList, "hi".toList, true⟩], by decide⟩

/-- The parser of `siteFS`: the index page defines itself and an initializer. -/
def siteParser : TemplateParser := fun path _ =>
  if path = "/index.html".toList then
    .ok [(path, Template.const [] [] none), ("INIT seed".toList, Template.const [] [] none)]
  else .ok []

/-- The theorem at the build of `siteFS`: two routes, one static file with
two encodings, one template file and one initializer. -/
theorem instance_build_ledger_site :
    ∃ inst stats routes, (Config.instance Env.up plainCodecs siteParser (.ofFS siteFS) []
        World.initial).1 = .ok (inst, stats, routes) ∧
      ∃ fs, inst.config.templatesFS = some fs ∧
        inst.router = routes.map InstanceRoute.pattern ∧ inst.router.Nodup ∧
        stats.routes = routes.length ∧
        (∀ k fi, inst.files.get k = some fi → "GET ".toList ++ k ∈ inst.router) ∧
        stats.staticFiles = inst.files.len ∧
        (storedPaths inst.files).Perm
          (staticPaths inst.config.templateExtension (fs.files.map FSFile.path)) ∧
        stats.staticFiles + stats.staticFilesAlternateEncodings =
          (staticPaths inst.config.templateExtension (fs.files.map FSFile.path)).length ∧
        stats.templateFiles =
          (templatePaths inst.config.templateExtension (fs.files.map FSFile.path)).length ∧
        stats.templateInitializers =
          (inst.templates.toList.filter fun t => hasPrefix t.1 "INIT ".toList).length := by
  obtain ⟨inst, stats, routes, h⟩ : ∃ inst stats routes, (Config.instance Env.up plainCodecs
      siteParser (.ofFS siteFS) [] World.initial).1 = .ok (inst, stats, routes) := ⟨_, _, _, rfl⟩
  exact ⟨inst, stats, routes, h, instance_build_ledger h⟩

/-- The route table at the build of `siteFS`. -/
theorem instance_route_table_site :
    ∃ inst stats routes, (Config.instance Env.up plainCodecs siteParser (.ofFS siteFS) []
        World.initial).1 = .ok (inst, stats, routes) ∧
      ∃ fs, inst.config.templatesFS = some fs ∧
        (∀ r ∈ routes, (∃ k, r = ⟨"GET ".toList ++ k, .staticFile k⟩ ∧ (inst.files.get k).isSome) ∨
          ∃ p ∈ templatePaths inst.config.templateExtension (fs.files.map FSFile.path),
            TemplateRouteOf siteParser inst.config.templateExtension fs p r) ∧
        (∀ p ∈ templatePaths inst.config.templateExtension (fs.files.map FSFile.path), ∃ f tmpls,
          fs.open p = some f ∧ siteParser (clean ('/' :: p)) f.content = .ok tmpls ∧
          ∀ t ∈ tmpls, ∀ r, templateRoute inst.config.templateExtension (clean ('/' :: p)) t.1 = some r →
            r ∈ routes) ∧
        (∀ k, (inst.files.get k).isSome → ⟨"GET ".toList ++ k, .staticFile k⟩ ∈ routes) := by
  obtain ⟨inst, stats, routes, h⟩ : ∃ inst stats routes, (Config.instance Env.up plainCodecs
      siteParser (.ofFS siteFS) [] World.initial).1 = .ok (inst, stats, routes) := ⟨_, _, _, rfl⟩
  exact ⟨inst, stats, routes, h, instance_route_table h⟩

end Xtemplate
