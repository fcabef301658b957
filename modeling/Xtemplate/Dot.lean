import Xtemplate.Basic
import Xtemplate.Go.Http

/-!
The dot value of a template (`dot.go`) and the providers of its fields
(`dot_instance.go`, `dot_req.go`, `dot_resp.go`, `dot_flush.go`,
`dot_db_config.go`, `dot_flags.go`, `dot_fs_config.go`, `dot_nats_config.go`).

`makeDot` fixes the fields, one per provider, and the providers that clean
up after a template: those that implement `CleanupDotProvider`. For each
request `dot.value` asks every provider for its field's value, and after the
template ran `dot.cleanup` hands the template's error through the cleanups in
field order: each cleanup sees the error the one before it returned.

A field here is the provider together with its value (`DotField`), so that a
value cannot belong to the wrong provider. What a template does to the values
is not modelled: it may leave any value of the same provider. The observable
work of the cleanups is a list of `Effect`s: calls on the response writer,
commits and rollbacks of the transactions a `DotDB` opened, and files closed.

Custom providers are arbitrary Go values; a custom provider here is its field
name, the error its `Value` and `Init` return, and its `Cleanup` as a function
of the error it is given.
-/

namespace Xtemplate

open Go

/-! ### Field values -/

/-- A transaction `sql.DB.BeginTx` opened, with what its `Commit` and
`Rollback` return when called. -/
structure Tx where
  commitResult : Option Err
  rollbackResult : Option Err

/-- `DotDB`: the transaction its statements opened, if one is open. -/
structure DotDB where
  tx : Option Tx

/-- `DotResp`: the headers and status the template set. -/
structure DotResp where
  header : Header
  status : Int

/-- The `dotFS` of a `Dir`: the files the template opened, by handle. -/
structure DotFS where
  opened : List Nat

/-! ### Providers -/

/-- `DotDBConfig`; its `sql.DB` pool is a handle. -/
structure DotDBConfig where
  name : List Char
  db : Option Nat
  driver : List Char
  connstr : List Char
  maxOpenConns : Int

/-- `DotFlagsConfig`. -/
structure DotFlagsConfig where
  name : List Char
  values : List (List Char × List Char)

/-- `DotDirConfig`; its `fs.FS` is a handle. -/
structure DotDirConfig where
  name : List Char
  fs : Option Nat
  path : List Char

/-- `NatsConfig`: whether it asks for an in-process server. The options
themselves are left out. -/
structure NatsConfig where
  inProcessServer : Bool

/-- `DotNatsConfig`; its client connection is a handle, and `js` says whether
its JetStream context was made. -/
structure DotNatsConfig where
  name : List Char
  natsConfig : Option NatsConfig
  conn : Option Nat
  js : Bool

/-- A provider of `Config.CustomProviders` that is none of the package's own
types. -/
structure CustomProvider where
  name : List Char
  /-- The error its `Value` returns, if any. -/
  valueError : Option Err
  /-- The error its `Init` returns, if any. -/
  initError : Option Err
  /-- Its `Cleanup`, when it is a `CleanupDotProvider`: the error it returns for
  the error it is given. -/
  cleanup : Option (Option Err → Option Err)

/-- A value of the `DotConfig` interface: the package's providers and the
custom ones. A custom provider may also be one of the package's types, which
is then one of the other constructors. -/
inductive DotConfig where
  | x
  | req
  | resp
  | flush
  | db (cfg : DotDBConfig)
  | flags (cfg : DotFlagsConfig)
  | dir (cfg : DotDirConfig)
  | nats (cfg : DotNatsConfig)
  | custom (p : CustomProvider)

/-- `FieldName()`. -/
def DotConfig.fieldName : DotConfig → List Char
  | .x => "X".toList
  | .req => "Req".toList
  | .resp => "Resp".toList
  | .flush => "Flush".toList
  | .db cfg => cfg.name
  | .flags cfg => cfg.name
  | .dir cfg => cfg.name
  | .nats cfg => cfg.name
  | .custom p => p.name

/-- Whether the provider is a `CleanupDotProvider`. -/
def DotConfig.hasCleanup : DotConfig → Bool
  | .x | .resp | .flush | .db _ | .dir _ => true
  | .req | .flags _ | .nats _ => false
  | .custom p => p.cleanup.isSome

/-- A field of a dot value: its provider and the value the provider made. -/
inductive DotField where
  | x
  | req
  | resp (d : DotResp)
  | flush
  | db (cfg : DotDBConfig) (d : DotDB)
  | flags (cfg : DotFlagsConfig)
  | dir (cfg : DotDirConfig) (d : DotFS)
  | nats (cfg : DotNatsConfig)
  | custom (p : CustomProvider)

/-- The provider of a field. -/
def DotField.config : DotField → DotConfig
  | .x => .x
  | .req => .req
  | .resp _ => .resp
  | .flush => .flush
  | .db cfg _ => .db cfg
  | .flags cfg => .flags cfg
  | .dir cfg _ => .dir cfg
  | .nats cfg => .nats cfg
  | .custom p => .custom p

/-- `Value(Request)`: the field's value for a request, given whether the
response writer is an `http.Flusher`. -/
def DotConfig.value (flusher : Bool) : DotConfig → Except Err DotField
  | .x => .ok .x
  | .req => .ok .req
  | .resp => .ok (.resp ⟨[], 200⟩)
  | .flush =>
    if flusher then .ok .flush else .error (errorf "response writer could not cast to http.Flusher")
  | .db cfg => .ok (.db cfg ⟨none⟩)
  | .flags cfg => .ok (.flags cfg)
  | .dir cfg => .ok (.dir cfg ⟨[]⟩)
  | .nats cfg => .ok (.nats cfg)
  | .custom p =>
    match p.valueError with
    | none => .ok (.custom p)
    | some err => .error err

/-! ### Cleanups -/

/-- What a cleanup does that can be observed. -/
inductive Effect where
  /-- A call on the response writer. -/
  | call (c : WriterCall)
  /-- `tx.Commit()` of the `DotDB` at that field. -/
  | commit (field : Nat)
  /-- `tx.Rollback()` of the `DotDB` at that field. -/
  | rollback (field : Nat)
  /-- `file.Close()` of an opened file. -/
  | close (file : Nat)
  deriving DecidableEq, Repr

/-- The response writer calls among effects. -/
def Effect.calls : List Effect → List WriterCall
  | [] => []
  | .call c :: effs => c :: Effect.calls effs
  | _ :: effs => Effect.calls effs

/-- `DotDBConfig.Cleanup`: roll back on an error, commit otherwise, and join
the error with the one the transaction returns. Without an open transaction
`commit` and `rollback` do nothing and return nil. -/
def dbCleanup (i : Nat) (d : DotDB) (err : Option Err) : Option Err × List Effect :=
  match d.tx, err with
  | none, _ => (errorsJoin [err, none], [])
  | some tx, some _ => (errorsJoin [err, tx.rollbackResult], [.rollback i])
  | some tx, none => (errorsJoin [err, tx.commitResult], [.commit i])

/-- `dotRespProvider.Cleanup`: an `ErrorStatus` is written as the status; with
no error the template's headers are copied and its status written. -/
def respCleanup (d : DotResp) (err : Option Err) : Option Err × List Effect :=
  match errorsAs ErrorKind.asErrorStatus err with
  | some code => (err, [.call (.writeHeader code)])
  | none =>
    match err with
    | none => (err, [.call (.headerCopy d.header), .call (.writeHeader d.status)])
    | some _ => (err, [])

/-- `Cleanup(v, err)` of the field at index `i`. Fields whose provider has no
`Cleanup` are never handed to one; they pass the error on. -/
def DotField.cleanup (i : Nat) : DotField → Option Err → Option Err × List Effect
  -- `dotXProvider`: a `ReturnError` anywhere in the error is success
  | .x, err => (if isReturnError err then none else err, [])
  | .resp d, err => respCleanup d err
  | .flush, err => (err, match err with | none => [.call .flush] | some _ => [])
  | .db _ d, err => dbCleanup i d err
  -- `DotDirConfig`: every opened file is closed; failures are only logged
  | .dir _ fs, err => (err, fs.opened.map .close)
  | .custom p, err =>
    match p.cleanup with
    | some f => (f err, [])
    | none => (err, [])
  | .req, err | .flags _, err | .nats _, err => (err, [])

/-! ### `makeDot`, `dot.value` and `dot.cleanup` -/

/-- `isLetter` of `reflect`: ASCII letters and `_`; every rune beyond ASCII is
taken as a letter here, where Go asks `unicode.IsLetter`. -/
def isFieldLetter (c : Char) : Bool :=
  ('a' ≤ c && c ≤ 'z') || ('A' ≤ c && c ≤ 'Z') || c == '_' || c.toNat ≥ 128

/-- `isValidFieldName` of `reflect`: a letter, then letters and digits. -/
def isValidFieldName : List Char → Bool
  | [] => false
  | c :: cs => isFieldLetter c && cs.all fun d => isFieldLetter d || d.isDigit

/-- The panic `reflect.StructOf` raises for the field names, in field order:
an empty name, an invalid one, one that starts with a lower-case ASCII letter
or `_` (an unexported field), or a name already used. -/
def structOfPanic : Nat → List (List Char) → List (List Char) → Option (List Char)
  | _, _, [] => none
  | i, seen, name :: names =>
    if name = [] then
      some ("reflect.StructOf: field ".toList ++ (toString i).toList ++ " has no name".toList)
    else if !isValidFieldName name then
      some ("reflect.StructOf: field ".toList ++ (toString i).toList ++ " has invalid name".toList)
    else if (name.headD ' ').isLower || name.headD ' ' = '_' then
      some ("reflect.StructOf: field \"".toList ++ name ++
        "\" is unexported but missing PkgPath".toList)
    else if name ∈ seen then some ("reflect.StructOf: duplicate field ".toList ++ name)
    else structOfPanic (i + 1) (name :: seen) names

/-- `dot`: the providers and, by index, those that clean up. -/
structure Dot where
  dps : List DotConfig
  cleanups : List Nat

/-- The indices of the providers that are `CleanupDotProvider`s, in order. -/
def cleanupIndices (dps : List DotConfig) : List Nat :=
  (dps.zipIdx.filter fun p => p.1.hasCleanup).map (·.2)

/-- `makeDot`: the dot of the providers, or the panic of `reflect.StructOf`. -/
def makeDot (dps : List DotConfig) : Except (List Char) Dot :=
  match structOfPanic 0 [] (dps.map DotConfig.fieldName) with
  | some msg => .error msg
  | none => .ok ⟨dps, cleanupIndices dps⟩

/-- `dot.value`: every provider's value, or the first error, wrapped with the
field name. -/
def Dot.value (d : Dot) (flusher : Bool) : Except Err (List DotField) :=
  d.dps.mapM fun dp =>
    match dp.value flusher with
    | .ok f => .ok f
    | .error err => .error (.wrap ("failed to construct dot value for ".toList ++ dp.fieldName) err)

/-- One cleanup of `dot.cleanup`, on the field at index `i`. -/
def cleanupStep (v : List DotField) (st : Option Err × List Effect) (i : Nat) :
    Option Err × List Effect :=
  match v[i]? with
  | some f =>
    let (err, effs) := f.cleanup i st.1
    (err, st.2 ++ effs)
  | none => st

/-- `dot.cleanup(v, err)`: the error after every cleanup, and what they did. -/
def Dot.cleanup (d : Dot) (v : List DotField) (err : Option Err) : Option Err × List Effect :=
  d.cleanups.foldl (cleanupStep v) (err, [])

/-! ### `dot.cleanup` as a walk over the fields -/

/-- One cleanup, on a field and its index. -/
def fieldStep (st : Option Err × List Effect) (p : DotField × Nat) : Option Err × List Effect :=
  let (err, effs) := p.1.cleanup p.2 st.1
  (err, st.2 ++ effs)

/-- The fields of a dot value whose provider cleans up, with their indices
counted from `k`. -/
def cleanupFields (v : List DotField) (k : Nat) : List (DotField × Nat) :=
  (v.zipIdx k).filter fun p => p.1.config.hasCleanup

theorem makeDot_eq_ok {dps : List DotConfig} {d : Dot} (h : makeDot dps = .ok d) :
    d.dps = dps ∧ d.cleanups = cleanupIndices dps := by
  unfold makeDot at h
  split at h
  · cases h
  · cases h
    exact ⟨rfl, rfl⟩

/-- A provider's value is a field of that provider. -/
theorem DotConfig.config_of_value {dp : DotConfig} {flusher : Bool} {f : DotField}
    (h : dp.value flusher = .ok f) : f.config = dp := by
  cases dp with
  | flush =>
    simp only [DotConfig.value] at h
    split at h
    · cases h
      rfl
    · cases h
  | custom p =>
    simp only [DotConfig.value] at h
    split at h
    · cases h
      rfl
    · cases h
  | x | req | resp | db _ | flags _ | dir _ | nats _ =>
    cases h
    rfl

/-- Mapping providers to fields of the same providers, with `mapM`, keeps
the providers. -/
theorem mapM_map_config {ε : Type} {g : DotConfig → Except ε DotField}
    (hg : ∀ dp f, g dp = .ok f → f.config = dp) {dps : List DotConfig} {v : List DotField}
    (h : dps.mapM g = .ok v) : v.map DotField.config = dps := by
  induction dps generalizing v with
  | nil =>
    cases h
    rfl
  | cons dp dps ih =>
    rw [List.mapM_cons] at h
    -- the first provider's value, then the others'
    cases hdp : g dp with
    | error err =>
      rw [hdp] at h
      cases h
    | ok f =>
      cases hrest : dps.mapM g with
      | error err =>
        rw [hdp, hrest] at h
        cases h
      | ok fs =>
        simp only [hdp, hrest] at h
        cases h
        rw [List.map_cons, hg dp f hdp, ih hrest]

/-- `dot.value` gives one field for each provider, of that provider. -/
theorem Dot.value_map_config {d : Dot} {flusher : Bool} {v : List DotField}
    (h : d.value flusher = .ok v) : v.map DotField.config = d.dps := by
  refine mapM_map_config (fun dp f hf => ?_) h
  split at hf
  · cases hf
    exact DotConfig.config_of_value ‹_›
  · cases hf

/-- The cleanups `makeDot` collects are the fields that clean up, in order. -/
theorem cleanupIndices_map_config (v : List DotField) :
    cleanupIndices (v.map DotField.config) = (cleanupFields v 0).map (·.2) := by
  simp only [cleanupIndices, cleanupFields, List.zipIdx_map, List.filter_map, List.map_map]
  rfl

/-- `dot.cleanup` walks the fields that clean up, in field order. -/
theorem Dot.cleanup_eq_foldl {dps : List DotConfig} {d : Dot} (hd : makeDot dps = .ok d)
    {v : List DotField} (hv : v.map DotField.config = dps) (err : Option Err) :
    d.cleanup v err = (cleanupFields v 0).foldl fieldStep (err, []) := by
  rw [Dot.cleanup, (makeDot_eq_ok hd).2, ← hv, cleanupIndices_map_config, List.foldl_map]
  apply List.foldl_ext
  intro st p hp
  obtain ⟨-, hi, hx⟩ := List.mem_zipIdx (List.mem_of_mem_filter hp)
  have hget : v[p.2]? = some p.1 := by
    rw [List.getElem?_eq_getElem (by omega), hx]
    simp
  simp only [cleanupStep, hget, fieldStep]

theorem cleanupFields_nil (k : Nat) : cleanupFields [] k = [] := rfl

theorem cleanupFields_cons (f : DotField) (v : List DotField) (k : Nat) :
    cleanupFields (f :: v) k =
      if f.config.hasCleanup then (f, k) :: cleanupFields v (k + 1) else cleanupFields v (k + 1) := by
  simp only [cleanupFields, List.zipIdx_cons, List.filter_cons]

theorem cleanupFields_append (v w : List DotField) (k : Nat) :
    cleanupFields (v ++ w) k = cleanupFields v k ++ cleanupFields w (k + v.length) := by
  simp only [cleanupFields, List.zipIdx_append, List.filter_append]

/-- The effects of a walk extend the effects before it. -/
theorem foldl_fieldStep_effects (l : List (DotField × Nat)) (st : Option Err × List Effect) :
    ∃ new, (l.foldl fieldStep st).2 = st.2 ++ new := by
  induction l generalizing st with
  | nil => exact ⟨[], by simp⟩
  | cons p l ih =>
    obtain ⟨new, hnew⟩ := ih (fieldStep st p)
    refine ⟨(p.1.cleanup p.2 st.1).2 ++ new, ?_⟩
    rw [List.foldl_cons, hnew]
    simp [fieldStep]

/-! ### What one cleanup does -/

/-- The field a commit or rollback is of. -/
def Effect.txField : Effect → Option Nat
  | .commit i | .rollback i => some i
  | .call _ | .close _ => none

/-- A cleanup commits or rolls back only the field it cleans up. -/
theorem txField_of_mem_cleanup {f : DotField} {i : Nat} {err : Option Err} {eff : Effect}
    (h : eff ∈ (f.cleanup i err).2) : eff.txField = none ∨ eff.txField = some i := by
  cases f with
  | db cfg d =>
    simp only [DotField.cleanup, dbCleanup] at h
    split at h <;> simp_all [Effect.txField]
  | resp d =>
    simp only [DotField.cleanup, respCleanup] at h
    split at h
    · rw [List.mem_singleton] at h
      subst h
      exact .inl rfl
    · split at h
      · simp only [List.mem_cons, List.not_mem_nil, or_false] at h
        rcases h with rfl | rfl <;> exact .inl rfl
      · cases h
  | flush =>
    simp only [DotField.cleanup] at h
    split at h <;> simp_all [Effect.txField]
  | dir cfg fs =>
    simp only [DotField.cleanup, List.mem_map] at h
    obtain ⟨_, -, rfl⟩ := h
    exact .inl rfl
  | custom p =>
    simp only [DotField.cleanup] at h
    split at h <;> simp_all
  | x | req | flags _ | nats _ => simp [DotField.cleanup] at h

/-- A walk commits or rolls back only fields it visits. -/
theorem txField_of_mem_foldl {l : List (DotField × Nat)} {st : Option Err × List Effect}
    {eff : Effect} {i : Nat} (h : eff ∈ (l.foldl fieldStep st).2) (hi : eff.txField = some i) :
    eff ∈ st.2 ∨ ∃ f, (f, i) ∈ l := by
  induction l generalizing st with
  | nil => exact .inl h
  | cons p l ih =>
    rcases ih h with h' | ⟨f, hf⟩
    · simp only [fieldStep, List.mem_append] at h'
      rcases h' with h' | h'
      · exact .inl h'
      · rcases txField_of_mem_cleanup h' with h0 | h0
        · rw [hi] at h0; cases h0
        · rw [hi, Option.some.injEq] at h0
          exact .inr ⟨p.1, by rw [h0]; exact List.mem_cons_self⟩
    · exact .inr ⟨f, List.mem_cons_of_mem _ hf⟩

/-- Every field of a walk with an open transaction ends it: the walk's
effects hold its commit or its rollback. -/
theorem foldl_ends_open_tx {l : List (DotField × Nat)} {st : Option Err × List Effect}
    {cfg : DotDBConfig} {d : DotDB} {i : Nat} (hmem : (.db cfg d, i) ∈ l) (hopen : d.tx.isSome) :
    .commit i ∈ (l.foldl fieldStep st).2 ∨ .rollback i ∈ (l.foldl fieldStep st).2 := by
  induction l generalizing st with
  | nil => cases hmem
  | cons p l ih =>
    rw [List.foldl_cons]
    rcases List.mem_cons.mp hmem with rfl | hmem
    · -- the step itself commits or rolls back, and later steps only add effects
      obtain ⟨new, hnew⟩ := foldl_fieldStep_effects l (fieldStep st (.db cfg d, i))
      obtain ⟨tx, htx⟩ := Option.isSome_iff_exists.mp hopen
      rw [hnew]
      cases herr : st.1 with
      | none =>
        left
        simp [fieldStep, DotField.cleanup, dbCleanup, htx, herr]
      | some e =>
        right
        simp [fieldStep, DotField.cleanup, dbCleanup, htx, herr]
    · exact ih hmem

/-! ### Cleanups that write the response -/

/-- The providers whose cleanup calls the response writer: `.Resp` and
`.Flush`. -/
def DotConfig.writesResponse : DotConfig → Bool
  | .resp | .flush => true
  | _ => false

@[simp] theorem Effect.calls_nil : Effect.calls [] = [] := rfl

@[simp] theorem Effect.calls_append (a b : List Effect) :
    Effect.calls (a ++ b) = Effect.calls a ++ Effect.calls b := by
  induction a with
  | nil => rfl
  | cons eff a ih => cases eff <;> simp [Effect.calls, ih]

/-- Only `.Resp` and `.Flush` call the response writer when they clean up. -/
theorem calls_cleanup_of_not_writes {f : DotField} (hf : f.config.writesResponse = false)
    (i : Nat) (err : Option Err) : Effect.calls (f.cleanup i err).2 = [] := by
  cases f with
  | db cfg d =>
    simp only [DotField.cleanup, dbCleanup]
    split <;> rfl
  | dir cfg fs =>
    simp only [DotField.cleanup]
    induction fs.opened with
    | nil => rfl
    | cons file files ih => exact ih
  | custom p =>
    simp only [DotField.cleanup]
    split <;> rfl
  | x | req | flags _ | nats _ => rfl
  | resp _ | flush => cases hf

/-- A walk over fields that do not write the response makes no call on it. -/
theorem calls_foldl_of_not_writes {l : List (DotField × Nat)}
    (hl : ∀ p ∈ l, p.1.config.writesResponse = false) (st : Option Err × List Effect) :
    Effect.calls (l.foldl fieldStep st).2 = Effect.calls st.2 := by
  induction l generalizing st with
  | nil => rfl
  | cons p l ih =>
    rw [List.foldl_cons, ih (fun q hq => hl q (List.mem_cons_of_mem _ hq))]
    simp [fieldStep, calls_cleanup_of_not_writes (hl p List.mem_cons_self)]

/-- `dotRespProvider.Cleanup` returns the error it was given. -/
@[simp] theorem respCleanup_fst (d : DotResp) (err : Option Err) : (respCleanup d err).1 = err := by
  unfold respCleanup
  split
  · rfl
  · split <;> rfl

/-- With `.Resp` last and no other field writing the response, the calls of
`dot.cleanup` are those of the `.Resp` cleanup, on the error it returns. -/
theorem Dot.calls_cleanup_resp_last {pre : List DotField} {r : DotResp} {d : Dot}
    (hd : makeDot ((pre ++ [DotField.resp r]).map DotField.config) = .ok d)
    (hpre : ∀ f ∈ pre, f.config.writesResponse = false) (err : Option Err) :
    Effect.calls (d.cleanup (pre ++ [.resp r]) err).2 =
      Effect.calls (respCleanup r (d.cleanup (pre ++ [.resp r]) err).1).2 := by
  rw [Dot.cleanup_eq_foldl hd rfl, cleanupFields_append,
    show cleanupFields [.resp r] (0 + pre.length) = [(.resp r, 0 + pre.length)] from rfl,
    List.foldl_append]
  have hwalk : ∀ p ∈ cleanupFields pre 0, p.1.config.writesResponse = false :=
    fun p hp => hpre p.1 (List.mem_zipIdx_iff_getElem?.mp (List.mem_of_mem_filter hp) |>
      List.mem_of_getElem?)
  simp [fieldStep, DotField.cleanup, calls_foldl_of_not_writes hwalk]

/-! ### The transactions of the configured databases -/

/-- The field of a configured database and its `DotDB`. -/
def dbField (p : DotDBConfig × DotDB) : DotField := .db p.1 p.2

theorem dbField_hasCleanup (p : DotDBConfig × DotDB) : (dbField p).config.hasCleanup = true := rfl

theorem cleanupFields_dbs (dbs : List (DotDBConfig × DotDB)) (k : Nat) :
    cleanupFields (dbs.map dbField) k = (dbs.map dbField).zipIdx k := by
  rw [cleanupFields, List.filter_eq_self]
  intro p hp
  obtain ⟨-, hlt, hx⟩ := List.mem_zipIdx hp
  rw [hx, List.getElem_map]
  exact dbField_hasCleanup _

/-- Handed an error, a database's cleanup rolls back an open transaction and
passes an error on. -/
theorem fieldStep_db_of_isSome {st : Option Err × List Effect} (h : st.1.isSome)
    (p : DotDBConfig × DotDB) (k : Nat) :
    (fieldStep st (dbField p, k)).1.isSome ∧
      (fieldStep st (dbField p, k)).2 = st.2 ++ (if p.2.tx.isSome then [.rollback k] else []) := by
  obtain ⟨e, he⟩ := Option.isSome_iff_exists.mp h
  have hjoin : ∀ x, (errorsJoin [some e, x]).isSome := fun x =>
    Option.isSome_iff_ne_none.mpr (errorsJoin_cons_some e [x])
  cases htx : p.2.tx with
  | none => simp [fieldStep, dbField, DotField.cleanup, dbCleanup, he, htx, hjoin]
  | some tx => simp [fieldStep, dbField, DotField.cleanup, dbCleanup, he, htx, hjoin]

/-- Handed an error, the cleanups of a run of databases roll back every open
transaction, commit none, and pass an error on. -/
theorem foldl_dbs_of_isSome (dbs : List (DotDBConfig × DotDB)) :
    ∀ (k : Nat) (st : Option Err × List Effect), st.1.isSome →
      (((dbs.map dbField).zipIdx k).foldl fieldStep st).1.isSome ∧
      (∀ i, .commit i ∈ (((dbs.map dbField).zipIdx k).foldl fieldStep st).2 → .commit i ∈ st.2) ∧
      ∀ j (hj : j < dbs.length), (dbs[j]).2.tx.isSome →
        .rollback (k + j) ∈ (((dbs.map dbField).zipIdx k).foldl fieldStep st).2 := by
  induction dbs with
  | nil => intro k st h; simp [h]
  | cons p dbs ih =>
    intro k st h
    obtain ⟨h1, heffs⟩ := fieldStep_db_of_isSome h p k
    obtain ⟨ihSome, ihCommit, ihRollback⟩ := ih (k + 1) (fieldStep st (dbField p, k)) h1
    rw [List.map_cons, List.zipIdx_cons, List.foldl_cons]
    refine ⟨ihSome, fun i hi => ?_, fun j hj hopen => ?_⟩
    · -- the step adds a rollback at most
      have hi' := ihCommit i hi
      rw [heffs, List.mem_append] at hi'
      rcases hi' with hi' | hi'
      · exact hi'
      · split at hi' <;> simp at hi'
    · cases j with
      | zero =>
        -- this database's rollback stays among the effects
        obtain ⟨new, hnew⟩ := foldl_fieldStep_effects ((dbs.map dbField).zipIdx (k + 1))
          (fieldStep st (dbField p, k))
        rw [hnew, heffs]
        simp only [List.getElem_cons_zero] at hopen
        simp [hopen]
      | succ j =>
        have := ihRollback j (by simpa using hj) (by simpa using hopen)
        rwa [show k + (j + 1) = k + 1 + j by omega]

theorem mem_cleanupFields {v : List DotField} {i : Nat} {f : DotField} (hget : v[i]? = some f)
    (hc : f.config.hasCleanup = true) : (f, i) ∈ cleanupFields v 0 :=
  List.mem_filter.mpr ⟨List.mem_zipIdx_iff_getElem?.mpr hget, hc⟩

theorem le_of_mem_cleanupFields {v : List DotField} {k i : Nat} {f : DotField}
    (h : (f, i) ∈ cleanupFields v k) : k ≤ i :=
  (List.mem_zipIdx (List.mem_of_mem_filter h)).1

/-- What `.X`'s cleanup leaves of an error that is not a `ReturnError`: the
error. -/
theorem isSome_after_x {e : Option Err} (hne : e ≠ none) (hret : isReturnError e = false) :
    (if isReturnError e then none else e).isSome := by
  rw [if_neg (by simp [hret])]
  exact Option.isSome_iff_ne_none.mpr hne

/-- The transactions of the configured databases follow the template's
outcome: one is committed only when the error is nil or wraps `ReturnError`,
and every open one is rolled back for any other error. And no `DotDB`, of
any field, is left with an open transaction. The fields are those of
`Config.Instance`: `.X`, `.Req`, the databases, then the rest. -/
theorem cleanup_database_transactions {dbs : List (DotDBConfig × DotDB)} {rest : List DotField}
    {d : Dot} (hd : makeDot (([DotField.x, .req] ++ dbs.map dbField ++ rest).map DotField.config) = .ok d)
    (e : Option Err) :
    (∀ j < dbs.length,
      .commit (j + 2) ∈ (d.cleanup ([DotField.x, .req] ++ dbs.map dbField ++ rest) e).2 →
        e = none ∨ isReturnError e = true) ∧
    (∀ j (hj : j < dbs.length), (dbs[j]).2.tx.isSome → e ≠ none → isReturnError e = false →
      .rollback (j + 2) ∈ (d.cleanup ([DotField.x, .req] ++ dbs.map dbField ++ rest) e).2) ∧
    (∀ i cfg dd, ([DotField.x, .req] ++ dbs.map dbField ++ rest)[i]? = some (.db cfg dd) → dd.tx.isSome →
      .commit i ∈ (d.cleanup ([DotField.x, .req] ++ dbs.map dbField ++ rest) e).2 ∨
        .rollback i ∈ (d.cleanup ([DotField.x, .req] ++ dbs.map dbField ++ rest) e).2) := by
  rw [Dot.cleanup_eq_foldl hd rfl]
  refine ⟨?_, ?_, fun i cfg dd hget hopen => foldl_ends_open_tx (mem_cleanupFields hget rfl) hopen⟩
  all_goals
    -- the walk is `.X`, then the databases from index 2, then the rest
    rw [cleanupFields_append, cleanupFields_append, cleanupFields_dbs,
      show cleanupFields [.x, .req] 0 = [(.x, 0)] from rfl, List.foldl_append, List.foldl_append]
    have hx : [(DotField.x, 0)].foldl fieldStep (e, []) =
        (if isReturnError e then none else e, []) := rfl
    have hk : 0 + ([DotField.x, .req] ++ dbs.map dbField).length = 2 + dbs.length := by
      simp only [List.length_append, List.length_map, List.length_cons, List.length_nil]
      omega
    rw [hx, hk, show 0 + [DotField.x, .req].length = 2 from rfl]
  · intro j hj hcommit
    -- a commit at a database's index comes from the databases' walk
    rcases txField_of_mem_foldl hcommit rfl with hin | ⟨f, hf⟩
    · by_contra hnot
      simp only [not_or, Bool.not_eq_true] at hnot
      have := (foldl_dbs_of_isSome dbs 2 _ (isSome_after_x hnot.1 hnot.2)).2.1 _ hin
      simp at this
    · have := le_of_mem_cleanupFields hf
      omega
  · intro j hj hopen hne hret
    have hsome := isSome_after_x hne hret
    obtain ⟨new, hnew⟩ := foldl_fieldStep_effects (cleanupFields rest (2 + dbs.length))
      (((dbs.map dbField).zipIdx 2).foldl fieldStep (if isReturnError e then none else e, []))
    rw [hnew, List.mem_append, show j + 2 = 2 + j by omega]
    exact .inl ((foldl_dbs_of_isSome dbs 2 _ hsome).2.2 j hj hopen)

/-- A database with an open transaction whose commit and rollback succeed. -/
def openDB : DotDBConfig × DotDB := (⟨"DB".toList, some 0, [], [], 0⟩, ⟨some ⟨none, none⟩⟩)

/-- The theorem at one configured database and a failed template: the open
transaction is rolled back. -/
theorem cleanup_database_transactions_open_db :
    makeDot (([DotField.x, .req] ++ [openDB].map dbField ++ [DotField.resp ⟨[], 200⟩]).map DotField.config) =
        .ok ⟨[DotConfig.x, .req, .db openDB.1, .resp], [0, 2, 3]⟩ ∧
      .rollback 2 ∈ (Dot.cleanup ⟨[DotConfig.x, .req, .db openDB.1, .resp], [0, 2, 3]⟩
        ([DotField.x, .req] ++ [openDB].map dbField ++ [DotField.resp ⟨[], 200⟩]) (some (errorf "boom"))).2 :=
  ⟨rfl, (cleanup_database_transactions rfl (some (errorf "boom"))).2.1 0 (by decide) rfl
    (by simp) rfl⟩

/-- A custom provider whose `Cleanup` returns nil for every error. -/
def swallowProvider : CustomProvider := ⟨"Swallow".toList, none, none, some fun _ => none⟩

/-- A `DotDBConfig` may also be listed among the custom providers, which come
after the configured databases. Behind a custom provider that turns every
error into nil, its transaction is committed after the template failed. -/
theorem cleanup_commits_after_failed_template :
    ∃ d, makeDot ([DotField.x, .req, .custom swallowProvider, dbField openDB, .resp ⟨[], 200⟩].map
        DotField.config) = .ok d ∧
      .commit 3 ∈ (d.cleanup [DotField.x, .req, .custom swallowProvider, dbField openDB,
        .resp ⟨[], 200⟩] (some (errorf "boom"))).2 :=
  ⟨_, rfl, by decide⟩

end Xtemplate
