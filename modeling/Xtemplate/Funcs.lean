import Xtemplate.Basic
import Xtemplate.Go.Reflect

/-!
`FuncTry`, the `try` template function (`funcs.go`).

`try` takes a function value, or a value and the name of one of its methods,
checks that the function returns one or two results with an error last, and
calls it by reflection with the remaining arguments. A nil argument becomes
the zero value of `fnv.Type().In(i)`, the parameter at the argument's
position: in a variadic tail that is the tail's slice type, not its element
type, and past the last parameter `In(i)` panics.

`funcTry_direct_call` says what `try` returns for the arguments a direct
call accepts, with no nil in a variadic tail: the results of the direct call,
except that `reflect` passes an empty variadic tail as an empty slice.
-/

namespace Xtemplate

open Go

/-- The `fn` argument of `try`. -/
inductive Callee where
  | nil
  | func (f : Func)
  /-- Any other value: the first argument names its method. -/
  | value (v : Value)

/-- `result`: what `try` gives the template. -/
structure TryResult where
  value : Option Value
  error : Option Value
  deriving Repr

/-- The first block of `FuncTry`: the function to call and the arguments
left for it. -/
def resolveCallee (env : TypeEnv) : Callee → List (Option Value) →
    Except Err (Func × List (Option Value))
  | .nil, _ => .error (errorf "nil func")
  | .func f, args => .ok (f, args)
  | .value _, [] => .error (errorf "not callable (no method name provided)")
  | .value v, some (.str m) :: args =>
    match env.methodByName v m with
    | some f => .ok (f, args)
    | none => .error (errorf "not callable (method not found)")
  | .value _, _ :: _ => .error (errorf "not callable (non-string method name)")

/-- The check of the function's results: one or two, the last assignable to
`error`. -/
def checkOutputs (env : TypeEnv) (f : Func) : Except Err Unit :=
  let n := f.results.length
  if n ≠ 1 ∧ n ≠ 2 then .error (errorf ("cannot call func that has " ++ toString n ++ " outputs"))
  else if !(f.results.getLast?.all (env.assignable · .errorType)) then
    .error (errorf "cannot call func whose last arg is not error")
  else .ok ()

/-- The body of the loop over `args`, at position `i`. -/
def reflectArg (f : Func) (i : Nat) : Option Value → Except (List Char) Value
  | some v => .ok v
  | none =>
    match f.params[i]? with
    | some t => .ok (.zero t)
    | none => .error (indexOutOfRange i f.params.length)

/-- The loop over `args` from position `i`, in order: the first panic ends it. -/
def reflectArgs (f : Func) (i : Nat) : List (Option Value) → Except (List Char) (List Value)
  | [] => .ok []
  | a :: args => do
    let arg ← reflectArg f i a
    let rest ← reflectArgs f (i + 1) args
    return arg :: rest

/-- The `result` of the `n` outputs `out`. -/
def TryResult.ofOutputs (n : Nat) (out : List Value) : TryResult :=
  ⟨if n > 1 then out[0]?.bind Value.toAny else none, out[n - 1]?.bind Value.toAny⟩

/-- `FuncTry(fn, args...)`: a returned error, or a panic of `reflect`. -/
def funcTry (env : TypeEnv) (fn : Callee) (args : List (Option Value)) :
    Except (Abort Err) TryResult :=
  match resolveCallee env fn args with
  | .error e => .error (.error e)
  | .ok (f, args) =>
    match checkOutputs env f with
    | .error e => .error (.error e)
    | .ok () =>
      match reflectArgs f 0 args >>= f.reflectCall env with
      | .error msg => .error (.panic msg)
      | .ok out => .ok (TryResult.ofOutputs f.results.length out)

theorem checkOutputs_eq_ok {env : TypeEnv} {f : Func} :
    checkOutputs env f = .ok () ↔ (f.results.length = 1 ∨ f.results.length = 2) ∧
      ∀ t ∈ f.results.getLast?, env.assignable t .errorType = true := by
  unfold checkOutputs
  by_cases hn : f.results.length = 1 ∨ f.results.length = 2
  · rw [if_neg (by omega)]
    cases hl : f.results.getLast? with
    | none => simp [hn]
    | some t => cases ht : env.assignable t .errorType <;> simp [hn, ht]
  · rw [if_pos (by omega)]
    simp [hn]

/-- Non-nil arguments are passed as they are, at any position. -/
theorem reflectArgs_of_isSome (f : Func) (d : Value) :
    ∀ (xs : List (Option Value)) (i : Nat), (∀ a ∈ xs, a.isSome = true) →
      reflectArgs f i xs = .ok (xs.map (·.getD d))
  | [], _, _ => rfl
  | a :: xs, i, h => by
    obtain ⟨v, rfl⟩ := Option.isSome_iff_exists.mp (h a List.mem_cons_self)
    have ih := reflectArgs_of_isSome f d xs (i + 1) fun b hb => h b (List.mem_cons_of_mem _ hb)
    simp [reflectArgs, reflectArg, ih, bind, Except.bind, pure, Except.pure]

/-- The loop on fixed arguments, each within the parameters, then a tail with
no nil: the fixed ones filled in, the tail as it is. -/
theorem reflectArgs_fixed_tail (f : Func) (d : Value) :
    ∀ (xs ys : List (Option Value)) (i : Nat), i + xs.length ≤ f.params.length →
      (∀ a ∈ ys, a.isSome = true) →
      reflectArgs f i (xs ++ ys) = .ok (zeroFill xs (f.params.drop i) ++ ys.map (·.getD d))
  | [], ys, i, _, hy => by simpa using reflectArgs_of_isSome f d ys i hy
  | a :: xs, ys, i, h, hy => by
    have hi : i < f.params.length := by simp at h; omega
    have ih := reflectArgs_fixed_tail f d xs ys (i + 1) (by simp at h; omega) hy
    rw [List.drop_eq_getElem_cons hi]
    cases a <;> simp only [List.cons_append, reflectArgs, reflectArg, ih,
      List.getElem?_eq_getElem hi, zeroFill_cons, Option.getD_none, Option.getD_some, bind,
      Except.bind, pure, Except.pure]

/-- The argument loop and `Call` on arguments a direct call accepts, with no
nil in a variadic tail: the body runs on the fixed arguments filled in and,
for a variadic function, the tail packed as one slice. -/
theorem reflectArgs_call {env : TypeEnv} {f : Func} {rest : List (Option Value)}
    (hok : f.DirectOK env rest)
    (hnil : f.variadic = true → ∀ a ∈ rest.drop f.fixed, a.isSome = true) :
    (reflectArgs f 0 rest >>= f.reflectCall env) = .ok (f.body
      (if f.variadic then zeroFill (rest.take f.fixed) f.params ++
          [.slice f.tailElem ((rest.drop f.fixed).map (·.getD (.zero f.tailElem)))]
        else zeroFill (rest.take f.fixed) f.params)) := by
  have hk := hok.fixed_le_length
  have hsome : ∀ a ∈ rest.drop f.fixed, a.isSome = true := by
    cases hv : f.variadic with
    | false => simp [hok.drop_fixed hv]
    | true => exact hnil hv
  have hargs : reflectArgs f 0 rest = .ok (zeroFill (rest.take f.fixed) f.params ++
      (rest.drop f.fixed).map (·.getD (.zero f.tailElem))) := by
    have hle : 0 + (rest.take f.fixed).length ≤ f.params.length := by
      have := f.fixed_le
      simp
      omega
    simpa using reflectArgs_fixed_tail f (.zero f.tailElem) _ _ 0 hle hsome
  -- each tail value fits the element type: a nil cannot stand there
  have htail : ∀ y ∈ (rest.drop f.fixed).map (·.getD (.zero f.tailElem)),
      env.assignable y.type f.tailElem = true := by
    intro y hy
    obtain ⟨a, ha, rfl⟩ := List.mem_map.mp hy
    cases hv : f.variadic with
    | false => simp [hok.drop_fixed hv] at ha
    | true => exact TypeEnv.assignable_getD_zero (hok.2.2 hv a ha)
  have hcall := f.reflectCall_ok env (by have := f.fixed_le; simp; omega) (zeroFill_fits hok.2.1)
    htail (fun hv => by simp [hok.drop_fixed hv])
  simp only [hargs, bind, Except.bind, hcall]

/-- `try` on a callable target and arguments a direct call accepts, with no
nil in a variadic tail: it returns the results of the direct call, but for an
empty variadic tail, which reaches the function as an empty slice. -/
theorem funcTry_direct_call {env : TypeEnv} {fn : Callee} {args rest : List (Option Value)}
    {f : Func} (hres : resolveCallee env fn args = .ok (f, rest))
    (hout : f.results.length = 1 ∨ f.results.length = 2)
    (hlast : ∀ t ∈ f.results.getLast?, env.assignable t .errorType = true)
    (hok : f.DirectOK env rest)
    (hnil : f.variadic = true → ∀ a ∈ rest.drop f.fixed, a.isSome = true) :
    funcTry env fn args = .ok (TryResult.ofOutputs f.results.length (f.body
      (if f.variadic = true ∧ rest.length = f.fixed then
        (f.directParams rest).dropLast ++ [.slice f.tailElem []]
      else f.directParams rest))) := by
  unfold funcTry
  rw [hres]
  dsimp only
  rw [checkOutputs_eq_ok.mpr ⟨hout, hlast⟩]
  dsimp only
  rw [reflectArgs_call hok hnil, f.directParams_packed hok.fixed_le_length]

/-! ### `try .DB "Exec"`

A model of `(*DotDB).Exec` as `database/sql` runs it, for the migration
template's `try .DB "Exec" .STMT`: the driver's default converter refuses a
slice among the parameters. -/

/-- The empty interface. -/
def anyT : GoType := .iface "any".toList

/-- A `*DotDB` value. -/
def dotDB : Value := .val (.ptr (.named "xtemplate.DotDB".toList)) 0

/-- The error a driver returns for an argument it cannot convert. -/
def unsupportedErr : Value := .val (.ptr (.named "errors.errorString".toList)) 1

/-- The `sql.Result` of a statement that ran. -/
def rowsAffected : Value := .val (.named "driver.RowsAffected".toList) 0

/-- Whether a value is a slice, which the driver refuses. -/
def Value.isSlice (v : Value) : Bool :=
  match v.type with
  | .slice _ => true
  | _ => false

/-- `func (c *DotDB) Exec(query string, params ...any) (sql.Result, error)`. -/
def dotDBExec : Func where
  params := [.named "string".toList, .slice anyT]
  variadic := true
  results := [.iface "sql.Result".toList, .errorType]
  body
    | [_, .slice _ ps] =>
      if ps.any Value.isSlice then [.zero (.iface "sql.Result".toList), unsupportedErr]
      else [rowsAffected, .zero .errorType]
    | _ => [rowsAffected, .zero .errorType]
  body_length vs := by
    split
    · split <;> rfl
    · rfl

/-- A variadic function that tells a nil tail from an empty one. -/
def nilParamsOnly : Func where
  params := [.slice anyT]
  variadic := true
  results := [.errorType]
  body
    | [.zero _] => [.zero .errorType]
    | _ => [unsupportedErr]
  body_length vs := by
    split <;> rfl

/-- The types of the examples: only the driver's error implements `error`,
and `*DotDB` has `Exec`. -/
def execEnv : TypeEnv where
  implements t n := n == "error".toList && t == unsupportedErr.type
  methodByName
    | .val (.ptr (.named n)) _, m =>
      if n == "xtemplate.DotDB".toList && m == "Exec".toList then some dotDBExec else none
    | _, _ => none

theorem funcTry_differs_from_direct_call :
    -- `try .DB "Exec" "q" nil`: the nil reaches `Exec` as a nil `[]any` inside the tail
    funcTry execEnv (.value dotDB) [some (.str "Exec".toList), some (.str "q".toList), none] =
        .ok ⟨none, some unsupportedErr⟩ ∧
      TryResult.ofOutputs 2
          (dotDBExec.body (dotDBExec.directParams [some (.str "q".toList), none])) =
        ⟨some rowsAffected, none⟩ ∧
    -- with a second nil, `In(2)` is past the two parameters
    funcTry execEnv (.value dotDB)
        [some (.str "Exec".toList), some (.str "q".toList), none, none] =
      .error (.panic (indexOutOfRange 2 2)) ∧
    -- no tail: `reflect` passes an empty slice where a direct call passes nil
    funcTry execEnv (.func nilParamsOnly) [] = .ok ⟨none, some unsupportedErr⟩ ∧
      TryResult.ofOutputs 1 (nilParamsOnly.body (nilParamsOnly.directParams [])) = ⟨none, none⟩ :=
  ⟨rfl, rfl, rfl, rfl, rfl⟩

theorem funcTry_direct_call_exec :
    funcTry execEnv (.value dotDB)
        [some (.str "Exec".toList), some (.str "q".toList), some (.str "x".toList)] =
      .ok ⟨some rowsAffected, none⟩ :=
  (@funcTry_direct_call execEnv (.value dotDB) _ [some (.str "q".toList), some (.str "x".toList)]
    dotDBExec rfl (Or.inr rfl) (by decide) (by decide) (by decide)).trans rfl

end Xtemplate
