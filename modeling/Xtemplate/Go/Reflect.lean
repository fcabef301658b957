import Xtemplate.Go.Strings

/-!
The part of `reflect` that calls a function value.

Types are what a call checks: interfaces by name (`any` is the empty one),
other types by name, slices and pointers. A value is the zero value of a
type, a string, an opaque non-nil value of a type, or a slice with its
elements. Which types implement which interfaces, and which methods a value
has, come from a `TypeEnv`.

`Func.reflectCall` is `reflect.Value.Call`: it checks the argument count and
each argument against its parameter, and packs the arguments past the fixed
parameters of a variadic function into a new slice, which is empty, not
nil, when there are none. A mismatch panics with `reflect`'s message.
`Func.directParams` is what a Go call `f(args...)` passes, with nil as the
zero value of its parameter and no tail as a nil slice; the two agree but
for that empty tail (`Func.directParams_packed`).
-/

namespace Go

/-- Go types, as far as a call checks them. -/
inductive GoType where
  /-- An interface type; `any` is the empty interface. -/
  | iface (name : List Char)
  /-- A defined type that is not an interface. -/
  | named (name : List Char)
  | slice (elem : GoType)
  | ptr (elem : GoType)
  deriving DecidableEq, Repr

/-- The text `reflect` prints for a type. -/
def GoType.name : GoType → List Char
  | .iface n => if n = "any".toList then "interface \x7b\x7d".toList else n
  | .named n => n
  | .slice e => "[]".toList ++ e.name
  | .ptr e => '*' :: e.name

/-- A Go value as `reflect` sees it. -/
inductive Value where
  /-- The zero value of a type: nil for a pointer, slice or interface. -/
  | zero (t : GoType)
  | str (s : List Char)
  /-- A non-nil value of a type, told apart by an identity. -/
  | val (t : GoType) (id : Nat)
  | slice (elem : GoType) (xs : List Value)
  deriving Repr

/-- `v.Type()`. -/
def Value.type : Value → GoType
  | .zero t => t
  | .str _ => .named "string".toList
  | .val t _ => t
  | .slice e _ => .slice e

/-- `v.Interface()` read as an `any`: a nil interface is nil, and every other
value, a typed nil too, is a non-nil interface holding it. -/
def Value.toAny : Value → Option Value
  | .zero (.iface _) => none
  | v => some v

/-- A function value: its signature and what it returns for the values of
its parameters, the variadic ones as one slice. -/
structure Func where
  params : List GoType
  variadic : Bool
  results : List GoType
  body : List Value → List Value
  body_length : ∀ vs, (body vs).length = results.length

/-- The element type of a variadic function's last parameter. -/
def Func.tailElem (f : Func) : GoType :=
  match f.params.getLast? with
  | some (.slice e) => e
  | _ => .iface "any".toList

/-- The number of parameters before the variadic tail. -/
def Func.fixed (f : Func) : Nat := if f.variadic then f.params.length - 1 else f.params.length

/-- The predeclared interface type `error`. -/
def GoType.errorType : GoType := .iface "error".toList

/-- The runtime panic of an index past the end of a slice. -/
def indexOutOfRange (i n : Nat) : List Char :=
  "runtime error: index out of range [".toList ++ (toString i).toList ++ "] with length ".toList ++
    (toString n).toList

/-- What the program's types implement, and the methods of its values. -/
structure TypeEnv where
  /-- Whether a type implements the named interface. -/
  implements : GoType → List Char → Bool
  /-- `v.MethodByName(name)`. -/
  methodByName : Value → List Char → Option Func

/-- `V.AssignableTo(T)`: the same type, or an interface the type implements;
every type implements `any`. -/
def TypeEnv.assignable (env : TypeEnv) (v t : GoType) : Bool :=
  v == t || match t with
    | .iface n => n == "any".toList || env.implements v n
    | _ => false

/-- `v.Call(in)`. -/
def Func.reflectCall (env : TypeEnv) (f : Func) (args : List Value) : Except (List Char) (List Value) :=
  let n := f.fixed
  if args.length < n then .error "reflect: Call with too few input arguments".toList
  else if !f.variadic && args.length > n then
    .error "reflect: Call with too many input arguments".toList
  else
    match ((args.take n).zip f.params).find? (fun p => !env.assignable p.1.type p.2) with
    | some (x, t) => .error ("reflect: Call using ".toList ++ x.type.name ++ " as type ".toList ++ t.name)
    | none =>
      if f.variadic then
        -- the variadic slice is made here, of the arguments past the fixed ones
        match (args.drop n).find? (fun x => !env.assignable x.type f.tailElem) with
        | some x => .error ("reflect: cannot use ".toList ++ x.type.name ++ " as type ".toList ++
            f.tailElem.name ++ " in Call".toList)
        | none => .ok (f.body (args.take n ++ [.slice f.tailElem (args.drop n)]))
      else .ok (f.body args)

/-- Whether a value of a type can be nil. -/
def GoType.nillable : GoType → Bool
  | .iface _ | .slice _ | .ptr _ => true
  | .named _ => false

/-- Whether an argument, nil or a value, may be passed where `t` is expected. -/
def TypeEnv.argFits (env : TypeEnv) (a : Option Value) (t : GoType) : Bool :=
  match a with
  | none => t.nillable
  | some v => env.assignable v.type t

/-- Whether `f(args...)` is a valid call: the count, and each argument for
its parameter or for the element of the variadic tail. -/
def Func.DirectOK (env : TypeEnv) (f : Func) (args : List (Option Value)) : Prop :=
  (if f.variadic then f.fixed ≤ args.length else args.length = f.params.length) ∧
    (∀ p ∈ (args.take f.fixed).zip f.params, env.argFits p.1 p.2 = true) ∧
    (f.variadic = true → ∀ a ∈ args.drop f.fixed, env.argFits a f.tailElem = true)

instance (env : TypeEnv) (f : Func) (args : List (Option Value)) :
    Decidable (f.DirectOK env args) :=
  inferInstanceAs (Decidable (_ ∧ _ ∧ _))

/-- Arguments for the parameters `ps`, in order: a nil one as the zero value
of its parameter. -/
def zeroFill (args : List (Option Value)) (ps : List GoType) : List Value :=
  (args.zip ps).map fun p => p.1.getD (.zero p.2)

/-- The parameter values of `f(args...)`: the fixed arguments filled in and,
for a variadic `f`, the arguments past them in a new slice, or nil when there
are none. -/
def Func.directParams (f : Func) (args : List (Option Value)) : List Value :=
  let fixedArgs := zeroFill (args.take f.fixed) f.params
  if f.variadic then
    if args.length ≤ f.fixed then fixedArgs ++ [.zero (.slice f.tailElem)]
    else fixedArgs ++ [.slice f.tailElem ((args.drop f.fixed).map (·.getD (.zero f.tailElem)))]
  else fixedArgs

/-- A value is assignable to its own type. -/
@[simp] theorem TypeEnv.assignable_self (env : TypeEnv) (t : GoType) : env.assignable t t = true := by
  simp [TypeEnv.assignable]

/-- An argument that fits `t` is assignable to it once a nil is filled in. -/
theorem TypeEnv.assignable_getD_zero {env : TypeEnv} {a : Option Value} {t : GoType}
    (h : env.argFits a t = true) : env.assignable (a.getD (.zero t)).type t = true := by
  cases a with
  | none => simp [Value.type]
  | some v => simpa [TypeEnv.argFits] using h

@[simp] theorem zeroFill_nil (ps : List GoType) : zeroFill [] ps = [] := rfl

@[simp] theorem zeroFill_cons (a : Option Value) (args : List (Option Value)) (t : GoType)
    (ps : List GoType) : zeroFill (a :: args) (t :: ps) = a.getD (.zero t) :: zeroFill args ps :=
  rfl

@[simp] theorem zeroFill_length (args : List (Option Value)) (ps : List GoType) :
    (zeroFill args ps).length = min args.length ps.length := by
  simp [zeroFill]

/-- Filled-in arguments that fit their parameters are assignable to them. -/
theorem zeroFill_fits {env : TypeEnv} {args : List (Option Value)} {ps : List GoType}
    (h : ∀ p ∈ args.zip ps, env.argFits p.1 p.2 = true) :
    ∀ p ∈ (zeroFill args ps).zip ps, env.assignable p.1.type p.2 = true := by
  induction args generalizing ps with
  | nil => simp
  | cons a args ih =>
    cases ps with
    | nil => simp
    | cons t ps =>
      simp only [List.zip_cons_cons, List.mem_cons, forall_eq_or_imp, zeroFill_cons] at h ⊢
      exact ⟨TypeEnv.assignable_getD_zero h.1, ih h.2⟩

/-- `Call` on arguments that fit: the fixed ones for their parameters and,
for a variadic function, the rest for the element type, packed as one slice. -/
theorem Func.reflectCall_ok (env : TypeEnv) (f : Func) {xs ys : List Value}
    (hlen : xs.length = f.fixed)
    (hfix : ∀ p ∈ xs.zip f.params, env.assignable p.1.type p.2 = true)
    (htail : ∀ y ∈ ys, env.assignable y.type f.tailElem = true)
    (hvar : f.variadic = false → ys = []) :
    f.reflectCall env (xs ++ ys) =
      .ok (f.body (if f.variadic then xs ++ [.slice f.tailElem ys] else xs)) := by
  have htake : (xs ++ ys).take f.fixed = xs := List.take_left' hlen
  have hdrop : (xs ++ ys).drop f.fixed = ys := List.drop_left' hlen
  have hnofix : (xs.zip f.params).find? (fun p => !env.assignable p.1.type p.2) = none := by
    rw [List.find?_eq_none]
    intro p hp
    simp [hfix p hp]
  have hnotail : ys.find? (fun x => !env.assignable x.type f.tailElem) = none := by
    rw [List.find?_eq_none]
    intro y hy
    simp [htail y hy]
  unfold Func.reflectCall
  simp only [htake, hdrop, hnofix, hnotail, List.length_append]
  cases hv : f.variadic with
  | false =>
    -- no tail: the count is exact
    obtain rfl := hvar hv
    simp only [List.append_nil, List.length_nil, Nat.add_zero, Bool.not_false, Bool.true_and,
      decide_eq_true_eq, Bool.false_eq_true, ↓reduceIte]
    rw [if_neg (by omega), if_neg (by omega)]
  | true =>
    simp only [Bool.not_true, Bool.false_and, Bool.false_eq_true, ↓reduceIte]
    rw [if_neg (by omega)]

/-- The fixed parameters are among the parameters. -/
theorem Func.fixed_le (f : Func) : f.fixed ≤ f.params.length := by
  unfold Func.fixed
  split <;> omega

/-- A valid call has an argument for each fixed parameter. -/
theorem Func.DirectOK.fixed_le_length {env : TypeEnv} {f : Func} {args : List (Option Value)}
    (h : f.DirectOK env args) : f.fixed ≤ args.length := by
  obtain ⟨hcount, -, -⟩ := h
  unfold Func.fixed at hcount ⊢
  split at hcount <;> simp_all

/-- Without a variadic tail every argument of a valid call is a fixed one. -/
theorem Func.DirectOK.drop_fixed {env : TypeEnv} {f : Func} {args : List (Option Value)}
    (h : f.DirectOK env args) (hv : f.variadic = false) : args.drop f.fixed = [] := by
  obtain ⟨hcount, -, -⟩ := h
  simp only [hv, Bool.false_eq_true, ↓reduceIte] at hcount
  exact List.drop_of_length_le (by simp [Func.fixed, hv, hcount])

/-- A direct call's parameter values against those `Call` packs from the
same arguments: they agree but for an empty variadic tail, which a direct
call passes as a nil slice and `Call` as an empty one. -/
theorem Func.directParams_packed (f : Func) {args : List (Option Value)}
    (hlen : f.fixed ≤ args.length) :
    (if f.variadic = true ∧ args.length = f.fixed then
        (f.directParams args).dropLast ++ [.slice f.tailElem []]
      else f.directParams args) =
      (if f.variadic then zeroFill (args.take f.fixed) f.params ++
          [.slice f.tailElem ((args.drop f.fixed).map (·.getD (.zero f.tailElem)))]
        else zeroFill (args.take f.fixed) f.params) := by
  unfold Func.directParams
  cases hv : f.variadic with
  | false => simp
  | true =>
    by_cases hl : args.length = f.fixed
    · -- the empty tail
      have hdrop : args.drop f.fixed = [] := List.drop_of_length_le (by omega)
      simp [hl, hdrop]
    · have hgt : ¬ args.length ≤ f.fixed := by omega
      simp [hl, hgt]

end Go
