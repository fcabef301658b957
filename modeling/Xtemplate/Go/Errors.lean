import Mathlib.Data.List.Basic

/-!
Go `error` values as the `errors` package sees them.

An error is a tree: its leaves are errors of concrete types (drawn from `κ`),
a unary node is the wrapper `fmt.Errorf` builds for a `%w` verb, and an n-ary
node is the value `errors.Join` returns. A nil error is `none` in
`Option (GoError κ)`. `errors.As` looks for a target type by a depth-first
walk of the tree; here the target type is given by a selector `κ → Option β`
that accepts the leaves of that type and reads them.
-/

namespace Go

/-- A non-nil Go `error` value. -/
inductive GoError (κ : Type) where
  | leaf (k : κ)
  | wrap (msg : List Char) (inner : GoError κ)
  | join (errs : List (GoError κ))
  deriving Repr

variable {κ β : Type}

/-- `errors.Join`: wraps the non-nil errors, and is nil when every argument
is nil. -/
def errorsJoin (errs : List (Option (GoError κ))) : Option (GoError κ) :=
  match errs.filterMap id with
  | [] => none
  | es => some (.join es)

mutual
/-- `errors.As` on a non-nil error: the first leaf, in depth-first order, that
the selector accepts. -/
def GoError.as (sel : κ → Option β) : GoError κ → Option β
  | .leaf k => sel k
  | .wrap _ e => GoError.as sel e
  | .join es => GoError.asFirst sel es

/-- `errors.As` over the errors a join wraps, in order. -/
def GoError.asFirst (sel : κ → Option β) : List (GoError κ) → Option β
  | [] => none
  | e :: es => (GoError.as sel e).or (GoError.asFirst sel es)
end

/-- `errors.As(err, &target)`: never matches a nil error. -/
def errorsAs (sel : κ → Option β) : Option (GoError κ) → Option β
  | none => none
  | some e => e.as sel

@[simp] theorem errorsAs_none (sel : κ → Option β) : errorsAs sel none = none := rfl

@[simp] theorem errorsAs_some (sel : κ → Option β) (e : GoError κ) :
    errorsAs sel (some e) = e.as sel := rfl

@[simp] theorem GoError.as_wrap (sel : κ → Option β) (msg : List Char) (e : GoError κ) :
    (GoError.wrap msg e).as sel = e.as sel := by
  simp [GoError.as]

/-- How a Go call ends when it does not return normally: with a non-nil
error, or with a panic and its message. -/
inductive Abort (ε : Type) where
  | error (e : ε)
  | panic (msg : List Char)

/-! ### `errors.Join` -/

theorem errorsJoin_eq_none_iff {errs : List (Option (GoError κ))} :
    errorsJoin errs = none ↔ ∀ e ∈ errs, e = none := by
  unfold errorsJoin
  split
  · rename_i h
    simpa [List.filterMap_eq_nil_iff] using h
  · rename_i es h
    simp only [reduceCtorEq, false_iff]
    intro hall
    exact h (List.filterMap_eq_nil_iff.mpr fun e he => by simp [hall e he])

/-- Joining a non-nil error with anything is non-nil. -/
theorem errorsJoin_cons_some (e : GoError κ) (rest : List (Option (GoError κ))) :
    errorsJoin (some e :: rest) ≠ none := by
  rw [Ne, errorsJoin_eq_none_iff]
  intro h
  simpa using h (some e) List.mem_cons_self

/-- Joining nil with an error gives nil exactly when that error is nil. -/
theorem errorsJoin_none_eq_none_iff (x : Option (GoError κ)) :
    errorsJoin [none, x] = none ↔ x = none := by
  simp [errorsJoin_eq_none_iff]

/-- `errors.As` sees through a join of two errors, the first one first. -/
theorem errorsAs_join_some (sel : κ → Option β) (e : GoError κ) (x : Option (GoError κ)) :
    errorsAs sel (errorsJoin [some e, x]) = (e.as sel).or (errorsAs sel x) := by
  cases x with
  | none => simp [errorsJoin, GoError.as, GoError.asFirst]
  | some e' => simp [errorsJoin, GoError.as, GoError.asFirst]

/-! ### Loops that stop at the first error -/

/-- A property that every successful step keeps holds after a loop that
returns at its first error: `for _, x := range xs { if err := f(x); err != nil
{ return err } }`, as a fold in `Except`. -/
theorem foldlM_ok_inv {ε α β : Type} (P : α → Prop) {f : α → β → Except ε α}
    (step : ∀ a b a', P a → f a b = .ok a' → P a') :
    ∀ (l : List β) {a a' : α}, P a → l.foldlM f a = .ok a' → P a'
  | [], _, _, ha, h => by
    cases h
    exact ha
  | b :: l, a, _, ha, h => by
    rw [List.foldlM_cons] at h
    cases hf : f a b with
    | error e =>
      rw [hf] at h
      cases h
    | ok a₁ =>
      rw [hf] at h
      exact foldlM_ok_inv P step l (step a b a₁ ha hf) h

/-- A loop that returns at its first error, with an invariant of the state and
the elements handled so far: it holds after the whole list when each
successful step extends it by one element. -/
theorem foldlM_ok_run {ε α β : Type} (P : List β → α → Prop) {f : α → β → Except ε α}
    (step : ∀ pre a b a', P pre a → f a b = .ok a' → P (pre ++ [b]) a') :
    ∀ (l : List β) {pre : List β} {a a' : α}, P pre a → l.foldlM f a = .ok a' → P (pre ++ l) a'
  | [], pre, _, _, ha, h => by
    cases h
    rw [List.append_nil]
    exact ha
  | b :: l, pre, a, _, ha, h => by
    rw [List.foldlM_cons] at h
    cases hf : f a b with
    | error e =>
      rw [hf] at h
      cases h
    | ok a₁ =>
      rw [hf] at h
      have := foldlM_ok_run P step l (step pre a b a₁ ha hf) h
      rwa [List.append_assoc, List.singleton_append] at this

/-- Every value a `mapM` in `Except` returns is one its function returned. -/
theorem mapM_ok_forall {ε α β : Type} (P : β → Prop) {g : α → Except ε β}
    (hg : ∀ a b, g a = .ok b → P b) :
    ∀ {l : List α} {v : List β}, l.mapM g = .ok v → ∀ b ∈ v, P b
  | [], v, h => by
    cases h
    intro b hb
    cases hb
  | a :: l, v, h => by
    rw [List.mapM_cons] at h
    cases ha : g a with
    | error e =>
      rw [ha] at h
      cases h
    | ok b =>
      cases hl : l.mapM g with
      | error e =>
        rw [ha, hl] at h
        cases h
      | ok bs =>
        simp only [ha, hl] at h
        cases h
        intro b' hb'
        rcases List.mem_cons.mp hb' with rfl | hb'
        · exact hg a b' ha
        · exact mapM_ok_forall P hg hl b' hb'

end Go
