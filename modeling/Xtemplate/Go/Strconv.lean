import Xtemplate.Go.Strings
import Xtemplate.Go.Float64

/-!
`strconv.ParseInt` in base 10 and `strconv.ParseFloat` for a `float64`
(`atoi.go`, `atof.go`).

`ParseFloat` accepts, in any case, `inf` or `infinity` after an optional
sign and `nan` without one; or a decimal or hexadecimal literal in Go's
syntax: an optional sign, the prefix `0x` for hexadecimal, digits with at
most one point and at least one digit, `_` only between digits or after the
prefix, and an exponent `e` (decimal) or `p` (hexadecimal, where it is
required) with an optional sign and a digit first. The exponent stops
growing at 10000, as in `readFloat` and `decimal.set`. Its value is the
literal's exact value rounded to the nearest double, ties to even, as the
fast paths and the exact fallback of `atof64` and `atofHex` all return it;
a rounding to an infinity comes with `ErrRange`. Any other text is
`ErrSyntax`, with the value 0.
-/

namespace Go

/-- The number a run of decimal digits denotes. -/
def digitsValue (ds : List Char) : Nat :=
  ds.foldl (fun n c => 10 * n + (c.toNat - '0'.toNat)) 0

/-- A run of decimal digits, possibly empty. -/
def allDigits (ds : List Char) : Bool := ds.all Char.isDigit

/-- `strconv.ParseInt(s, 10, 64)`: an optional sign and at least one decimal
digit (base 10 admits no underscores), with the value in the range of an
`int64`; `none` for the syntax and the range error. -/
def parseInt (s : List Char) : Option Int :=
  let (neg, ds) : Bool × List Char :=
    match s with
    | '+' :: ds => (false, ds)
    | '-' :: ds => (true, ds)
    | ds => (false, ds)
  if ds ≠ [] ∧ allDigits ds then
    let v : Int := if neg then -(digitsValue ds : Int) else digitsValue ds
    if -9223372036854775808 ≤ v ∧ v ≤ 9223372036854775807 then some v else none
  else none

example : parseInt "-12".toList = some (-12) := by decide
example : parseInt "9223372036854775808".toList = none := by decide

/-! ### `strconv.ParseFloat` -/

/-- The errors of `strconv`: `ErrSyntax` and `ErrRange`. -/
inductive NumError where
  | errSyntax
  | errRange
  deriving DecidableEq, Repr

/-- `special`: the text is `inf` or `infinity` after an optional sign, or
`nan`, in any case. A text that only starts with one of them is a syntax
error, as `ParseFloat` rejects what `special` leaves over. -/
def special (s : List Char) : Option F64 :=
  match s.map Char.toLower with
  | '+' :: rest => if rest = "inf".toList ∨ rest = "infinity".toList then some (.inf false) else none
  | '-' :: rest => if rest = "inf".toList ∨ rest = "infinity".toList then some (.inf true) else none
  | rest =>
    if rest = "inf".toList ∨ rest = "infinity".toList then some (.inf false)
    else if rest = "nan".toList then some .nan
    else none

/-- The value of a mantissa digit, in base 16 when `hex`. -/
def digitVal (hex : Bool) (c : Char) : Option Nat :=
  if c.isDigit then some (c.toNat - '0'.toNat)
  else if hex && 'a' ≤ c.toLower && c.toLower ≤ 'f' then some (c.toLower.toNat - 'a'.toNat + 10)
  else none

/-- The mantissa loop of `readFloat`: digits, `_` and at most one `.`, up to
any other character or a second `.`. It gives the digits' value, how many
stand after the point, whether there was a digit, and the rest of the text. -/
def readMantissa (hex sawdot : Bool) (value frac : Nat) (sawdigits : Bool) :
    List Char → Nat × Nat × Bool × List Char
  | [] => (value, frac, sawdigits, [])
  | c :: cs =>
    if c = '_' then readMantissa hex sawdot value frac sawdigits cs
    else if c = '.' then
      if sawdot then (value, frac, sawdigits, c :: cs)
      else readMantissa hex true value frac sawdigits cs
    else
      match digitVal hex c with
      | some d =>
        readMantissa hex sawdot ((if hex then 16 else 10) * value + d)
          (if sawdot then frac + 1 else frac) true cs
      | none => (value, frac, sawdigits, c :: cs)

/-- The digits of an exponent, `_` skipped; its value stops growing once it
reaches 10000 (`if e < 10000`), which moves the point far enough. -/
def readExpDigits (e : Nat) : List Char → Nat × List Char
  | [] => (e, [])
  | c :: cs =>
    if c.isDigit then readExpDigits (if e < 10000 then 10 * e + (c.toNat - '0'.toNat) else e) cs
    else if c = '_' then readExpDigits e cs
    else (e, c :: cs)

/-- An exponent after its letter: an optional sign, and a digit first. -/
def readExponent (s : List Char) : Option (Int × List Char) :=
  let (neg, s) : Bool × List Char :=
    match s with
    | '+' :: s => (false, s)
    | '-' :: s => (true, s)
    | s => (false, s)
  match s with
  | c :: _ =>
    if c.isDigit then
      let (e, rest) := readExpDigits 0 s
      some (if neg then -(e : Int) else e, rest)
    else none
  | [] => none

/-- What `underscoreOK` saw last: the start, a digit or a base prefix, an
underscore, or anything else. -/
inductive Saw where
  | start
  | digit
  | underscore
  | other
  deriving DecidableEq

/-- The loop of `underscoreOK` over the number proper. -/
def underscoreLoop (hex : Bool) : Saw → List Char → Bool
  | saw, [] => saw != .underscore
  | saw, c :: cs =>
    if c.isDigit || (hex && 'a' ≤ c.toLower && c.toLower ≤ 'f') then underscoreLoop hex .digit cs
    -- an underscore must follow a digit, and be followed by one
    else if c = '_' then saw == .digit && underscoreLoop hex .underscore cs
    else saw != .underscore && underscoreLoop hex .other cs

/-- `underscoreOK`: every `_` stands between digits, or between a base prefix
and a digit. -/
def underscoreOK (s : List Char) : Bool :=
  let s := match s with
    | '+' :: s | '-' :: s => s
    | s => s
  match s with
  | '0' :: b :: rest =>
    if b.toLower == 'b' || b.toLower == 'o' || b.toLower == 'x' then
      underscoreLoop (b.toLower == 'x') .digit rest
    else underscoreLoop false .start s
  | s => underscoreLoop false .start s

/-- `readFloat` read to the end of the text: its sign and the exact value of
the decimal or hexadecimal literal, or `none` for a syntax error. -/
def readFloat (s : List Char) : Option (Bool × ℚ) :=
  let (neg, body) : Bool × List Char :=
    match s with
    | '+' :: s => (false, s)
    | '-' :: s => (true, s)
    | s => (false, s)
  -- the prefix `0x` counts only with a character after it
  let (hex, digits) : Bool × List Char :=
    match body with
    | '0' :: x :: c :: rest => if x.toLower = 'x' then (true, c :: rest) else (false, body)
    | _ => (false, body)
  let (value, frac, sawdigits, rest) := readMantissa hex false 0 0 false digits
  let exact (e : Int) : ℚ :=
    if hex then value * 2 ^ (e - 4 * frac) else value * 10 ^ (e - frac)
  if sawdigits = false ∨ ('_' ∈ s ∧ underscoreOK s = false) then none
  else
    match rest with
    -- a hexadecimal mantissa must have an exponent
    | [] => if hex then none else some (neg, exact 0)
    | c :: cs =>
      if c.toLower = (if hex then 'p' else 'e') then
        match readExponent cs with
        | some (e, []) => some (neg, exact e)
        | _ => none
      else none

/-- `strconv.ParseFloat(s, 64)`: the double and the error. A literal is
rounded to the nearest double; one that rounds to an infinity returns it with
`ErrRange`, and a syntax error returns 0. -/
def parseFloat (s : List Char) : F64 × Option NumError :=
  match special s with
  | some f => (f, none)
  | none =>
    match readFloat s with
    | none => (.zero, some .errSyntax)
    | some (neg, x) =>
      let f := F64.round (if neg then -x else x)
      if f.isInf then (f, some .errRange) else (f, none)

example : parseFloat "0.1".toList = (F64.tenth, none) := by decide +kernel
example : parseFloat "1e400".toList = (.inf false, some .errRange) := by decide +kernel
example : parseFloat "0x1.8p1".toList = (F64.round 3, none) := by decide +kernel
example : parseFloat "-Infinity".toList = (.inf true, none) := by decide +kernel
example : parseFloat "1_000".toList = (F64.round 1000, none) := by decide +kernel
example : parseFloat "+nan".toList = (.zero, some .errSyntax) := by decide +kernel

end Go
