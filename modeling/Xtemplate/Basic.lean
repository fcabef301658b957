import Xtemplate.Go.Errors

/-!
The error values of the `xtemplate` package.

Two concrete error types carry meaning: `ReturnError` (`dot_instance.go`), the
sentinel a template returns to stop early with success, and `ErrorStatus`
(`dot_resp.go`), an HTTP status code returned as an error. Every other error,
from `fmt.Errorf`, `errors.New`, a driver or a third-party decoder, is told
apart only by its text.
-/

namespace Xtemplate

open Go

/-- The concrete types at the leaves of an error tree. -/
inductive ErrorKind where
  /-- `ReturnError{}`, whose text is `returned`. -/
  | returnError
  /-- `ErrorStatus(code)`. -/
  | errorStatus (code : Int)
  /-- Any other error, by its text. -/
  | other (text : List Char)
  deriving DecidableEq, Repr

/-- A non-nil error of the package. -/
abbrev Err := GoError ErrorKind

/-- `fmt.Errorf` without a `%w` verb, or `errors.New`: an error with only a
text. -/
def errorf (text : String) : Err := .leaf (.other text.toList)

/-- The selector `errors.As(err, &ReturnError{})` uses. -/
def ErrorKind.asReturnError : ErrorKind → Option Unit
  | .returnError => some ()
  | _ => none

/-- The selector `errors.As(err, &errSt)` uses, for `errSt ErrorStatus`. -/
def ErrorKind.asErrorStatus : ErrorKind → Option Int
  | .errorStatus code => some code
  | _ => none

/-- `errors.As(err, &ReturnError{})`. -/
def isReturnError (err : Option Err) : Bool :=
  (errorsAs ErrorKind.asReturnError err).isSome

@[simp] theorem isReturnError_none : isReturnError none = false := rfl

end Xtemplate
