import AwkNames.Position
import AwkNames.Text.Quoted

/-!
# Faults

A `Fault` is a cause of failure: a call of a function that is never declared or with more
arguments than it declares, kind inference that does not settle within its pass limit, and the
three ways a function declaration is refused. An `Error` is a fault with the position it is
reported at.

* `Fault.message` is the one-line diagnostic, with names quoted by `Text.quote`;
* `Fault.tip` is the hint shown under it.
-/

namespace AwkNames

/-- A cause of failure. -/
inductive Fault where
  /-- A call of a function that is never declared. -/
  | undefinedFunction (name : String)
  /-- A call with more arguments than the function declares. -/
  | tooManyArguments (name : String) (declared given : Nat)
  /-- Kind inference still made progress after this many passes. -/
  | divergence (limit : Nat)
  /-- A second declaration of a function name. -/
  | alreadyDeclared (name : String)
  /-- A declaration that lists a parameter name twice. -/
  | duplicateParameter (function param : String)
  /-- A declaration inside the body of another function. -/
  | nestedFunction (name : String)
deriving DecidableEq, Repr, Inhabited

namespace Fault

/-- The name of the kind of fault. -/
def label : Fault → String
  | .undefinedFunction _ => "UndefinedFunction"
  | .tooManyArguments .. => "TooManyArguments"
  | .divergence _ => "TypeResolutionDivergence"
  | .alreadyDeclared _ => "FunctionAlreadyDeclared"
  | .duplicateParameter .. => "DuplicateParameter"
  | .nestedFunction _ => "NestedFunction"

/-- The diagnostic. -/
def message : Fault → String
  | .undefinedFunction f => "undefined function " ++ Text.quote f
  | .tooManyArguments f declared given =>
    Text.quote f ++ " called with more arguments than declared: expected " ++
      toString declared ++ ", received " ++ toString given
  | .divergence limit =>
    "too many iterations trying to resolve variable types (" ++ toString limit ++ ")"
  | .alreadyDeclared f => "function " ++ Text.quote f ++ " already declared"
  | .duplicateParameter f p =>
    "duplicate parameter name " ++ Text.quote p ++ " in function " ++ Text.quote f
  | .nestedFunction f => "function " ++ Text.quote f ++ " declared inside another function"

/-- The hint shown under the diagnostic; empty when there is none. -/
def tip : Fault → String
  | .undefinedFunction f => "Function `" ++ f ++ "` is never defined"
  | .tooManyArguments f declared given =>
    "`" ++ f ++ "` takes at most " ++ toString declared ++ " arguments, received " ++
      toString given
  | .divergence _ => ""
  | .alreadyDeclared f => "Function `" ++ f ++ "` already declared"
  | .duplicateParameter _ p => "Parameter `" ++ p ++ "` appears more than once"
  | .nestedFunction _ => "Functions can only be declared at the top level"

end Fault

/-- A fault with the position it is reported at. -/
structure Error where
  /-- The cause. -/
  fault : Fault
  /-- Where it is reported; `Position.null` for a fault of the whole program. -/
  position : Position
deriving DecidableEq, Repr, Inhabited

end AwkNames
