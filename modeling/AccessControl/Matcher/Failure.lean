import AccessControl.Matcher.Value

namespace AccessControl.Matcher

/-- What an operation was given instead of operands of its own types. -/
inductive TypeMismatch
  | operand (t : ValueType)
  | operands (left right : ValueType)
  | arguments (types : List ValueType)
  | roleArgument (t : ValueType)
  | outcome (t : ValueType)
deriving DecidableEq

def TypeMismatch.text : TypeMismatch → String
  | operand t => s!"cannot apply to {t.name}"
  | operands left right => s!"cannot apply to {left.name} and {right.name}"
  | arguments types =>
    "expected (string, string), got (" ++ ", ".intercalate (types.map ValueType.name) ++ ")"
  | roleArgument t => s!"role arguments must be strings, got {t.name}"
  | outcome t => s!"matcher produced a {t.name}, expected a boolean"

/-- A type mismatch cites the operator, the function or the whole matcher in which it occurs. -/
inductive Failure
  | undefinedVariable (name : String)
  | undefinedAttribute (path attr : String)
  | undefinedFunction (name : String) (arity : Nat)
  | typeMismatch (op : String) (mismatch : TypeMismatch)
  | divisionByZero
  | invalidPattern (function : String)
  | functionFailed (name reason : String)
  | stackUnderflow (instruction : Nat)
deriving DecidableEq

def Failure.message : Failure → String
  | undefinedVariable name => s!"undefined variable '{name}'"
  | undefinedAttribute path attr => s!"undefined attribute '{attr}' on '{path}'"
  | undefinedFunction name arity => s!"undefined function {name}/{arity}"
  | typeMismatch op mismatch => s!"type error in '{op}': {mismatch.text}"
  | divisionByZero => "arithmetic error in '/': division by zero"
  | invalidPattern function => s!"function {function} failed"
  | functionFailed name reason => s!"function {name} failed: {reason}"
  | stackUnderflow instruction => s!"operand stack underflow at instruction {instruction}"

end AccessControl.Matcher
