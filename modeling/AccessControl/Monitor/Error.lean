import AccessControl.Matcher.Failure
import AccessControl.Model.Error

namespace AccessControl.Monitor

inductive Error
  | model (e : Model.Error)
  | evaluation (e : Matcher.Failure)
  | requestArity (expected found : Nat)
  | policyArity (policy : String) (expected found : Nat)
  | unknownPolicy (symbol : String)
  | unknownRole (symbol : String)
  | invalidEffect (text : String)
  | missingModel
  | unreadableFile
  | malformedRows
deriving DecidableEq

def Error.message : Error → String
  | model e => e.message
  | evaluation e => s!"evaluation failed: {e.message}"
  | requestArity expected found =>
    s!"request has {found} value(s), request definition expects {expected}"
  | policyArity policy expected found =>
    s!"policy '{policy}' has {found} value(s), definition expects {expected}"
  | unknownPolicy symbol => s!"unknown policy definition: {symbol}"
  | unknownRole symbol => s!"unknown role definition: {symbol}"
  | invalidEffect text => s!"invalid policy effect '{text}' (must be allow or deny)"
  | missingModel => "model source not set"
  | unreadableFile => "I/O error"
  | malformedRows => "Serialization error"

end AccessControl.Monitor
