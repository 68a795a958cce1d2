import AccessControl.Config.Fault
import AccessControl.Matcher.SyntaxError

namespace AccessControl.Model

/-- What is wrong with an entry of a section. -/
inductive Fault
  | entryCount (count : Nat)
  | notIdentifier
  | alreadyDeclared
  | invalidAttribute (attr : String)
  | duplicateAttribute (attr : String)
  | notPlaceholders
  | tooFewPlaceholders
  | undeclaredPolicy (symbol : String)
deriving DecidableEq

def Fault.reason : Fault → String
  | entryCount count => s!"expected exactly one entry, found {count}"
  | notIdentifier => "symbol must be an identifier"
  | alreadyDeclared => "symbol already declared"
  | invalidAttribute attr => s!"invalid attribute '{attr}'"
  | duplicateAttribute attr => s!"duplicate attribute '{attr}'"
  | notPlaceholders => "role definitions list '_' placeholders"
  | tooFewPlaceholders => "role definitions take at least two placeholders"
  | undeclaredPolicy symbol => s!"'{symbol}' is not a declared policy definition"

inductive Error
  | config (e : Config.SyntaxError)
  | missingSection (name : String)
  | invalidEntry (name key : String) (fault : Fault)
  | unsupportedEffect (text : String)
  | matcher (e : Matcher.SyntaxError)
deriving DecidableEq

def Error.message : Error → String
  | config e => e.message
  | missingSection name => s!"missing section [{name}]"
  | invalidEntry name key fault => s!"invalid [{name}] entry '{key}': {fault.reason}"
  | unsupportedEffect text => s!"unsupported policy effect: {text}"
  | matcher e => s!"invalid matcher: {e.message}"

end AccessControl.Model
