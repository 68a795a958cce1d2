import AccessControl.Builtin.Glob
import AccessControl.Builtin.KeyMatch
import AccessControl.Matcher.Failure
import AccessControl.Regex.Reader
import AccessControl.Regex.Search

namespace AccessControl.Builtin

open Matcher

inductive Predicate
  | regexMatch
  | keyMatch
  | globMatch
deriving DecidableEq

namespace Predicate

def all : List Predicate := [regexMatch, keyMatch, globMatch]

def name : Predicate → String
  | regexMatch => "regex_match?"
  | keyMatch => "key_match?"
  | globMatch => "glob_match?"

/-- Each takes a value and a pattern. -/
def arity : Nat := 2

/-- Only the regular expressions can be malformed. -/
def holds (value pattern : String) : Predicate → Except Failure Bool
  | regexMatch => match Regex.Pattern.parse? pattern with
    | some p => .ok (p.occursIn value)
    | none => .error (.invalidPattern regexMatch.name)
  | keyMatch => .ok (Builtin.keyMatch value.toList pattern.toList)
  | globMatch => .ok (Glob.accepts pattern.toList value.toList)

def apply (p : Predicate) (args : List Value) : Except Failure Value :=
  match args with
  | [.string value, .string pattern] => (p.holds value pattern).map .bool
  | _ => .error (.typeMismatch p.name (.arguments (args.map Value.type)))

end Predicate

end AccessControl.Builtin
