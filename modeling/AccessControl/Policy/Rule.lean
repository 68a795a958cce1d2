import AccessControl.Policy.Effect
import AccessControl.Text.Blank
import AccessControl.Text.Symbol

namespace AccessControl.Policy

open Text

/-- `allowOverride` grants what some row allows, `denyOverride` what no row denies. -/
inductive Rule
  | allowOverride
  | denyOverride
deriving DecidableEq

namespace Rule

def combine (effects : List Effect) : Rule → Bool
  | allowOverride => effects.contains .allow
  | denyOverride => !effects.contains .deny

/-- What a clause of the rule has before the name of the policy. -/
def opening : Rule → String
  | allowOverride => "some(where("
  | denyOverride => "!some(where("

/-- What a clause of the rule has behind the name of the policy. -/
def closing : Rule → String
  | allowOverride => ".eft==allow))"
  | denyOverride => ".eft==deny))"

end Rule

/-- A rule for the rows of one policy. -/
structure Clause where
  rule : Rule
  policy : String
deriving DecidableEq

namespace Clause

def text (c : Clause) : String :=
  c.rule.opening ++ c.policy ++ c.rule.closing

/-- What lies between `front` and `back`, if a text starts with the one and ends with the other. -/
def between? (front back cs : List Char) : Option (List Char) :=
  let rest := cs.drop front.length
  if front.isPrefixOf cs && back.isSuffixOf rest then some (rest.take (rest.length - back.length))
  else none

/-- A clause of the given rule that is written without blanks. -/
def ofCompact? (rule : Rule) (cs : List Char) : Option Clause := do
  let policy ← between? rule.opening.toList rule.closing.toList cs
  if isSymbol policy then return ⟨rule, .ofList policy⟩ else none

/-- Blanks may stand anywhere. -/
def parse? (s : String) : Option Clause :=
  let cs := s.toList.filter fun c => !isBlank c
  ofCompact? .denyOverride cs <|> ofCompact? .allowOverride cs

end Clause

end AccessControl.Policy
