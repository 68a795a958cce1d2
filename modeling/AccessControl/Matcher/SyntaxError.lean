import AccessControl.Text.Position

namespace AccessControl.Matcher

open Text

inductive Reason
  | expectedOperator
  | expectedOperand
  | expectedArgument
  | invalidNumber
  | unterminatedString
  | assignment
  | unexpectedCharacter
  | emptyParentheses
  | unmatchedParenthesis
  | commaOutsideCall
  | unclosedParenthesis
  | unclosedCall
  | attributeName
  | attributeOwner
  | emptyExpression
  | leftover (count : Nat)
deriving DecidableEq

def Reason.text : Reason → String
  | expectedOperator => "expected an operator"
  | expectedOperand => "expected an operand"
  | expectedArgument => "expected an argument"
  | invalidNumber => "invalid numeric literal"
  | unterminatedString => "unterminated string literal"
  | assignment => "assignment is not supported, use '=='"
  | unexpectedCharacter => "unexpected character"
  | emptyParentheses => "empty parentheses"
  | unmatchedParenthesis => "unmatched closing parenthesis"
  | commaOutsideCall => "argument separator outside of a function call"
  | unclosedParenthesis => "unclosed parenthesis"
  | unclosedCall => "unclosed function call"
  | attributeName => "attribute name must be an identifier"
  | attributeOwner => "only identifiers support attribute access"
  | emptyExpression => "empty expression"
  | leftover count => s!"expression does not reduce to a single value ({count} left)"

/-- Every error names the token at fault and its place. -/
inductive SyntaxError
  | unexpectedToken (token : String) (position : Position) (reason : Reason)
  | arityMismatch (token : String) (position : Position) (expected found : Nat)
  | tooDeep (token : String) (position : Position) (limit : Nat)
deriving DecidableEq

namespace SyntaxError

def token : SyntaxError → String
  | unexpectedToken token .. | arityMismatch token .. | tooDeep token .. => token

def position : SyntaxError → Position
  | unexpectedToken _ p _ | arityMismatch _ p .. | tooDeep _ p _ => p

def message : SyntaxError → String
  | unexpectedToken token p reason => s!"unexpected '{token}' at {p}: {reason.text}"
  | arityMismatch token p expected found =>
    s!"'{token}' at {p} expects {expected} operand(s), found {found}"
  | tooDeep token p limit => s!"expression nested deeper than {limit} levels at '{token}' ({p})"

end SyntaxError

end AccessControl.Matcher
