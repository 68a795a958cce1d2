import AccessControl.Matcher.Lexeme
import AccessControl.Matcher.Token

namespace AccessControl.Matcher

open Text

/-- What opens a group; a call counts the commas that its group has had. -/
inductive Opener
  | paren (position : Position)
  | call (name : String) (position : Position) (commas : Nat)

/-- An open group and the operators that wait outside it. -/
structure Group where
  opener : Opener
  waiting : List Token

/-- What may come next. Right behind an opening parenthesis the group may also end. -/
inductive Awaiting
  | operand
  | operandOrClose
  | operator
deriving DecidableEq

/-- `emitted` has the latest token first, `waiting` the innermost operator and `groups` the
innermost group. -/
structure Postfix where
  emitted : List Token
  waiting : List Token
  groups : List Group
  awaiting : Awaiting

namespace Postfix

def start : Postfix := ⟨[], [], [], .operand⟩

def operand (s : Postfix) (t : Token) : Except SyntaxError Postfix :=
  match s.awaiting with
  | .operator => .error (.unexpectedToken t.citation t.position .expectedOperator)
  | _ => .ok { s with emitted := t :: s.emitted, awaiting := .operator }

def unary (s : Postfix) (t : Token) : Postfix :=
  { s with waiting := t :: s.waiting, awaiting := .operand }

/-- The waiting operators that bind at least as tight go first: operators associate to the left. -/
def binary (s : Postfix) (t : Token) : Except SyntaxError Postfix :=
  match s.awaiting with
  | .operator =>
    let yields (u : Token) : Bool := t.kind.precedence ≤ u.kind.precedence
    .ok {
      s with
      emitted := (s.waiting.takeWhile yields).reverse ++ s.emitted
      waiting := t :: s.waiting.dropWhile yields
      awaiting := .operand }
  | _ => .error (.unexpectedToken t.citation t.position .expectedOperand)

/-- `text` is what an error cites. -/
def openGroup (s : Postfix) (opener : Opener) (text : String) (p : Position) :
    Except SyntaxError Postfix :=
  match s.awaiting with
  | .operator => .error (.unexpectedToken text p .expectedOperator)
  | _ => .ok ⟨s.emitted, [], ⟨opener, s.waiting⟩ :: s.groups, .operandOrClose⟩

def closeGroup (s : Postfix) (p : Position) : Except SyntaxError Postfix :=
  let isEmpty := s.awaiting = .operandOrClose
  let emitted := s.waiting.reverse ++ s.emitted
  if s.awaiting = .operand then .error (.unexpectedToken ")" p .expectedOperand)
  else match s.groups with
    | [] => .error (.unexpectedToken ")" p .unmatchedParenthesis)
    | ⟨.paren _, waiting⟩ :: groups =>
      if isEmpty then .error (.unexpectedToken ")" p .emptyParentheses)
      else .ok ⟨emitted, waiting, groups, .operator⟩
    | ⟨.call name q commas, waiting⟩ :: groups =>
      let arity := if isEmpty then 0 else commas + 1
      .ok ⟨⟨.call name arity, name, q⟩ :: emitted, waiting, groups, .operator⟩

def comma (s : Postfix) (p : Position) : Except SyntaxError Postfix :=
  if s.awaiting != .operator then .error (.unexpectedToken "," p .expectedArgument)
  else match s.groups with
    | ⟨.call name q commas, waiting⟩ :: groups =>
      let emitted := s.waiting.reverse ++ s.emitted
      .ok ⟨emitted, [], ⟨.call name q (commas + 1), waiting⟩ :: groups, .operand⟩
    | _ => .error (.unexpectedToken "," p .commaOutsideCall)

def step (s : Postfix) (x : Lexeme) : Except SyntaxError Postfix :=
  let token (kind : Token.Kind) : Token := ⟨kind, x.text, x.position⟩
  match x.kind with
  | .literal l => s.operand (token (.literal l))
  | .name name => s.operand (token (.name name))
  | .callHead name => s.openGroup (.call name x.position 0) (name ++ "(") x.position
  | .openParen => s.openGroup (.paren x.position) "(" x.position
  | .closeParen => s.closeGroup x.position
  | .comma => s.comma x.position
  | .dot => s.binary (token .dot)
  | .operator op => s.binary (token (.binary op))
  | .sign op =>
    if s.awaiting != .operator then .ok (s.unary (token (.unary op)))
    else match op.binary? with
      | some op => s.binary (token (.binary op))
      | none => .error (.unexpectedToken x.text x.position .unexpectedCharacter)

/-- An operator without its operand is left to the reader of the tokens. -/
def finish (s : Postfix) : Except SyntaxError (List Token) :=
  match s.groups with
  | [] => .ok (s.waiting.reverse ++ s.emitted).reverse
  | ⟨.paren p, _⟩ :: _ => .error (.unexpectedToken "(" p .unclosedParenthesis)
  | ⟨.call name p _, _⟩ :: _ => .error (.unexpectedToken (name ++ "(") p .unclosedCall)

end Postfix

/-- The tokens of a source in postfix order. Of several faults the first in the source is reported,
and what is left open at its end comes last. -/
def Token.ofSource (source : String) : Except SyntaxError (List Token) := do
  let (lexemes, fault) := Lexeme.scan .start source.toList
  let s ← lexemes.foldlM Postfix.step .start
  match fault with
  | some e => throw e
  | none => s.finish

end AccessControl.Matcher
