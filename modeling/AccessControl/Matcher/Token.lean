import AccessControl.Matcher.Operator
import AccessControl.Matcher.Value
import AccessControl.Text.Position

namespace AccessControl.Matcher

open Text

inductive Token.Kind
  | literal (l : Literal)
  | name (name : String)
  | dot
  | unary (op : UnaryOp)
  | binary (op : BinaryOp)
  | call (name : String) (arity : Nat)
deriving BEq

structure Token where
  kind : Token.Kind
  text : String
  position : Position

/-- The token as errors cite it. -/
def Token.citation (t : Token) : String :=
  match t.kind with
  | .call name _ => name ++ "(...)"
  | _ => t.text

def Token.Kind.precedence : Token.Kind → Nat
  | binary op => op.precedence
  | unary _ => unaryPrecedence
  | dot => dotPrecedence
  | _ => 0

end AccessControl.Matcher
