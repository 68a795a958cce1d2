import AccessControl.Matcher.Postfix

namespace AccessControl.Matcher

open Text

/-- Attribute access `key.a.b` is one node. -/
inductive Expr
  | literal (l : Literal)
  | var (name : String)
  | attr (key : String) (path : List String)
  | unary (op : UnaryOp) (e : Expr)
  | binary (op : BinaryOp) (left right : Expr)
  | call (name : String) (args : List Expr)

/-- The nesting that is accepted where nothing else is asked for. -/
def defaultDepth : Nat := 256

namespace Expr

/-- An expression with the height of its tree. -/
structure Node where
  expr : Expr
  height : Nat

/-- The expression `owner.attr`, if both sides are of the right form. -/
def access (owner attr : Expr) : Except Reason Expr :=
  match owner, attr with
  | .var key, .var a => .ok (.attr key [a])
  | .attr key path, .var a => .ok (.attr key (path ++ [a]))
  | _, .var _ => .error .attributeOwner
  | _, _ => .error .attributeName

/-- Lets a token take its operands from the stack, of which the last is on top. -/
def node (t : Token) (stack : List Node) : Except SyntaxError (Node × List Node) :=
  let missing (expected : Nat) : SyntaxError :=
    .arityMismatch t.citation t.position expected stack.length
  match t.kind, stack with
  | .literal l, _ => .ok (⟨.literal l, 1⟩, stack)
  | .name name, _ => .ok (⟨.var name, 1⟩, stack)
  | .dot, b :: a :: rest =>
    match access a.expr b.expr with
    | .ok e => .ok (⟨e, 1⟩, rest)
    | .error reason => .error (.unexpectedToken t.citation t.position reason)
  | .dot, _ => .error (missing 2)
  | .unary op, a :: rest => .ok (⟨.unary op a.expr, a.height + 1⟩, rest)
  | .unary _, _ => .error (missing 1)
  | .binary op, b :: a :: rest =>
    .ok (⟨.binary op a.expr b.expr, max a.height b.height + 1⟩, rest)
  | .binary _, _ => .error (missing 2)
  | .call name arity, _ =>
    if stack.length < arity then .error (missing arity)
    else
      let args := (stack.take arity).reverse
      let height := (args.map Node.height).foldl max 0
      .ok (⟨.call name (args.map Node.expr), height + 1⟩, stack.drop arity)

/-- As `node`, with the result on the stack and no higher than `limit`. -/
def push (limit : Nat) (stack : List Node) (t : Token) : Except SyntaxError (List Node) := do
  let (n, rest) ← node t stack
  if limit < n.height then throw (.tooDeep t.citation t.position limit)
  return n :: rest

/-- The expression that the tokens spell, if they spell one of at most the given height. -/
def ofPostfix (limit : Nat) (tokens : List Token) : Except SyntaxError Expr := do
  match ← tokens.foldlM (push limit) [], tokens.getLast? with
  | [n], _ => return n.expr
  | stack, some t => throw (.unexpectedToken t.citation t.position (.leftover stack.length))
  | _, none => throw (.unexpectedToken "" .start .emptyExpression)

/-- The expression that a source spells. -/
def parse (limit : Nat) (source : String) : Except SyntaxError Expr := do
  ofPostfix limit (← Token.ofSource source)

end Expr

end AccessControl.Matcher
