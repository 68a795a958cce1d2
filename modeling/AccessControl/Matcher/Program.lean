import AccessControl.Matcher.Expr

namespace AccessControl.Matcher

inductive Instruction
  | push (l : Literal)
  | fetch (name : String)
  | fetchPath (key : String) (path : List String)
  | unary (op : UnaryOp)
  | binary (op : BinaryOp)
  | call (name : String) (arity : Nat)
deriving BEq

def Instruction.text : Instruction → String
  | push l => s!"push {l.value.text}"
  | fetch name => s!"fetch {name}"
  | fetchPath key path => s!"fetch {key}." ++ ".".intercalate path
  | unary op => s!"unary {op.symbol}"
  | binary op => s!"binary {op.symbol}"
  | call name arity => s!"call {name}/{arity}"

mutual

def Expr.code : Expr → List Instruction
  | .literal l => [.push l]
  | .var name => [.fetch name]
  | .attr key path => [.fetchPath key path]
  | .unary op e => e.code ++ [.unary op]
  | .binary op a b => a.code ++ b.code ++ [.binary op]
  | .call name args => Expr.codeAll args ++ [.call name args.length]

def Expr.codeAll : List Expr → List Instruction
  | [] => []
  | e :: es => e.code ++ codeAll es

end

/-- A matcher ready to run. -/
structure Program where
  source : String
  instructions : List Instruction

/-- Programs are the same if their instructions are; sources may be spaced differently. -/
instance : BEq Program where
  beq p q := p.instructions == q.instructions

def Program.compile (limit : Nat) (source : String) : Except SyntaxError Program := do
  let e ← Expr.parse limit source
  return ⟨source, e.code⟩

end AccessControl.Matcher
