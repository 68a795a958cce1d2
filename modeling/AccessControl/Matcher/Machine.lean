import AccessControl.Matcher.Operation
import AccessControl.Matcher.Program
import AccessControl.Matcher.Scope

namespace AccessControl.Matcher

/-- Runs one instruction, the `pc`th, on a stack whose top comes first. -/
def Instruction.step (s : Scope) (pc : Nat) (stack : List Value) :
    Instruction → Traced Failure (List Value)
  | push l => pure (l.value :: stack)
  | fetch name => do
    let v ← Traced.ofExcept (s.fetch name)
    return v :: stack
  | fetchPath name path => do
    let v ← Traced.ofExcept (s.fetchPath name path)
    return v :: stack
  | unary op => match stack with
    | a :: rest => do
      let v ← Traced.ofExcept (op.apply a)
      return v :: rest
    | _ => throw (.stackUnderflow pc)
  | binary op => match stack with
    | b :: a :: rest => do
      let v ← Traced.ofExcept (op.apply a b)
      return v :: rest
    | _ => throw (.stackUnderflow pc)
  | call name arity =>
    if stack.length < arity then throw (.stackUnderflow pc)
    else do
      let v ← s.functions.call name (stack.take arity).reverse
      return v :: stack.drop arity

/-- Runs instructions of which the first is the `pc`th. -/
def run (s : Scope) (pc : Nat) (stack : List Value) :
    List Instruction → Traced Failure (List Value)
  | [] => pure stack
  | i :: is => do run s (pc + 1) (← i.step s pc stack) is

namespace Program

/-- The one value that is left on the stack. -/
def eval (p : Program) (s : Scope) : Traced Failure Value := do
  match ← run s 0 [] p.instructions with
  | [v] => return v
  | _ => throw (.stackUnderflow p.instructions.length)

/-- Only a truth value decides anything. -/
def holds (p : Program) (s : Scope) : Traced Failure Bool := do
  match ← p.eval s with
  | .bool b => return b
  | v => throw (.typeMismatch p.source (.outcome v.type))

end Program

end AccessControl.Matcher
