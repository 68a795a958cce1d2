import AccessControl.Builtin.Predicate
import AccessControl.Matcher.Traced

namespace AccessControl.Matcher

structure Signature where
  name : String
  arity : Nat
deriving DecidableEq

/-- By name first. -/
instance : Ord Signature where
  compare s t := (compare s.name t.name).then (compare s.arity t.arity)

instance : Std.LawfulEqOrd Signature where
  compare_self {s} := by
    change (compare s.name s.name).then (compare s.arity s.arity) = .eq
    simp
  eq_of_compare {s t} h := by
    obtain ⟨hname, harity⟩ := Ordering.then_eq_eq.mp h
    obtain ⟨name, arity⟩ := s
    cases Std.LawfulEqOrd.eq_of_compare hname
    cases Std.LawfulEqOrd.eq_of_compare harity
    rfl

def Signature.text (s : Signature) : String :=
  s!"({Text.quote s.name}, {s.arity})"

/-- A function of the application. -/
abbrev HostFunction := List Value → Except Failure Value

/-- Whether names are linked by a role. -/
abbrev Links := List String → Bool

/-- What answers a call. -/
inductive Binding
  | predicate (p : Builtin.Predicate)
  | function (f : HostFunction)
  | role (linked : Links)

/-- The arguments of a role as names, or the first that is none. -/
def roleNames : List Value → Except TypeMismatch (List String)
  | [] => .ok []
  | .string s :: args => do return s :: (← roleNames args)
  | v :: _ => .error (.roleArgument v.type)

/-- Answers a call under the given name. -/
def Binding.apply (name : String) (args : List Value) : Binding → Except Failure Value
  | predicate p => p.apply args
  | function f => f args
  | role linked => match roleNames args with
    | .ok names => .ok (.bool (linked names))
    | .error mismatch => .error (.typeMismatch name mismatch)

abbrev FunctionTable := Table Signature Binding

namespace FunctionTable

def empty : FunctionTable := []

def builtins : FunctionTable :=
  Table.ofList (Builtin.Predicate.all.map fun p =>
    (⟨p.name, Builtin.Predicate.arity⟩, .predicate p))

/-- In ascending order. -/
def signatures (t : FunctionTable) : List Signature :=
  t.map (·.1)

def call (t : FunctionTable) (name : String) (args : List Value) : Traced Failure Value :=
  match t.get? ⟨name, args.length⟩ with
  | some b => .invoke ⟨name, args⟩ (b.apply name args)
  | none => throw (.undefinedFunction name args.length)

def text (t : FunctionTable) : String :=
  let signatures := ", ".intercalate (t.signatures.map Signature.text)
  "FunctionRegistry \x7b functions: [" ++ signatures ++ "] \x7d"

end FunctionTable

end AccessControl.Matcher
