import AccessControl.Model.Reader
import AccessControl.Monitor.Basic
import AccessControl.Monitor.File

namespace AccessControl.Monitor

open Matcher

/-- Without `recent`, the number of decisions to remember, none are. -/
structure Setup where
  modelText : Option String
  modelFile : Option File
  maxDepth : Nat
  recent : Option Nat
  builtins : Bool
  functions : List (Signature × HostFunction)
  resolvers : List (String × Links)

namespace Setup

/-- A model given as text goes before one in a file. -/
def modelSource (s : Setup) : Except Error String :=
  match s.modelText, s.modelFile with
  | some text, _ => .ok text
  | none, some file => file.read
  | none, none => .error .missingModel

/-- Later bindings replace earlier ones of the same name and number of arguments. -/
def bindFunctions (s : Setup) : FunctionTable :=
  s.functions.foldl (fun t (signature, f) => t.insert signature (.function f))
    (if s.builtins then .builtins else .empty)

/-- Resolvers answer for roles of the model only. -/
def bindResolvers (m : Model) (t : FunctionTable) :
    List (String × Links) → Except Error FunctionTable
  | [] => .ok t
  | (symbol, linked) :: rest => match m.role? symbol with
    | some role => bindResolvers m (t.insert ⟨symbol, role.arity⟩ (.role linked)) rest
    | none => .error (.unknownRole symbol)

def build (s : Setup) : Except Error Monitor := do
  let text ← s.modelSource
  let model ← (Model.ofText text).mapError .model
  let program ← (model.program s.maxDepth).mapError .model
  let functions ← bindResolvers model s.bindFunctions s.resolvers
  return ⟨model, program, functions, [], s.recent.map .empty⟩

end Setup

end AccessControl.Monitor
