import AccessControl.Matcher.FunctionTable

namespace AccessControl.Matcher

structure Scope where
  values : Table String Value
  functions : FunctionTable

namespace Scope

def ofFunctions (functions : FunctionTable) : Scope :=
  ⟨[], functions⟩

def get? (s : Scope) (name : String) : Option Value :=
  s.values.get? name

def bind (s : Scope) (name : String) (v : Value) : Scope :=
  { s with values := s.values.insert name v }

/-- Binds a map that gives each attribute its value; what is longer of the two lists is cut off. -/
def bindTuple (s : Scope) (name : String) (attrs values : List String) : Scope :=
  s.bind name (.record (attrs.zip (values.map .string)))

def fetch (s : Scope) (name : String) : Except Failure Value :=
  match s.get? name with
  | some v => .ok v
  | none => .error (.undefinedVariable name)

/-- Follows a path of attributes from a value; `walked` is the way so far. -/
def follow (walked : String) (v : Value) : List String → Except Failure Value
  | [] => .ok v
  | attr :: path => match v.field? attr with
    | some w => follow (walked ++ "." ++ attr) w path
    | none => .error (.undefinedAttribute walked attr)

def fetchPath (s : Scope) (name : String) (path : List String) : Except Failure Value := do
  follow name (← s.fetch name) path

end Scope

end AccessControl.Matcher
