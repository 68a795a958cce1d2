import AccessControl.Decimal.Printer
import AccessControl.Table
import AccessControl.Text.Quoted

namespace AccessControl.Matcher

/-- The fields of a map stand in ascending order of their names. -/
inductive Value
  | number (x : Float)
  | string (s : String)
  | bool (b : Bool)
  | map (fields : List (String × Value))

/-- The values that can be written in a matcher. -/
inductive Literal
  | number (x : Float)
  | string (s : String)
deriving BEq

def Literal.value : Literal → Value
  | number x => .number x
  | string s => .string s

inductive ValueType
  | number
  | string
  | bool
  | map
deriving DecidableEq

def ValueType.name : ValueType → String
  | number => "number"
  | string => "string"
  | bool => "boolean"
  | map => "map"

namespace Value

def type : Value → ValueType
  | number _ => .number
  | string _ => .string
  | bool _ => .bool
  | map _ => .map

/-- A map of the given fields; of two with one name the later counts. -/
def record (fields : List (String × Value)) : Value :=
  map (Table.ofList fields)

def string? : Value → Option String
  | string s => some s
  | _ => none

def field? : Value → String → Option Value
  | map fields, name => fields.lookup name
  | _, _ => none

mutual

/-- Strings are quoted, the names of fields are not. -/
def text : Value → String
  | number x => Decimal.print x
  | string s => Text.quote s
  | bool b => if b then "true" else "false"
  | map fields => "\x7b" ++ ", ".intercalate (fieldTexts fields) ++ "\x7d"

def fieldTexts : List (String × Value) → List String
  | [] => []
  | (name, v) :: fields => (name ++ ": " ++ text v) :: fieldTexts fields

end

end Value

end AccessControl.Matcher
