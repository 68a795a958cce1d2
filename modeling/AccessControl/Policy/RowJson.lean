import AccessControl.Json.Printer
import AccessControl.Json.Reader
import AccessControl.Policy.Row

namespace AccessControl.Policy

namespace Effect

/-- The name of an effect, or an object whose one member is null under that name. -/
def ofJson? : Json → Option Effect
  | .string (some s) => ofName? s
  | .object [(some s, .null)] => ofName? s
  | _ => none

end Effect

namespace Row

def stringOfJson? : Json → Option String
  | .string s => s
  | _ => none

def stringsOfJson? : Json → Option (List String)
  | .array items => items.mapM stringOfJson?
  | _ => none

/-- The value of a member that may occur once; the outer `none` says that it occurs again. -/
def member? (name : String) (members : List (Option String × Json)) : Option (Option Json) :=
  match members.filter (·.1 == some name) with
  | [] => some none
  | [(_, j)] => some (some j)
  | _ => none

/-- Members of other names are of no account. -/
def ofMembers? (members : List (Option String × Json)) : Option Row := do
  if members.any (·.1.isNone) then none
  let key ← (← member? "key" members).bind stringOfJson?
  let values ← (← member? "values" members).bind stringsOfJson?
  let effect ← match ← member? "effect" members with
    | none => some .allow
    | some j => Effect.ofJson? j
  return ⟨key, values, effect⟩

def ofJson? : Json → Option Row
  | .object members => ofMembers? members
  | .array [key, values] => do
    return ⟨← stringOfJson? key, ← stringsOfJson? values, .allow⟩
  | .array [key, values, effect] => do
    return ⟨← stringOfJson? key, ← stringsOfJson? values, ← Effect.ofJson? effect⟩
  | _ => none

/-- Reads a text that holds an array of rows. -/
def listOfJson? (text : String) : Option (List Row) := do
  match ← Json.parse? text with
  | .array items => items.mapM ofJson?
  | _ => none

def memberText (name : String) (value : List Char) : List Char :=
  Json.quote name ++ ':' :: ' ' :: value

/-- A row as a part of a list. -/
def json (r : Row) : List Char :=
  Json.enclose '\x7b' '\x7d' 1 [
    memberText "key" (Json.quote r.policy),
    memberText "values" (Json.enclose '[' ']' 2 (r.values.map Json.quote)),
    memberText "effect" (Json.quote r.effect.name)]

def listToJson (rows : List Row) : String :=
  .ofList (Json.enclose '[' ']' 0 (rows.map json))

end Row

end AccessControl.Policy
