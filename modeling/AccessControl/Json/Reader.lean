import AccessControl.Json.Token

namespace AccessControl.Json

/-- An array or object under construction, the latest part first; an object waits for the value of
the member `name`. -/
inductive Container
  | array (items : List Json)
  | object (members : List (Option String × Json)) (name : Option String)

/-- What may come next. -/
inductive Awaiting
  | value
  | valueOrClose
  | name
  | nameOrClose
  | colon
  | commaOrClose
  | nothing

/-- The innermost container comes first. The value is complete when nothing is awaited. -/
structure Reader where
  awaiting : Awaiting
  containers : List Container
  value : Json

namespace Reader

def start : Reader := ⟨.value, [], .null⟩

/-- Puts a complete value where it belongs. -/
def place (j : Json) : List Container → Reader
  | [] => ⟨.nothing, [], j⟩
  | .array items :: outer => ⟨.commaOrClose, .array (j :: items) :: outer, .null⟩
  | .object members name :: outer =>
    ⟨.commaOrClose, .object ((name, j) :: members) none :: outer, .null⟩

def openContainer (r : Reader) : Token → Option Reader
  | .openArray => some ⟨.valueOrClose, .array [] :: r.containers, .null⟩
  | .openObject => some ⟨.nameOrClose, .object [] none :: r.containers, .null⟩
  | .scalar j => some (place j r.containers)
  | _ => none

def closeContainer (r : Reader) (t : Token) : Option Reader :=
  match t, r.containers with
  | .closeArray, .array items :: outer => some (place (.array items.reverse) outer)
  | .closeObject, .object members _ :: outer => some (place (.object members.reverse) outer)
  | _, _ => none

def name (r : Reader) (t : Token) : Option Reader :=
  match t, r.containers with
  | .scalar (.string s), .object members _ :: outer =>
    some ⟨.colon, .object members s :: outer, .null⟩
  | _, _ => none

def step? (r : Reader) (t : Token) : Option Reader :=
  match r.awaiting with
  | .value => r.openContainer t
  | .valueOrClose => r.closeContainer t <|> r.openContainer t
  | .name => r.name t
  | .nameOrClose => r.closeContainer t <|> r.name t
  | .colon => match t with
    | .colon => some { r with awaiting := .value }
    | _ => none
  | .commaOrClose => match t, r.containers with
    | .comma, .array _ :: _ => some { r with awaiting := .value }
    | .comma, .object .. :: _ => some { r with awaiting := .name }
    | _, _ => r.closeContainer t
  | .nothing => none

end Reader

/-- The one value that a text spells. -/
def parse? (text : String) : Option Json := do
  let tokens ← scan? text.toList
  let r ← tokens.foldlM Reader.step? .start
  match r.awaiting with
  | .nothing => return r.value
  | _ => none

end AccessControl.Json
