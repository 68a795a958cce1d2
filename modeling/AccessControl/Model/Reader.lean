import AccessControl.Config.Parser
import AccessControl.Matcher.Program
import AccessControl.Model.Basic
import AccessControl.Model.Error

namespace AccessControl.Model

open Config Text Policy

def requestSection : String := "request_definition"

def policySection : String := "policy_definition"

def roleSection : String := "role_definition"

def clauseSection : String := "policy_effect"

def matcherSection : String := "matchers"

def entries (d : Document) (name : String) : Except Error (List (String × String)) :=
  match d.section? name with
  | some s => .ok s.entries
  | none => .error (.missingSection name)

/-- The entry of a section that has just one. -/
def soleEntry (d : Document) (name : String) : Except Error (String × String) := do
  match ← entries d name with
  | [entry] => return entry
  | all =>
    let second := (all[1]?.map (·.1)).getD ""
    throw (.invalidEntry name second (.entryCount all.length))

/-- Checks a symbol against those that are taken. -/
def checkSymbol (taken : List String) (name symbol : String) : Except Error Unit :=
  if !isSymbol symbol.toList then .error (.invalidEntry name symbol .notIdentifier)
  else if taken.contains symbol then .error (.invalidEntry name symbol .alreadyDeclared)
  else .ok ()

/-- The parts of a list that is separated by commas. -/
def parts (value : String) : List String :=
  (value.toList.splitOn ',').map fun part => .ofList (trim part)

/-- The first fault of a list of attributes, `seen` being those before it. -/
def attributeFault? (seen : List String) : List String → Option Fault
  | [] => none
  | attr :: attrs =>
    if !isSymbol attr.toList then some (.invalidAttribute attr)
    else if seen.contains attr then some (.duplicateAttribute attr)
    else attributeFault? (attr :: seen) attrs

/-- The schema of an entry. -/
def schemaOf (taken : List String) (name : String) (entry : String × String) :
    Except Error Schema := do
  checkSymbol taken name entry.1
  match attributeFault? [] (parts entry.2) with
  | some fault => throw (.invalidEntry name entry.1 fault)
  | none => return ⟨entry.1, parts entry.2⟩

def schemasOf (taken : List String) : List (String × String) → Except Error (List Schema)
  | [] => .ok []
  | entry :: rest => do
    let s ← schemaOf taken policySection entry
    return s :: (← schemasOf (s.symbol :: taken) rest)

/-- The role of an entry, which lists an underscore for each of its names. -/
def roleOf (taken : List String) (entry : String × String) : Except Error Role := do
  checkSymbol taken roleSection entry.1
  let places := parts entry.2
  if places.any (· != "_") then throw (.invalidEntry roleSection entry.1 .notPlaceholders)
  if places.length < 2 then throw (.invalidEntry roleSection entry.1 .tooFewPlaceholders)
  return ⟨entry.1, places.length⟩

def rolesOf (taken : List String) : List (String × String) → Except Error (List Role)
  | [] => .ok []
  | entry :: rest => do
    let r ← roleOf taken entry
    return r :: (← rolesOf (r.symbol :: taken) rest)

/-- The clause of an entry, which must name one of the policies. -/
def clauseOf (policies : List Schema) (entry : String × String) : Except Error Clause :=
  match Clause.parse? entry.2 with
  | none => .error (.unsupportedEffect entry.2)
  | some c =>
    if policies.any (·.symbol == c.policy) then .ok c
    else .error (.invalidEntry clauseSection entry.1 (.undeclaredPolicy c.policy))

/-- The section of roles may be missing; sections of other names are of no account. -/
def ofDocument (d : Document) : Except Error Model := do
  let request ← schemaOf [] requestSection (← soleEntry d requestSection)
  let policies ← schemasOf [request.symbol] (← entries d policySection)
  let taken := request.symbol :: policies.map (·.symbol)
  let roles ← rolesOf taken (((d.section? roleSection).map (·.entries)).getD [])
  let clause ← clauseOf policies (← soleEntry d clauseSection)
  let matcher ← soleEntry d matcherSection
  return ⟨request, policies, roles, clause, matcher.2⟩

def ofText (text : String) : Except Error Model := do
  ofDocument (← (Document.parse text).mapError .config)

/-- The matcher, nested no deeper than `limit`. -/
def program (m : Model) (limit : Nat) : Except Error Matcher.Program :=
  (Matcher.Program.compile limit m.matcher).mapError .matcher

end AccessControl.Model
