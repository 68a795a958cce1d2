import AccessControl.Monitor.Operation

namespace AccessControl.Monitor

open Policy

/-- What a step has written to the monitor stays written when a later step fails. -/
abbrev Action (α : Type) : Type :=
  EStateM Error Monitor α

namespace Action

/-- A look at the monitor, which may find a reason to fail. -/
def check {α : Type} (look : Monitor → Except Error α) : Action α := do
  match look (← get) with
  | .ok a => return a
  | .error e => throw e

/-- Looks for a decision in the memory, which takes note of its use. -/
def consult (request : List String) : Action (Option Bool) := do
  match (← get).recent with
  | none => return none
  | some recent =>
    let (found, recent) := recent.find request
    modify fun m => { m with recent := some recent }
    return found

def remember (request : List String) (b : Bool) : Action Unit :=
  modify fun m => { m with recent := m.recent.map (·.insert request b) }

def decide (request : List String) : Action Bool := do
  check (·.checkRequest request)
  match ← consult request with
  | some b => return b
  | none =>
    let matched ← check fun m => (m.matching request).result
    let b := (← get).verdict matched
    remember request b
    return b

def explain (request : List String) : Action (Bool × List Row) := do
  check (·.checkRequest request)
  let matched ← check fun m => (m.matching request).result
  return ((← get).verdict matched, matched)

def forget : Action Unit :=
  modify Monitor.forget

/-- Puts a row behind the others, unless it is there already. -/
def insert (row : Row) : Action Bool := do
  if (← get).rows.contains row then return false
  modify fun m => { m with rows := m.rows ++ [row] }
  return true

/-- Inserts rows one by one, and counts those that are new. -/
def insertAll : List Row → Action Nat
  | [] => return 0
  | row :: rows => do
    let added ← insert row
    let more ← insertAll rows
    return added.toNat + more

def add (policy : String) (values : List String) : Action Bool := do
  let row ← check (·.asStored ⟨policy, values, .allow⟩)
  let added ← insert row
  if added then forget
  return added

def addMany (given : List Row) : Action Nat := do
  let rows ← given.mapM fun row => check (·.asStored row)
  let added ← insertAll rows
  if added ≠ 0 then forget
  return added

/-- Keeps the rows that `kept` accepts, and counts the others. -/
def retain (kept : Row → Bool) : Action Nat := do
  let before := (← get).rows.length
  modify fun m => { m with rows := m.rows.filter kept }
  let removed := before - (← get).rows.length
  if removed ≠ 0 then forget
  return removed

def remove (policy : String) (values : List String) : Action Bool := do
  let _ ← check (·.policy policy)
  let removed ← retain fun row => !(row.policy == policy && row.values == values)
  return removed != 0

def removeWhere (policy : String) (index : Nat) (wanted : List String) : Action Nat := do
  let s ← check (·.policy policy)
  let stop := index + wanted.length
  if s.attrs.length < stop then throw (.policyArity policy s.attrs.length (min maxIndex stop))
  retain fun row => !(row.policy == policy && valuesFit row.values index wanted)

def clear : Action Unit := do
  modify fun m => { m with rows := [] }
  forget

def importJson (text : String) : Action Nat :=
  match Row.listOfJson? text with
  | some given => addMany given
  | none => throw .malformedRows

end Action

def Operation.act : Operation → Action Reply
  | .decide request => return .flag (← Action.decide request)
  | .explain request => do
    let (b, matched) ← Action.explain request
    return .explanation b matched
  | .add policy values => return .flag (← Action.add policy values)
  | .addMany given => return .count (← Action.addMany given)
  | .remove policy values => return .flag (← Action.remove policy values)
  | .removeWhere policy index wanted => return .count (← Action.removeWhere policy index wanted)
  | .clear => do
    Action.clear
    return .done
  | .forget => do
    Action.forget
    return .done
  | .rows => return .rows (← get).rows
  | .rowsOf policy => return .rows ((← get).rowsOf policy)
  | .importJson text => return .count (← Action.importJson text)
  | .importFile file => do
    let text ← Action.check fun _ => file.read
    return .count (← Action.importJson text)
  | .exportJson => return .text (← get).exportJson

end AccessControl.Monitor
