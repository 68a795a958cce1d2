import AccessControl.Matcher.Machine
import AccessControl.Model.Basic
import AccessControl.Monitor.Error
import AccessControl.Monitor.RecentDecisions
import AccessControl.Policy.RowJson

namespace AccessControl

open Policy Matcher

/-- The rows stand in the order of their insertion. Without `recent` every decision is made anew. -/
structure Monitor where
  model : Model
  program : Program
  functions : FunctionTable
  rows : List Row
  recent : Option RecentDecisions

namespace Monitor

def checkRequest (m : Monitor) (request : List String) : Except Error Unit :=
  let expected := m.model.request.attrs.length
  if request.length = expected then .ok () else .error (.requestArity expected request.length)

/-- What the matcher sees of a request. -/
def requestScope (m : Monitor) (request : List String) : Scope :=
  (Scope.ofFunctions m.functions).bindTuple m.model.request.symbol m.model.request.attrs request

/-- Those of the rows for which the matcher holds. Each row is bound in the place of the one before
it; the first failure ends it. -/
def holding (p : Program) (policy : Schema) (s : Scope) : List Row → Traced Error (List Row)
  | [] => pure []
  | row :: rows => do
    let s := s.bindTuple policy.symbol policy.attrs row.values
    let holds ← (p.holds s).mapError .evaluation
    let rest ← holding p policy s rows
    return if holds then row :: rest else rest

/-- The rows that match a request, all of them of the policy that decides. -/
def matching (m : Monitor) (request : List String) : Traced Error (List Row) :=
  match m.model.decidingPolicy? with
  | some policy =>
    holding m.program policy (m.requestScope request) (m.rows.filter (·.policy == policy.symbol))
  | none => throw (.unknownPolicy m.model.clause.policy)

def verdict (m : Monitor) (rows : List Row) : Bool :=
  m.model.clause.rule.combine (rows.map (·.effect))

/-- The decision on a request together with the rows that match it. -/
def explain (m : Monitor) (request : List String) : Traced Error (Bool × List Row) := do
  Traced.ofExcept (m.checkRequest request)
  let rows ← m.matching request
  return (m.verdict rows, rows)

/-- The decision on a request, made anew unless it is a recent one. -/
def decide (m : Monitor) (request : List String) : Traced Error (Bool × Monitor) := do
  Traced.ofExcept (m.checkRequest request)
  match m.recent.map (·.find request) with
  | some (some b, recent) => return (b, { m with recent := some recent })
  | _ =>
    let b := m.verdict (← m.matching request)
    return (b, { m with recent := m.recent.map (·.insert request b) })

/-- Without the decisions made so far. -/
def forget (m : Monitor) : Monitor :=
  { m with recent := m.recent.map (·.clear) }

/-- With other rows; what was decided before no longer counts. -/
def withRows (m : Monitor) (rows : List Row) : Monitor :=
  { m with rows }.forget

def policy (m : Monitor) (symbol : String) : Except Error Schema :=
  match m.model.policy? symbol with
  | some s => .ok s
  | none => .error (.unknownPolicy symbol)

/-- The row as it is stored: where its policy has an effect attribute, the value of that is the
effect. -/
def asStored (m : Monitor) (row : Row) : Except Error Row := do
  let s ← m.policy row.policy
  if row.values.length != s.attrs.length then
    throw (.policyArity row.policy s.attrs.length row.values.length)
  match s.effectText? row.values with
  | none => return row
  | some text => match Effect.ofName? text with
    | some effect => return { row with effect }
    | none => throw (.invalidEffect text)

/-- Adds a row that allows, unless it is there already. -/
def add (m : Monitor) (policy : String) (values : List String) : Except Error (Bool × Monitor) := do
  let row ← m.asStored ⟨policy, values, .allow⟩
  return if m.rows.contains row then (false, m) else (true, m.withRows (m.rows ++ [row]))

/-- The stored rows followed by those of the others that are not there yet. -/
def insertNew (stored rows : List Row) : List Row :=
  rows.foldl (fun stored row => if stored.contains row then stored else stored ++ [row]) stored

/-- Adds those rows that are new, all at once, and counts them. -/
def addMany (m : Monitor) (rows : List Row) : Except Error (Nat × Monitor) := do
  let stored := insertNew m.rows (← rows.mapM m.asStored)
  let added := stored.length - m.rows.length
  return (added, if added = 0 then m else m.withRows stored)

/-- Drops the rows that `covers` accepts, and counts them. -/
def drop (m : Monitor) (covers : Row → Bool) : Nat × Monitor :=
  let kept := m.rows.filter fun row => !covers row
  let removed := m.rows.length - kept.length
  (removed, if removed = 0 then m else m.withRows kept)

/-- Removes the rows of a policy that have the given values, whatever their effects. -/
def remove (m : Monitor) (policy : String) (values : List String) :
    Except Error (Bool × Monitor) := do
  let _ ← m.policy policy
  let (removed, m) := m.drop fun row => row.policy == policy && row.values == values
  return (removed != 0, m)

/-- The largest index there is. -/
def maxIndex : Nat := 0xffffffffffffffff

/-- Whether the values from `index` on are the wanted ones; an empty one stands for any. -/
def valuesFit (values : List String) (index : Nat) (wanted : List String) : Bool :=
  ((values.drop index).zip wanted).all fun (value, want) => want.isEmpty || value == want

/-- Removes the rows of a policy whose values from `index` on are the wanted ones. -/
def removeWhere (m : Monitor) (policy : String) (index : Nat) (wanted : List String) :
    Except Error (Nat × Monitor) := do
  let s ← m.policy policy
  let stop := index + wanted.length
  if s.attrs.length < stop then throw (.policyArity policy s.attrs.length (min maxIndex stop))
  return m.drop fun row => row.policy == policy && valuesFit row.values index wanted

def clear (m : Monitor) : Monitor :=
  m.withRows []

def rowsOf (m : Monitor) (policy : String) : List Row :=
  m.rows.filter (·.policy == policy)

def importJson (m : Monitor) (text : String) : Except Error (Nat × Monitor) :=
  match Row.listOfJson? text with
  | some rows => m.addMany rows
  | none => .error .malformedRows

def exportJson (m : Monitor) : String :=
  Row.listToJson m.rows

end Monitor

end AccessControl
