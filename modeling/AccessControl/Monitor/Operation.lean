import AccessControl.Monitor.Basic
import AccessControl.Monitor.File

namespace AccessControl.Monitor

open Policy Matcher

inductive Operation
  | decide (request : List String)
  | explain (request : List String)
  | add (policy : String) (values : List String)
  | addMany (rows : List Row)
  | remove (policy : String) (values : List String)
  | removeWhere (policy : String) (index : Nat) (wanted : List String)
  | clear
  | forget
  | rows
  | rowsOf (policy : String)
  | importJson (text : String)
  | importFile (file : File)
  | exportJson

inductive Reply
  | done
  | flag (b : Bool)
  | count (n : Nat)
  | rows (rows : List Row)
  | text (s : String)
  | explanation (b : Bool) (rows : List Row)

/-- Performs an operation; where it succeeds, the reply comes with the monitor after it. -/
def perform (m : Monitor) : Operation → Traced Error (Reply × Monitor)
  | .decide request => do
    let (b, m) ← m.decide request
    return (.flag b, m)
  | .explain request => do
    let (b, rows) ← m.explain request
    return (.explanation b rows, m)
  | .add policy values => Traced.ofExcept do
    let (added, m) ← m.add policy values
    return (.flag added, m)
  | .addMany rows => Traced.ofExcept do
    let (added, m) ← m.addMany rows
    return (.count added, m)
  | .remove policy values => Traced.ofExcept do
    let (removed, m) ← m.remove policy values
    return (.flag removed, m)
  | .removeWhere policy index wanted => Traced.ofExcept do
    let (removed, m) ← m.removeWhere policy index wanted
    return (.count removed, m)
  | .clear => return (.done, m.clear)
  | .forget => return (.done, m.forget)
  | .rows => return (.rows m.rows, m)
  | .rowsOf policy => return (.rows (m.rowsOf policy), m)
  | .importJson text => Traced.ofExcept do
    let (added, m) ← m.importJson text
    return (.count added, m)
  | .importFile file => Traced.ofExcept do
    let (added, m) ← m.importJson (← file.read)
    return (.count added, m)
  | .exportJson => return (.text m.exportJson, m)

/-- The monitor after an operation, be it a success or not. -/
def after (m : Monitor) (op : Operation) : Monitor :=
  match (m.perform op).result with
  | .ok (_, m) => m
  | .error _ => m

/-- The monitor after a history of operations. -/
def afterAll (m : Monitor) (ops : List Operation) : Monitor :=
  ops.foldl after m

end AccessControl.Monitor
