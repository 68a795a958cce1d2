import AccessControl.Monitor.Basic

namespace AccessControl.Monitor

open Policy

/-- The sum of two sizes, if it is a size. -/
def sum? (a b : Nat) : Option Nat :=
  if a + b ≤ maxIndex then some (a + b) else none

/-- Whether the value at `index + offset` is the wanted one. For an empty one none is looked at. -/
def valueFits? (values : List String) (index offset : Nat) (want : String) : Option Bool :=
  if want.isEmpty then some true
  else do
    let place ← sum? index offset
    let value ← values[place]?
    return value == want

/-- Whether the values from `index + offset` on are the wanted ones, up to the first that is not. -/
def valuesFit? (values : List String) (index offset : Nat) : List String → Option Bool
  | [] => some true
  | want :: wanted => do
    if ← valueFits? values index offset want then valuesFit? values index (offset + 1) wanted
    else return false

def covers? (policy : String) (index : Nat) (wanted : List String) (row : Row) : Option Bool :=
  if row.policy == policy then valuesFit? row.values index 0 wanted else some false

/-- Those of the rows that are not covered. -/
def uncovered? (covers : Row → Option Bool) : List Row → Option (List Row)
  | [] => some []
  | row :: rows => do
    let covered ← covers row
    let rest ← uncovered? covers rows
    return if covered then rest else row :: rest

/-- Removes the rows of a policy whose values from `index` on are the wanted ones, unless `index`
and the number of these come to more than the policy has attributes. Where a sum is no size, or a
place is none of the row's, there is no outcome at all. -/
def removeWhere? (m : Monitor) (policy : String) (index : Nat) (wanted : List String) :
    Option (Except Error (Nat × Monitor)) :=
  match m.policy policy with
  | .error e => some (.error e)
  | .ok s =>
    let stop := sum? index wanted.length
    if stop.any (· ≤ s.attrs.length) then do
      let kept ← uncovered? (covers? policy index wanted) m.rows
      let removed := m.rows.length - kept.length
      return .ok (removed, if removed = 0 then m else m.withRows kept)
    else
      some (.error (.policyArity policy s.attrs.length (stop.getD maxIndex)))

end AccessControl.Monitor
