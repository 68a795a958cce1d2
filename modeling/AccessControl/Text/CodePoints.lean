namespace AccessControl.Text

abbrev CodePoints := List Nat

/-- Membership starts at the first boundary, ends before the second, and so on. -/
def CodePoints.contains : CodePoints → Nat → Bool
  | [], _ => false
  | [lo], n => lo ≤ n
  | lo :: hi :: bounds, n => if n < lo then false else if n < hi then true else contains bounds n

end AccessControl.Text
