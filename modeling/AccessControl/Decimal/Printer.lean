import AccessControl.Decimal.Binary64
import AccessControl.Decimal.Shortest

namespace AccessControl.Decimal

/-- Whole numbers have no point, and a fraction has a digit before it. -/
def positional (n : Nat) (p : Int) : List Char :=
  let ds := digits n
  if 0 ≤ p then ds ++ List.replicate p.toNat '0'
  else
    let places := (-p).toNat
    let ds := List.replicate (places + 1 - ds.length) '0' ++ ds
    ds.take (ds.length - places) ++ '.' :: ds.drop (ds.length - places)

def magnitude (m : Nat) (e : Int) : List Char :=
  if m = 0 then ['0'] else
    let (n, p) := shortest m e
    positional n p

def print (x : Float) : String :=
  match Binary64.ofFloat x with
  | .nan => "NaN"
  | .infinite negative => if negative then "-inf" else "inf"
  | .finite negative m e => String.ofList ((if negative then ['-'] else []) ++ magnitude m e)

end AccessControl.Decimal
