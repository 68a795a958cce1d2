import AccessControl.Decimal.Binary64
import AccessControl.Decimal.Digits

namespace AccessControl.Decimal

/-- The numbers that round to `value / den`: those between `low / den` and `high / den`, with the
ends if `closed`. -/
structure Reach where
  value : Nat
  low : Nat
  high : Nat
  den : Nat
  closed : Bool

/-- The reach of `m * 2 ^ e`. Below a power of two the doubles lie twice as dense. -/
def Reach.ofDouble (m : Nat) (e : Int) : Reach :=
  let unit := 1 <<< (e - 2).toNat
  let below := if m = hiddenBit && -1074 < e then 1 else 2
  ⟨4 * m * unit, (4 * m - below) * unit, (4 * m + 2) * unit, 1 <<< (2 - e).toNat, m % 2 == 0⟩

/-- Whether `num / scale` lies in the reach. -/
def Reach.contains (r : Reach) (num scale : Nat) : Bool :=
  let x := num * r.den
  if r.closed then r.low * scale ≤ x && x ≤ r.high * scale
  else r.low * scale < x && x < r.high * scale

/-- The multiples of `10 ^ p` next to the value, below and above: which of them to write, if any
lies in the reach. The nearer one wins, and of two as near the upper. -/
def Reach.multiple? (r : Reach) (p : Int) : Option Nat :=
  let up := tenTo p.toNat
  let down := tenTo (-p).toNat
  let n := r.value * down / (r.den * up)
  let rest := r.value * down % (r.den * up)
  let inside := fun k => r.contains (k * up) down
  match inside n, inside (n + 1) with
  | true, true => some (if 2 * rest < r.den * up then n else n + 1)
  | true, false => some n
  | false, true => some (n + 1)
  | false, false => none

/-- The coarsest power of ten with a multiple in the reach, from `p` down for `tries` steps, and
that multiple. -/
def Reach.coarsest (r : Reach) (p : Int) : Nat → Nat × Int
  | 0 => ((r.multiple? p).getD 0, p)
  | tries + 1 => match r.multiple? p with
    | some n => (n, p)
    | none => r.coarsest (p - 1) tries

/-- Digits and power of ten of the shortest decimal for `m * 2 ^ e`, which is positive. Seventeen
digits always suffice, and the first grid tried lies above the number. -/
def shortest (m : Nat) (e : Int) : Nat × Int :=
  let r := Reach.ofDouble m e
  r.coarsest ((digits r.value).length - (digits r.den).length + 1) 20

end AccessControl.Decimal
