import AccessControl.Decimal.Digits
import AccessControl.Decimal.Binary64

namespace AccessControl.Decimal

/-- The double nearest to `m * 10 ^ e`. A number whose first digit lies far outside the range of
doubles is settled without being written out. -/
def scaled (m : Nat) (e : Int) : Float :=
  let top := (digits m).length + e
  if m = 0 || top < -400 then nearest 0 1
  else if 400 < top then infinity
  else if 0 ≤ e then nearest (m * tenTo e.toNat) 1
  else nearest m (tenTo (-e).toNat)

/-- The number written as `whole.fraction`. -/
def ofPlaces (whole fraction : List Char) : Float :=
  scaled (ofDigits (whole ++ fraction)) (-fraction.length)

/-- Digits with at most one point, at least one digit in all; and the text that follows them. -/
def readPlaces? (cs : List Char) : Option (List Char × List Char × List Char) :=
  let whole := cs.takeWhile Char.isDigit
  let (fraction, rest) := match cs.dropWhile Char.isDigit with
    | '.' :: rest => (rest.takeWhile Char.isDigit, rest.dropWhile Char.isDigit)
    | rest => ([], rest)
  if whole.isEmpty && fraction.isEmpty then none else some (whole, fraction, rest)

/-- A sign, if any, and the text behind it. -/
def readSign : List Char → Bool × List Char
  | '-' :: cs => (true, cs)
  | '+' :: cs => (false, cs)
  | cs => (false, cs)

/-- The power of ten behind a number: nothing, or `e` with a whole number. -/
def readExponent? : List Char → Option Int
  | [] => some 0
  | c :: cs =>
    let (negative, ds) := readSign cs
    if c.toLower != 'e' || ds.isEmpty || !ds.all Char.isDigit then none
    else some (if negative then -(ofDigits ds : Int) else ofDigits ds)

/-- A decimal literal with optional sign and exponent, or an infinity or NaN by name. -/
def read? (text : String) : Option Float :=
  let (negative, cs) := readSign text.toList
  let magnitude := match String.ofList (cs.map Char.toLower) with
    | "inf" | "infinity" => some infinity
    | "nan" => some nan
    | _ => do
      let (whole, fraction, rest) ← readPlaces? cs
      let exponent ← readExponent? rest
      some (scaled (ofDigits (whole ++ fraction)) (exponent - fraction.length))
  magnitude.map fun x => if negative then -x else x

end AccessControl.Decimal
