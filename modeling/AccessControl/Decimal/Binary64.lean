namespace AccessControl.Decimal

/-- The nearest whole number to `num / den`; a half goes to the even neighbour. -/
def roundDiv (num den : Nat) : Nat :=
  let q := num / den
  let r := num % den
  if 2 * r < den || (2 * r == den && q % 2 == 0) then q else q + 1

/-- The exponent of the last bit of the doubles about `num / den`, which is positive. -/
def lastBit (num den : Nat) : Int :=
  let e : Int := num.log2 - den.log2 - 52
  let small := num <<< (-e).toNat < den <<< (e.toNat + 52)
  max (-1074) (if small then e - 1 else e)

/-- The leading bit of all mantissas but those of the smallest doubles. -/
def hiddenBit : Nat := 0x10000000000000

def infinityBits : Nat := 0x7ff0000000000000

/-- The bit pattern of the double nearest to `num / den`, a tie going to the even one. -/
def nearestBits (num den : Nat) : Nat :=
  if num = 0 then 0 else
    let e := lastBit num den
    let m := roundDiv (num <<< (-e).toNat) (den <<< e.toNat)
    min infinityBits ((e + 1074).toNat * hiddenBit + m)

def nearest (num den : Nat) : Float :=
  Float.ofBits (nearestBits num den).toUInt64

def infinity : Float :=
  Float.ofBits infinityBits.toUInt64

def nan : Float :=
  Float.ofBits 0x7ff8000000000000

/-- A double by its kind; a finite one is `mantissa * 2 ^ exponent` under its sign. -/
inductive Binary64
  | nan
  | infinite (negative : Bool)
  | finite (negative : Bool) (mantissa : Nat) (exponent : Int)

def Binary64.ofFloat (x : Float) : Binary64 :=
  let bits := x.toBits.toNat
  let negative : Bool := 0x8000000000000000 ≤ bits
  let biased := bits / hiddenBit % 0x800
  let fraction := bits % hiddenBit
  if biased = 2047 then if fraction = 0 then .infinite negative else .nan
  else if biased = 0 then .finite negative fraction (-1074)
  else .finite negative (hiddenBit + fraction) ((biased : Int) - 1075)

end AccessControl.Decimal
