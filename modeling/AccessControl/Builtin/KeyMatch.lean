namespace AccessControl.Builtin

/-- Equality, or agreement up to the first star of the pattern; what follows that star is not
looked at. -/
def keyMatch (value pattern : List Char) : Bool :=
  let stem := pattern.takeWhile (· != '*')
  if stem.length = pattern.length then value == pattern else stem.isPrefixOf value

/-- How many bytes a text takes in UTF-8. -/
def byteLength : List Char → Nat
  | [] => 0
  | c :: text => c.utf8Size + byteLength text

/-- What the first `n` bytes of a text spell, if they do not end within a character. -/
def firstBytes? : List Char → Nat → Option (List Char)
  | _, 0 => some []
  | [], _ + 1 => none
  | c :: cs, n + 1 =>
    if c.utf8Size ≤ n + 1 then (firstBytes? cs (n + 1 - c.utf8Size)).map (c :: ·) else none

/-- Key match by the bytes before the first star. -/
def keyMatchByBytes (value pattern : List Char) : Bool :=
  match pattern.findIdx? (· == '*') with
  | none => value == pattern
  | some i =>
    let n := byteLength (pattern.take i)
    firstBytes? value n == firstBytes? pattern n

end AccessControl.Builtin
