import AccessControl.Json.Basic

namespace AccessControl.Json

inductive Token
  | openArray
  | closeArray
  | openObject
  | closeObject
  | comma
  | colon
  | scalar (j : Json)

def isBlank (c : Char) : Bool :=
  c == ' ' || c == '\n' || c == '\r' || c == '\t'

def hexDigit? (c : Char) : Option Nat :=
  if c.isDigit then some (c.toNat - '0'.toNat)
  else if 'a' ≤ c && c ≤ 'f' then some (c.toNat - 'a'.toNat + 10)
  else if 'A' ≤ c && c ≤ 'F' then some (c.toNat - 'A'.toNat + 10)
  else none

/-- The number written by four hexadecimal digits. -/
def hexQuad? (a b c d : Char) : Option Nat := do
  return (((← hexDigit? a) * 16 + (← hexDigit? b)) * 16 + (← hexDigit? c)) * 16 + (← hexDigit? d)

def isHighSurrogate (n : Nat) : Bool := 0xd800 ≤ n && n < 0xdc00

def isLowSurrogate (n : Nat) : Bool := 0xdc00 ≤ n && n < 0xe000

/-- The character of two surrogates that belong together. -/
def joinSurrogates (high low : Nat) : Char :=
  Char.ofNat (0x10000 + (high - 0xd800) * 0x400 + (low - 0xdc00))

/-- A part of a string: a character, or a code unit written as an escape. -/
inductive Piece
  | char (c : Char)
  | unit (n : Nat)

def simpleEscape? : Char → Option Char
  | '"' => some '"'
  | '\\' => some '\\'
  | '/' => some '/'
  | 'b' => some '\x08'
  | 'f' => some '\x0c'
  | 'n' => some '\n'
  | 'r' => some '\r'
  | 't' => some '\t'
  | _ => none

/-- The pieces of a string behind its opening quote, and how many characters it takes up with the
closing one. Control characters must be escaped. -/
def pieces? : List Char → Option (List Piece × Nat)
  | [] => none
  | '"' :: _ => some ([], 1)
  | '\\' :: 'u' :: a :: b :: c :: d :: cs => do
    let n ← hexQuad? a b c d
    let (ps, count) ← pieces? cs
    return (.unit n :: ps, count + 6)
  | '\\' :: e :: cs => do
    let c ← simpleEscape? e
    let (ps, count) ← pieces? cs
    return (.char c :: ps, count + 2)
  | c :: cs =>
    if c.toNat < 0x20 then none
    else do
      let (ps, count) ← pieces? cs
      return (.char c :: ps, count + 1)

/-- The characters that the pieces stand for, if surrogates come in pairs only. -/
def characters? : List Piece → Option (List Char)
  | [] => some []
  | .char c :: ps => (characters? ps).map (c :: ·)
  | .unit n :: .unit m :: ps =>
    if isHighSurrogate n && isLowSurrogate m then (characters? ps).map (joinSurrogates n m :: ·)
    else if isHighSurrogate n || isLowSurrogate n then none
    else (characters? (.unit m :: ps)).map (Char.ofNat n :: ·)
  | .unit n :: ps =>
    if isHighSurrogate n || isLowSurrogate n then none
    else (characters? ps).map (Char.ofNat n :: ·)

/-- What follows at least one digit. -/
def afterDigits? : List Char → Option (List Char)
  | c :: cs => if c.isDigit then some (cs.dropWhile Char.isDigit) else none
  | [] => none

/-- What follows the whole part of a number, which has no leading zeros. -/
def afterWhole? : List Char → Option (List Char)
  | '0' :: cs => some cs
  | cs => afterDigits? cs

def afterFraction? : List Char → Option (List Char)
  | '.' :: cs => afterDigits? cs
  | cs => some cs

def afterExponent? : List Char → Option (List Char)
  | c :: cs =>
    if c = 'e' || c = 'E' then
      match cs with
      | '+' :: ds | '-' :: ds => afterDigits? ds
      | ds => afterDigits? ds
    else some (c :: cs)
  | [] => some []

def isNumber (cs : List Char) : Bool :=
  let magnitude := match cs with
    | '-' :: cs => cs
    | cs => cs
  ((afterWhole? magnitude).bind afterFraction?).bind afterExponent? == some []

/-- Whether `c` may stand in a number; no such character follows one. -/
def isNumberPart (c : Char) : Bool :=
  c.isDigit || c == '-' || c == '+' || c == '.' || c == 'e' || c == 'E'

/-- The token at the front of `c :: cs`, and how many characters of `cs` it takes up. -/
def munch? (c : Char) (cs : List Char) : Option (Token × Nat) :=
  match c, cs with
  | '[', _ => some (.openArray, 0)
  | ']', _ => some (.closeArray, 0)
  | '\x7b', _ => some (.openObject, 0)
  | '\x7d', _ => some (.closeObject, 0)
  | ',', _ => some (.comma, 0)
  | ':', _ => some (.colon, 0)
  | 't', 'r' :: 'u' :: 'e' :: _ => some (.scalar (.bool true), 3)
  | 'f', 'a' :: 'l' :: 's' :: 'e' :: _ => some (.scalar (.bool false), 4)
  | 'n', 'u' :: 'l' :: 'l' :: _ => some (.scalar .null, 3)
  | '"', _ => (pieces? cs).map fun (ps, n) => (.scalar (.string ((characters? ps).map .ofList)), n)
  | _, _ =>
    let more := (cs.takeWhile isNumberPart).length
    if isNumber (c :: cs.take more) then some (.scalar .number, more) else none

/-- All tokens of a text, which blanks may set apart. -/
def scan? : List Char → Option (List Token)
  | [] => some []
  | c :: cs =>
    if isBlank c then scan? cs
    else do
      let (t, n) ← munch? c cs
      let ts ← scan? (cs.drop n)
      return t :: ts
termination_by cs => cs.length

end AccessControl.Json
