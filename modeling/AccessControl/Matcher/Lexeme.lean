import AccessControl.Decimal.Reader
import AccessControl.Matcher.Operator
import AccessControl.Matcher.SyntaxError
import AccessControl.Matcher.Value
import AccessControl.Text.Blank
import AccessControl.Text.Symbol

namespace AccessControl.Matcher

open Text

/-- A name before an opening parenthesis is one lexeme with it. The symbols `!`, `+` and `-` are
`sign`s, whether they stand before an operand or between two. -/
inductive Lexeme.Kind
  | literal (l : Literal)
  | name (name : String)
  | callHead (name : String)
  | openParen
  | closeParen
  | comma
  | dot
  | sign (op : UnaryOp)
  | operator (op : BinaryOp)

/-- The text of a call head is its name. -/
structure Lexeme where
  kind : Lexeme.Kind
  text : String
  position : Position

namespace Lexeme

/-- A lexeme found at the front of a text: `more` of its characters follow the first one. -/
structure Munch where
  kind : Kind
  text : List Char
  more : Nat

/-- The digits behind the point that a text starts with, if it does. -/
def fractionAt : List Char → List Char
  | '.' :: rest => rest.takeWhile Char.isDigit
  | _ => []

def munchNumber (p : Position) (c : Char) (cs : List Char) : Except SyntaxError Munch :=
  let whole := c :: cs.takeWhile Char.isDigit
  let fraction := fractionAt (cs.dropWhile Char.isDigit)
  let text := if fraction.isEmpty then whole else whole ++ '.' :: fraction
  let more := text.length - 1
  let fault := .error (.unexpectedToken (.ofList text) p .invalidNumber)
  if (cs.drop more).head?.any isSymbolStart then fault
  else match Decimal.read? (.ofList text) with
    | some x => .ok ⟨.literal (.number x), text, more⟩
    | none => fault

/-- The value of a string behind its opening quote, and how many characters it takes up with the
closing one. A backslash stands for itself unless a quote or backslash follows. -/
def stringBody? : List Char → Option (List Char × Nat)
  | [] => none
  | '"' :: _ => some ([], 1)
  | '\\' :: '"' :: cs => (stringBody? cs).map fun (value, n) => ('"' :: value, n + 2)
  | '\\' :: '\\' :: cs => (stringBody? cs).map fun (value, n) => ('\\' :: value, n + 2)
  | c :: cs => (stringBody? cs).map fun (value, n) => (c :: value, n + 1)

def munchString (p : Position) (cs : List Char) : Except SyntaxError Munch :=
  match stringBody? cs with
  | some (value, n) => .ok ⟨.literal (.string (.ofList value)), '"' :: cs.take n, n⟩
  | none => .error (.unexpectedToken (.ofList ('"' :: cs)) p .unterminatedString)

/-- A name may end in one question mark. Blanks may part a call head from its parenthesis. -/
def munchName (c : Char) (cs : List Char) : Munch :=
  let word := cs.takeWhile isSymbolPart
  let mark := (cs.dropWhile isSymbolPart).takeWhile (· == '?') |>.take 1
  let name := c :: word ++ mark
  let rest := cs.drop (word.length + mark.length)
  if (rest.dropWhile isBlank).head? = some '(' then
    let gap := rest.takeWhile isBlank
    ⟨.callHead (.ofList name), name, word.length + mark.length + gap.length + 1⟩
  else ⟨.name (.ofList name), name, word.length + mark.length⟩

/-- The operators of two characters, which win over those of one. -/
def doubleOperator? (c d : Char) : Option BinaryOp :=
  BinaryOp.ofSymbol? (.ofList [c, d])

def single? : Char → Option Kind
  | '(' => some .openParen
  | ')' => some .closeParen
  | ',' => some .comma
  | '.' => some .dot
  | c => match UnaryOp.ofSymbol? c.toString with
    | some op => some (.sign op)
    | none => (BinaryOp.ofSymbol? c.toString).map .operator

def munchSymbol (p : Position) (c : Char) (cs : List Char) : Except SyntaxError Munch :=
  match cs.head?.bind (doubleOperator? c), single? c with
  | some op, _ => .ok ⟨.operator op, op.symbol.toList, 1⟩
  | none, some kind => .ok ⟨kind, [c], 0⟩
  | none, none =>
    .error (.unexpectedToken c.toString p (if c = '=' then .assignment else .unexpectedCharacter))

/-- The lexeme at the front of `c :: cs`, which starts at `p`. -/
def munch (p : Position) (c : Char) (cs : List Char) : Except SyntaxError Munch :=
  if c.isDigit then munchNumber p c cs
  else if c = '"' then munchString p cs
  else if isSymbolStart c then .ok (munchName c cs)
  else munchSymbol p c cs

/-- The lexemes of a text that starts at `p`, up to the first place where there is none, and what is
wrong there. -/
def scan (p : Position) : List Char → List Lexeme × Option SyntaxError
  | [] => ([], none)
  | c :: cs =>
    if isBlank c then scan (p.next c) cs
    else match munch p c cs with
      | .error e => ([], some e)
      | .ok m =>
        let (lexemes, fault) := scan ((p.next c).after (cs.take m.more)) (cs.drop m.more)
        (⟨m.kind, .ofList m.text, p⟩ :: lexemes, fault)
termination_by cs => cs.length

end Lexeme

end AccessControl.Matcher
