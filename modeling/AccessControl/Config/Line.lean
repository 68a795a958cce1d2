import AccessControl.Config.Fault
import AccessControl.Text.Blank
import AccessControl.Text.Symbol

namespace AccessControl.Config

open Text

/-- An entry with the places of its key and of its `=`. -/
structure Entry where
  key : String
  keyPosition : Position
  value : String
  separatorPosition : Position

/-- A `#` ends a line early. -/
inductive Line
  | blank
  | header (name : String) (position : Position)
  | entry (e : Entry)

def isSectionNamePart (c : Char) : Bool :=
  c.isLower || c.isDigit || c == '_'

namespace Line

/-- Reads what follows the `[` at `p`: a name, the `]`, and nothing more but a comment. -/
def readHeader (p : Position) (cs : List Char) : Except SyntaxError Line :=
  let inside := p.after ['[']
  let name := cs.takeWhile isSectionNamePart
  let stop := inside.after name
  match cs.head? with
  | none => .error ⟨.headerWithoutName, inside⟩
  | some c =>
    if !c.isLower then .error ⟨.sectionNameStart c, inside⟩
    else match cs.dropWhile isSectionNamePart with
      | [] => .error ⟨.unterminatedHeader (.ofList name), stop⟩
      | ']' :: rest =>
        match rest.dropWhile isBlank with
        | [] | '#' :: _ => .ok (.header (.ofList name) p)
        | c :: _ =>
          .error ⟨.afterHeader c (.ofList name), (stop.next ']').after (rest.takeWhile isBlank)⟩
      | c :: _ => .error ⟨.sectionNameCharacter c, stop⟩

/-- Whether `c`, before an `=`, makes a relational operator of it. -/
def isRelational (c : Char) : Bool :=
  c == '=' || c == '!' || c == '<' || c == '>'

/-- Reads an entry whose key starts at `p`. The last line of a text ends with the input. -/
def readEntry (isLast : Bool) (p : Position) (cs : List Char) : Except SyntaxError Line :=
  let key := cs.takeWhile isSymbolPart
  let rest := cs.dropWhile isSymbolPart
  let separator := (p.after key).after (rest.takeWhile isBlank)
  let name := String.ofList key
  match rest.dropWhile isBlank with
  | [] => .error ⟨if isLast then .endBeforeSeparator name else .missingSeparator name, separator⟩
  | '#' :: _ => .error ⟨.missingSeparator name, separator⟩
  | c :: rest =>
    if isRelational c && rest.head? == some '=' then
      .error ⟨.relationalSeparator c name, separator⟩
    else if c != '=' then .error ⟨.wrongSeparator c name, separator⟩
    else .ok (.entry ⟨name, p, .ofList (trim (rest.takeWhile (· != '#'))), separator⟩)

/-- Reads the line that starts at `p`. -/
def read (isLast : Bool) (p : Position) (cs : List Char) : Except SyntaxError Line :=
  let start := p.after (cs.takeWhile isBlank)
  match cs.dropWhile isBlank with
  | [] | '#' :: _ => .ok .blank
  | '[' :: rest => readHeader start rest
  | c :: rest =>
    if isSymbolStart c then readEntry isLast start (c :: rest)
    else .error ⟨.strayCharacter c, start⟩

/-- Reads consecutive lines, the first of them numbered `n`. -/
def readAll (n : Nat) : List (List Char) → Except SyntaxError (List Line)
  | [] => .ok []
  | cs :: rest => do
    let line ← read rest.isEmpty ⟨n, 1⟩ cs
    let lines ← readAll (n + 1) rest
    return line :: lines

end Line

end AccessControl.Config
