import AccessControl.Decimal.Digits
import AccessControl.Regex.Pattern
import AccessControl.Text.Alphanumeric

namespace AccessControl.Regex

open Text

/-- A group may have a name. `ignoreCase` goes to the end of its group. -/
inductive Token
  | single (item : ClassItem)
  | dot
  | bracket (negated : Bool) (items : List ClassItem)
  | anchor (a : Anchor)
  | openGroup (name : Option (List Char)) (ignoreCase : Option Bool)
  | closeGroup
  | bar
  | times (least : Nat) (most : Option Nat)
  | ignoreCase (on : Bool)

namespace Token

def literal (c : Char) : ClassItem := .range c c

/-- What stands behind a backslash, in a class as well as outside. -/
def escapedItem? : Char → Option ClassItem
  | 'd' => some (.digit false)
  | 'D' => some (.digit true)
  | 'w' => some (.word false)
  | 'W' => some (.word true)
  | 's' => some (.space false)
  | 'S' => some (.space true)
  | 'a' => some (literal '\x07')
  | 'f' => some (literal '\x0c')
  | 'n' => some (literal '\n')
  | 'r' => some (literal '\r')
  | 't' => some (literal '\t')
  | 'v' => some (literal '\x0b')
  | c =>
    if c.toNat < 0x80 && !c.isAlphanum && c != '<' && c != '>' then some (literal c) else none

def escapedAnchor? : Char → Option Anchor
  | 'A' => some .start
  | 'z' => some .stop
  | 'b' => some (.boundary false)
  | 'B' => some (.boundary true)
  | '<' => some .wordStart
  | '>' => some .wordStop
  | _ => none

def escape? (c : Char) : Option Token :=
  match escapedAnchor? c with
  | some a => some (anchor a)
  | none => (escapedItem? c).map single

/-- The member of a class at the front of a text, and how many characters it takes up. -/
def member? : List Char → Option (ClassItem × Nat)
  | [] => none
  | '\\' :: c :: _ => (escapedItem? c).map (·, 2)
  | ['\\'] => none
  | c :: _ => some (literal c, 1)

/-- A member, or a range of two characters with a hyphen between; a hyphen before the closing
bracket or another hyphen makes no range. -/
def memberOrRange? (cs : List Char) : Option (ClassItem × Nat) := do
  let (low, n) ← member? cs
  match cs.drop n with
  | '-' :: c :: rest =>
    if c = ']' || c = '-' then return (low, n)
    let (high, m) ← member? (c :: rest)
    match low, high with
    | .range a _, .range b _ => if a ≤ b then return (.range a b, n + 1 + m) else none
    | _, _ => none
  | _ => return (low, n)

/-- The members up to the closing bracket, and how many characters they take up with it. Brackets
and set operations inside a class are refused. -/
def members? (cs : List Char) : Option (List ClassItem × Nat) :=
  match cs with
  | [] => none
  | ']' :: _ => some ([], 1)
  | '[' :: _ | '&' :: '&' :: _ | '-' :: '-' :: _ | '~' :: '~' :: _ => none
  | c :: rest => do
    let (item, n) ← memberOrRange? (c :: rest)
    let (items, m) ← members? (rest.drop (n - 1))
    return (item :: items, n + m)
termination_by cs.length

/-- A class behind its opening bracket. Hyphens in front stand for themselves, and without any so
does a closing bracket. -/
def charClass? (cs : List Char) : Option (Token × Nat) := do
  let (negated, start) := match cs with
    | '^' :: _ => (true, 1)
    | _ => (false, 0)
  let cs := cs.drop start
  let hyphens := (cs.takeWhile (· == '-')).length
  let leading := if hyphens = 0 && cs.head? == some ']' then [']'] else List.replicate hyphens '-'
  let (items, n) ← members? (cs.drop leading.length)
  return (bracket negated (leading.map literal ++ items), start + leading.length + n)

/-- A count, which blanks may surround. -/
def count? (cs : List Char) : Option Nat :=
  let ds := trim cs
  if ds.isEmpty || !ds.all Char.isDigit then none
  else
    let n := Decimal.ofDigits ds
    if n < 0x100000000 then some n else none

/-- A counted repetition behind its opening brace. -/
def counted? (cs : List Char) : Option (Token × Nat) := do
  let body := cs.takeWhile (· != '\x7d')
  if body.length = cs.length then none
  let (least, most) ← match body.splitOn ',' with
    | [n] => do
      let n ← count? n
      some (n, some n)
    | [n, []] => do some (← count? n, none)
    | [n, m] => do some (← count? n, some (← count? m))
    | _ => none
  if most.any (· < least) then none
  return (times least most, body.length + 1)

def isGroupNameStart (c : Char) : Bool :=
  isAlphabetic c || c == '_'

def isGroupNamePart (c : Char) : Bool :=
  isAlphanumeric c || c == '_' || c == '.' || c == '[' || c == ']'

/-- The name of a group with the closing angle bracket. -/
def groupName? (cs : List Char) : Option (List Char × Nat) :=
  let name := cs.takeWhile (· != '>')
  match name with
  | [] => none
  | c :: rest =>
    if name.length < cs.length && isGroupNameStart c && rest.all isGroupNamePart then
      some (name, name.length + 1)
    else none

/-- What a group opens with, behind the parenthesis. Look-around is refused. -/
def group? (cs : List Char) : Option (Token × Nat) :=
  match cs with
  | '?' :: 'P' :: '<' :: rest => (groupName? rest).map fun (name, n) => (openGroup name none, n + 3)
  | '?' :: '<' :: rest => (groupName? rest).map fun (name, n) => (openGroup name none, n + 2)
  | '?' :: ':' :: _ => some (openGroup none none, 2)
  | '?' :: 'i' :: ':' :: _ => some (openGroup none (some true), 3)
  | '?' :: '-' :: 'i' :: ':' :: _ => some (openGroup none (some false), 4)
  | '?' :: 'i' :: ')' :: _ => some (ignoreCase true, 3)
  | '?' :: '-' :: 'i' :: ')' :: _ => some (ignoreCase false, 4)
  | '?' :: _ => none
  | _ => some (openGroup none none, 0)

/-- A repetition with the question mark that makes it lazy. -/
def lazily (cs : List Char) (t : Token) (n : Nat) : Token × Nat :=
  (t, if (cs.drop n).head? = some '?' then n + 1 else n)

/-- The token at the front of `c :: cs`, and how many characters of `cs` it takes up. -/
def munch? (c : Char) (cs : List Char) : Option (Token × Nat) :=
  match c with
  | '\\' => do some (← escape? (← cs.head?), 1)
  | '.' => some (dot, 0)
  | '^' => some (anchor .start, 0)
  | '$' => some (anchor .stop, 0)
  | '[' => charClass? cs
  | '(' => group? cs
  | ')' => some (closeGroup, 0)
  | '|' => some (bar, 0)
  | '*' => some (lazily cs (times 0 none) 0)
  | '+' => some (lazily cs (times 1 none) 0)
  | '?' => some (lazily cs (times 0 (some 1)) 0)
  | '\x7b' => do
    let (t, n) ← counted? cs
    some (lazily cs t n)
  | c => some (single (literal c), 0)

def scan? (cs : List Char) : Option (List Token) :=
  match cs with
  | [] => some []
  | c :: cs => do
    let (t, n) ← munch? c cs
    let ts ← scan? (cs.drop n)
    return t :: ts
termination_by cs.length

end Token

end AccessControl.Regex
