import AccessControl.Json.Basic

namespace AccessControl.Json

def hexDigit (n : Nat) : Char :=
  if n < 10 then Char.ofNat ('0'.toNat + n) else Char.ofNat ('a'.toNat + (n - 10))

/-- Only what a string cannot hold as it is gets escaped. -/
def escapeChar (c : Char) : List Char :=
  match c with
  | '"' => ['\\', '"']
  | '\\' => ['\\', '\\']
  | '\x08' => ['\\', 'b']
  | '\x0c' => ['\\', 'f']
  | '\n' => ['\\', 'n']
  | '\r' => ['\\', 'r']
  | '\t' => ['\\', 't']
  | c =>
    if c.toNat < 0x20 then
      ['\\', 'u', '0', '0', hexDigit (c.toNat / 16), hexDigit (c.toNat % 16)]
    else [c]

def quote (s : String) : List Char :=
  '"' :: s.toList.flatMap escapeChar ++ ['"']

/-- A new line at the given level. -/
def newline (level : Nat) : List Char :=
  '\n' :: List.replicate (2 * level) ' '

/-- Writes the parts of a container at the given level, each on a line of its own. -/
def enclose (left right : Char) (level : Nat) (parts : List (List Char)) : List Char :=
  match parts with
  | [] => [left, right]
  | p :: ps =>
    left :: newline (level + 1) ++ p ++ (ps.flatMap fun q => ',' :: newline (level + 1) ++ q) ++
      newline level ++ [right]

end AccessControl.Json
