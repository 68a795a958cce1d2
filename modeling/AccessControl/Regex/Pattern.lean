import AccessControl.Regex.CharClass

namespace AccessControl.Regex

/-- A place in a text, by what is on both sides. The ends of a text count as no word character. -/
structure Place where
  atStart : Bool
  atStop : Bool
  afterWord : Bool
  beforeWord : Bool

def Place.between (before after : Option Glyph) : Place :=
  ⟨before.isNone, after.isNone, before.any (·.letter.isWord), after.any (·.letter.isWord)⟩

inductive Anchor
  | start
  | stop
  | boundary (negated : Bool)
  | wordStart
  | wordStop

def Anchor.holds (p : Place) : Anchor → Bool
  | start => p.atStart
  | stop => p.atStop
  | boundary negated => (p.afterWord != p.beforeWord) != negated
  | wordStart => !p.afterWord && p.beforeWord
  | wordStop => p.afterWord && !p.beforeWord

/-- Which part of a text a group matches does not matter here, so groups leave no trace and greedy
and lazy repetition are the same. -/
inductive Pattern
  | empty
  | chars (k : CharClass)
  | anchor (a : Anchor)
  | seq (p q : Pattern)
  | alt (p q : Pattern)
  | plus (p : Pattern)

namespace Pattern

def seqs : List Pattern → Pattern
  | [] => empty
  | [p] => p
  | p :: ps => seq p (seqs ps)

def optional (p : Pattern) : Pattern := alt p empty

/-- At least `least` times, and at most so often as the bound says if there is one. Without a bound
the last copy that is needed is the one that goes on. -/
def times (p : Pattern) (least : Nat) : Option Nat → Pattern
  | some most => seqs (List.replicate least p ++ List.replicate (most - least) p.optional)
  | none =>
    match least with
    | 0 => p.plus.optional
    | n + 1 => seqs (List.replicate n p ++ [p.plus])

end Pattern

end AccessControl.Regex
