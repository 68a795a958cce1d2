import AccessControl.Text.Blank
import AccessControl.Text.CaseFold
import AccessControl.Text.WordCharacter

namespace AccessControl.Regex

open Text

/-- A character and the classes that it belongs to. -/
structure Letter where
  char : Char
  isDigit : Bool
  isWord : Bool
  isBlank : Bool

def Letter.ofChar (c : Char) : Letter :=
  ⟨c, isDecimalDigit c, isWordCharacter c, Text.isBlank c⟩

/-- A character of a text with its case variants, of which it is one. -/
structure Glyph where
  letter : Letter
  variants : List Letter

def Glyph.ofChar (c : Char) : Glyph :=
  ⟨.ofChar c, (caseVariants c.toNat).map fun n => .ofChar (Char.ofNat n)⟩

inductive ClassItem
  | range (first last : Char)
  | digit (negated : Bool)
  | word (negated : Bool)
  | space (negated : Bool)

def ClassItem.contains (l : Letter) : ClassItem → Bool
  | range first last => first ≤ l.char && l.char ≤ last
  | digit negated => l.isDigit != negated
  | word negated => l.isWord != negated
  | space negated => l.isBlank != negated

structure CharClass where
  negated : Bool
  ignoreCase : Bool
  items : List ClassItem

def CharClass.lists (k : CharClass) (l : Letter) : Bool :=
  k.items.any (·.contains l)

/-- Without regard to case a class holds all variants of what it lists; negation comes last. -/
def CharClass.contains (k : CharClass) (g : Glyph) : Bool :=
  (if k.ignoreCase then g.variants.any k.lists else k.lists g.letter) != k.negated

end AccessControl.Regex
