import AccessControl.Regex.Pattern

namespace AccessControl.Regex

/-- An expression at a place of a text, with a mark on each character place that the last character
has passed. Inner nodes know whether the empty text matches them here, and whether an attempt at
them is complete here. -/
inductive Marked
  | empty
  | chars (mark : Bool) (k : CharClass)
  | anchor (holds : Bool) (a : Anchor)
  | seq (nullable complete : Bool) (p q : Marked)
  | alt (nullable complete : Bool) (p q : Marked)
  | plus (nullable complete : Bool) (p : Marked)

namespace Marked

def nullable : Marked → Bool
  | empty => true
  | chars .. => false
  | anchor holds _ => holds
  | seq nullable .. | alt nullable .. | plus nullable .. => nullable

def complete : Marked → Bool
  | empty | anchor .. => false
  | chars mark _ => mark
  | seq _ complete .. | alt _ complete .. | plus _ complete _ => complete

def mkSeq (p q : Marked) : Marked :=
  seq (p.nullable && q.nullable) (q.complete || (p.complete && q.nullable)) p q

def mkAlt (p q : Marked) : Marked :=
  alt (p.nullable || q.nullable) (p.complete || q.complete) p q

def mkPlus (p : Marked) : Marked :=
  plus p.nullable p.complete p

/-- An expression that no attempt has been made at. -/
def ofPattern (here : Place) : Pattern → Marked
  | .empty => empty
  | .chars k => chars false k
  | .anchor a => anchor (a.holds here) a
  | .seq p q => mkSeq (ofPattern here p) (ofPattern here q)
  | .alt p q => mkAlt (ofPattern here p) (ofPattern here q)
  | .plus p => mkPlus (ofPattern here p)

/-- Moves the marks over a character to the place behind it; `enter` begins a new attempt before
it. -/
def shift (behind : Place) (g : Glyph) (enter : Bool) : Marked → Marked
  | empty => empty
  | chars _ k => chars (enter && k.contains g) k
  | anchor _ a => anchor (a.holds behind) a
  | seq _ _ p q =>
    mkSeq (p.shift behind g enter) (q.shift behind g (p.complete || (enter && p.nullable)))
  | alt _ _ p q => mkAlt (p.shift behind g enter) (q.shift behind g enter)
  | plus _ complete p => mkPlus (p.shift behind g (enter || complete))

/-- Whether a match ends here or further on. -/
def search (p : Marked) : List Glyph → Bool
  | [] => p.complete || p.nullable
  | g :: gs =>
    p.complete || p.nullable || (p.shift (.between (some g) gs.head?) g true).search gs

end Marked

/-- Whether some part of the text matches. -/
def Pattern.occursIn (p : Pattern) (text : String) : Bool :=
  let glyphs := text.toList.map Glyph.ofChar
  (Marked.ofPattern (.between none glyphs.head?) p).search glyphs

end AccessControl.Regex
