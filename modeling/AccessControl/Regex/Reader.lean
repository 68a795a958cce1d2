import AccessControl.Regex.Token

namespace AccessControl.Regex

/-- The deepest nesting of sequences, alternatives, repetitions, groups and bracketed classes. -/
def maxHeight : Nat := 250

/-- The most places that an expression may have when its repetitions are written out. -/
def maxPlaces : Nat := 0x50000

/-- A part of an expression, with how deep it nests and how many characters it has places for. -/
structure Part where
  pattern : Pattern
  height : Nat
  places : Nat

namespace Part

def empty : Part := ⟨.empty, 0, 0⟩

/-- One level above parts that nest as deep as given. -/
def above (heights : List Nat) : Nat :=
  heights.foldl max 0 + 1

def together (places : List Nat) : Nat :=
  places.foldl Nat.add 0

def seqs : List Part → Part
  | [] => empty
  | [p] => p
  | ps => ⟨.seqs (ps.map (·.pattern)), above (ps.map (·.height)), together (ps.map (·.places))⟩

/-- The last alternative comes first, and it may be the only one. -/
def alts : List Part → Part
  | [] => empty
  | [p] => p
  | p :: ps =>
    ⟨ps.foldl (fun later q => .alt q.pattern later) p.pattern,
      above ((p :: ps).map (·.height)), together ((p :: ps).map (·.places))⟩

def group (p : Part) : Part :=
  { p with height := p.height + 1 }

/-- To repeat what has no places more than once changes nothing. -/
def times? (p : Part) (least : Nat) (most : Option Nat) : Option Part :=
  let cap (n : Nat) : Nat := if p.places = 0 then min n 1 else n
  let places := p.places * max 1 (most.getD least)
  if maxPlaces < places then none
  else some ⟨p.pattern.times (cap least) (most.map cap), p.height + 1, places⟩

end Part

/-- A group under construction: the alternatives before the last bar, and the sequence since, both
latest first. Only what stands right behind a repeatable part may repeat it. -/
structure Level where
  alternatives : List Part
  sequence : List Part
  ignoreCase : Bool
  repeatable : Bool

namespace Level

def start (ignoreCase : Bool) : Level := ⟨[], [], ignoreCase, false⟩

def add (l : Level) (p : Part) : Level :=
  { l with sequence := p :: l.sequence, repeatable := true }

def addClass (l : Level) (negated : Bool) (items : List ClassItem) (height : Nat) : Level :=
  l.add ⟨.chars ⟨negated, l.ignoreCase, items⟩, height, 1⟩

def nextAlternative (l : Level) : Level :=
  ⟨Part.seqs l.sequence.reverse :: l.alternatives, [], l.ignoreCase, false⟩

def whole (l : Level) : Part :=
  Part.alts (Part.seqs l.sequence.reverse :: l.alternatives)

/-- Repeats the part added last. -/
def times? (l : Level) (least : Nat) (most : Option Nat) : Option Level :=
  match l.repeatable, l.sequence with
  | true, p :: ps => (p.times? least most).map fun p => { l with sequence := p :: ps }
  | _, _ => none

end Level

/-- The innermost group under construction, those around it, and the names given so far. -/
structure Reader where
  level : Level
  outer : List Level
  names : List (List Char)

namespace Reader

def step? (r : Reader) : Token → Option Reader
  | .single item => some { r with level := r.level.addClass false [item] 0 }
  | .dot => some { r with level := r.level.addClass true [Token.literal '\n'] 0 }
  | .bracket negated items =>
    some { r with level := r.level.addClass negated items (if items.length < 2 then 1 else 2) }
  | .anchor a => some { r with level := r.level.add ⟨.anchor a, 0, 0⟩ }
  | .openGroup name ignoreCase =>
    if name.any r.names.contains then none
    else some ⟨.start (ignoreCase.getD r.level.ignoreCase), r.level :: r.outer,
      name.toList ++ r.names⟩
  | .closeGroup => match r.outer with
    | [] => none
    | l :: outer => some { r with level := l.add r.level.whole.group, outer }
  | .bar => some { r with level := r.level.nextAlternative }
  | .times least most => (r.level.times? least most).map fun l => { r with level := l }
  | .ignoreCase on =>
    let level := r.level.add .empty
    some { r with level := { level with ignoreCase := on, repeatable := false } }

end Reader

/-- The expression that a text spells, if it is well formed and within the limits. Code points in
hexadecimal, properties of characters, flags other than the one for case, classes inside classes and
combinations of classes are left out: a text that has any of them spells nothing here. -/
def Pattern.parse? (text : String) : Option Pattern := do
  let tokens ← Token.scan? text.toList
  let r ← tokens.foldlM Reader.step? ⟨.start false, [], []⟩
  let whole := r.level.whole
  if r.outer.isEmpty && whole.height ≤ maxHeight && whole.places ≤ maxPlaces then
    return whole.pattern
  else none

end AccessControl.Regex
