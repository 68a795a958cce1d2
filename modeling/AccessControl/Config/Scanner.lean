import AccessControl.Config.Parser

namespace AccessControl.Config

open Text

/-- What is still to come of a text, and where that starts. -/
structure Scanner where
  rest : List Char
  position : Position

namespace Scanner

def bump (s : Scanner) : Scanner :=
  match s.rest with
  | [] => s
  | c :: cs => ⟨cs, s.position.next c⟩

def takeFrom (pass : Char → Bool) (p : Position) : List Char → List Char × Scanner
  | [] => ([], ⟨[], p⟩)
  | c :: cs =>
    if pass c then
      let (taken, s) := takeFrom pass (p.next c) cs
      (c :: taken, s)
    else ([], ⟨c :: cs, p⟩)

/-- Takes characters for as long as they pass. -/
def takeWhile (pass : Char → Bool) (s : Scanner) : List Char × Scanner :=
  takeFrom pass s.position s.rest

def skipComment (s : Scanner) : Scanner :=
  (s.takeWhile (· != '\n')).2

def isInlineSpace (c : Char) : Bool :=
  c != '\n' && isBlank c

def skipInlineSpace (s : Scanner) : Scanner :=
  (s.takeWhile isInlineSpace).2

/-- Takes the blanks behind the header of `g`. -/
def headerEnd (g : Gathered) (s : Scanner) : Except SyntaxError (Gathered × Scanner) :=
  let behind := s.skipInlineSpace
  match behind.rest with
  | [] | '\n' :: _ | '#' :: _ => .ok (g, behind)
  | c :: _ => .error ⟨.afterHeader c g.name, behind.position⟩

/-- Takes a header and the blanks behind it. -/
def header (s : Scanner) : Except SyntaxError (Gathered × Scanner) :=
  let inside := s.bump
  match inside.rest with
  | [] | '\n' :: _ => .error ⟨.headerWithoutName, inside.position⟩
  | c :: _ =>
    if !c.isLower then .error ⟨.sectionNameStart c, inside.position⟩
    else
      let (name, stop) := inside.takeWhile isSectionNamePart
      match stop.rest with
      | [] | '\n' :: _ => .error ⟨.unterminatedHeader (.ofList name), stop.position⟩
      | ']' :: _ => headerEnd ⟨.ofList name, s.position, []⟩ stop.bump
      | c :: _ => .error ⟨.sectionNameCharacter c, stop.position⟩

/-- Takes an entry, up to its comment or the end of its line. -/
def entry (s : Scanner) : Except SyntaxError (Entry × Scanner) :=
  let (key, stop) := s.takeWhile isSymbolPart
  let separator := stop.skipInlineSpace
  let name := String.ofList key
  match separator.rest with
  | [] => .error ⟨.endBeforeSeparator name, separator.position⟩
  | '\n' :: _ | '#' :: _ => .error ⟨.missingSeparator name, separator.position⟩
  | c :: rest =>
    if Line.isRelational c && rest.head? == some '=' then
      .error ⟨.relationalSeparator c name, separator.position⟩
    else if c != '=' then .error ⟨.wrongSeparator c name, separator.position⟩
    else
      let (value, behind) := separator.bump.takeWhile fun c => c != '\n' && c != '#'
      .ok (⟨name, s.position, .ofList (trim value), separator.position⟩, behind)

/-- Puts an entry into the last of the sections, or the first one into the default section. -/
def addEntry (e : Entry) : List Gathered → List Gathered
  | [] => [⟨defaultSection, e.keyPosition, [e]⟩]
  | [g] => [{ g with entries := g.entries ++ [e] }]
  | g :: g' :: gs => g :: addEntry e (g' :: gs)

theorem length_takeFrom_le (pass : Char → Bool) (p : Position) (cs : List Char) :
    (takeFrom pass p cs).2.rest.length ≤ cs.length := by
  induction cs generalizing p with
  | nil => exact Nat.le_refl 0
  | cons c cs ih =>
    rw [takeFrom]
    split
    · exact Nat.le_succ_of_le (ih _)
    · exact Nat.le_refl _

theorem length_takeWhile_le (pass : Char → Bool) (s : Scanner) :
    (s.takeWhile pass).2.rest.length ≤ s.rest.length :=
  length_takeFrom_le pass s.position s.rest

theorem length_bump_lt {s : Scanner} {c : Char} {cs : List Char} (h : s.rest = c :: cs) :
    s.bump.rest.length < s.rest.length := by
  simp [bump, h]

theorem length_bump_le (s : Scanner) : s.bump.rest.length ≤ s.rest.length := by
  cases h : s.rest with
  | nil => simp [bump, h]
  | cons c cs => exact h ▸ Nat.le_of_lt (length_bump_lt h)

theorem length_skipComment_lt {s : Scanner} {cs : List Char} (h : s.rest = '#' :: cs) :
    s.skipComment.rest.length < s.rest.length := by
  rw [skipComment, takeWhile, h, takeFrom, if_pos (by decide)]
  exact Nat.lt_succ_of_le (length_takeFrom_le _ _ cs)

theorem length_headerEnd_le {s s' : Scanner} {g g' : Gathered} (h : headerEnd g s = .ok (g', s')) :
    s'.rest.length ≤ s.rest.length := by
  simp only [headerEnd] at h
  split at h
  case h_4 => cases h
  all_goals
    cases h
    exact length_takeWhile_le isInlineSpace s

theorem length_header_lt {s s' : Scanner} {g : Gathered} (h : s.header = .ok (g, s')) :
    s'.rest.length < s.rest.length := by
  simp only [header] at h
  split at h
  · cases h
  · cases h
  split at h
  · cases h
  split at h
  · cases h
  · cases h
  · next hstop =>
    have hend := length_headerEnd_le h
    have hbracket := length_bump_lt hstop
    have hname := length_takeWhile_le isSectionNamePart s.bump
    have hbump := length_bump_le s
    omega
  · cases h

theorem length_entry_lt {s s' : Scanner} {e : Entry} (h : s.entry = .ok (e, s')) :
    s'.rest.length < s.rest.length := by
  simp only [entry] at h
  split at h
  · cases h
  · cases h
  · cases h
  next c rest _ _ hstop =>
  split at h
  · cases h
  split at h
  · cases h
  cases h
  have hlt := length_bump_lt hstop
  have hkey := length_takeWhile_le isSymbolPart s
  have hspace := length_takeWhile_le isInlineSpace (s.takeWhile isSymbolPart).2
  have hvalue := length_takeWhile_le (fun c => c != '\n' && c != '#')
    (s.takeWhile isSymbolPart).2.skipInlineSpace.bump
  rw [skipInlineSpace] at hlt hvalue ⊢
  omega

/-- Takes all that is still to come; `found` are the sections so far. -/
def run (s : Scanner) (found : List Gathered) : Except SyntaxError (List Gathered) :=
  match _hrest : s.rest with
  | [] => .ok found
  | c :: _ =>
    if c = '#' then run s.skipComment found
    else if c = '[' then
      match _hheader : s.header with
      | .ok (g, s) => run s (found ++ [g])
      | .error e => .error e
    else if isBlank c then run s.bump found
    else if isSymbolStart c then
      match _hentry : s.entry with
      | .ok (e, s) => run s (addEntry e found)
      | .error e => .error e
    else .error ⟨.strayCharacter c, s.position⟩
termination_by s.rest.length
decreasing_by
  · next hc => exact length_skipComment_lt (hc ▸ _hrest)
  · exact length_header_lt _hheader
  · exact length_bump_lt _hrest
  · exact length_entry_lt _hentry

end Scanner

/-- The sections are checked when all of the text has been taken. -/
def Document.scan (text : String) : Except SyntaxError Document := do
  let gathered ← Scanner.run ⟨text.toList, .start⟩ []
  let sections ← checkSections [] gathered
  return ⟨sections⟩

end AccessControl.Config
