import AccessControl.Config.Document
import AccessControl.Config.Line

namespace AccessControl.Config

open Text

/-- A section as gathered from the lines, not yet checked. -/
structure Gathered where
  name : String
  position : Position
  entries : List Entry

/-- The entries before the first header, and the sections after it. -/
def gather : List Line → List Entry × List Gathered
  | [] => ([], [])
  | .blank :: lines => gather lines
  | .entry e :: lines =>
    let (entries, sections) := gather lines
    (e :: entries, sections)
  | .header name p :: lines =>
    let (entries, sections) := gather lines
    ([], ⟨name, p, entries⟩ :: sections)

/-- The sections of a text; entries before the first header make up the default section. -/
def gatherSections (lines : List Line) : List Gathered :=
  match gather lines with
  | ([], sections) => sections
  | (e :: entries, sections) => ⟨defaultSection, e.keyPosition, e :: entries⟩ :: sections

/-- Checks the entries of the section `name`, of which the keys `seen` have gone before. -/
def checkEntries (name : String) (seen : List String) :
    List Entry → Except SyntaxError (List (String × String))
  | [] => .ok []
  | e :: entries =>
    if seen.contains e.key then .error ⟨.duplicateKey e.key name, e.keyPosition⟩
    else if e.value.isEmpty then .error ⟨.emptyValue e.key, e.separatorPosition⟩
    else do
      let rest ← checkEntries name (e.key :: seen) entries
      return (e.key, e.value) :: rest

/-- Checks the sections, of which the names `seen` have gone before. -/
def checkSections (seen : List String) : List Gathered → Except SyntaxError (List Section)
  | [] => .ok []
  | s :: sections =>
    if seen.contains s.name then .error ⟨.duplicateSection s.name, s.position⟩
    else if s.entries.isEmpty then .error ⟨.emptySection s.name, s.position⟩
    else do
      let entries ← checkEntries s.name [] s.entries
      let rest ← checkSections (s.name :: seen) sections
      return ⟨s.name, entries⟩ :: rest

/-- A malformed line is reported before any fault of the document as a whole. -/
def Document.parse (text : String) : Except SyntaxError Document := do
  let lines ← Line.readAll 1 (text.toList.splitOn '\n')
  let sections ← checkSections [] (gatherSections lines)
  return ⟨sections⟩

end AccessControl.Config
