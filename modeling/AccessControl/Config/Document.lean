namespace AccessControl.Config

structure Section where
  name : String
  entries : List (String × String)
deriving DecidableEq

def Section.get? (s : Section) (key : String) : Option String :=
  s.entries.lookup key

structure Document where
  sections : List Section
deriving DecidableEq

/-- The section of entries that stand before every header. -/
def defaultSection : String := "default"

namespace Document

def section? (d : Document) (name : String) : Option Section :=
  d.sections.find? (·.name == name)

def get? (d : Document) (name key : String) : Option String :=
  (d.section? name).bind (·.get? key)

def renderEntry : String × String → String
  | (key, value) => s!"{key} = {value}\n"

def renderEntries (s : Section) : String :=
  String.join (s.entries.map renderEntry)

def renderSection (s : Section) : String :=
  s!"[{s.name}]\n" ++ renderEntries s

/-- Text that reads back as the document. Sections are set apart by an empty line, and a default
section that comes first goes without header. -/
def render (d : Document) : String :=
  match d.sections with
  | [] => ""
  | s :: rest =>
    (if s.name = defaultSection then renderEntries s else renderSection s) ++
      String.join (rest.map fun s => "\n" ++ renderSection s)

end Document

end AccessControl.Config
