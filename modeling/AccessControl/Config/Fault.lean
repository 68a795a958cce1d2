import AccessControl.Text.Position

namespace AccessControl.Config

open Text

/-- The first group concerns one line, the second the document as a whole. -/
inductive Fault
  | strayCharacter (c : Char)
  | headerWithoutName
  | sectionNameStart (c : Char)
  | sectionNameCharacter (c : Char)
  | unterminatedHeader (name : String)
  | afterHeader (c : Char) (name : String)
  | relationalSeparator (c : Char) (key : String)
  | endBeforeSeparator (key : String)
  | missingSeparator (key : String)
  | wrongSeparator (c : Char) (key : String)
  | duplicateSection (name : String)
  | emptySection (name : String)
  | duplicateKey (key name : String)
  | emptyValue (key : String)
deriving DecidableEq

def Fault.reason : Fault → String
  | strayCharacter c => s!"unexpected character '{c}'"
  | headerWithoutName => "unterminated section header"
  | sectionNameStart c => s!"section name must start with a lowercase letter, found '{c}'"
  | sectionNameCharacter c => s!"invalid character '{c}' in section name"
  | unterminatedHeader name => s!"unterminated section header '[{name}'"
  | afterHeader c name => s!"unexpected '{c}' after section header [{name}]"
  | relationalSeparator c key =>
    s!"relational operator '{c}=' where '=' separator was expected after key '{key}'"
  | endBeforeSeparator key => s!"end of input before '=' separator for key '{key}'"
  | missingSeparator key => s!"missing '=' separator after key '{key}'"
  | wrongSeparator c key => s!"unexpected '{c}' after key '{key}', expected '='"
  | duplicateSection name => s!"duplicate section [{name}]"
  | emptySection name => s!"section [{name}] has no entries"
  | duplicateKey key name => s!"duplicate key '{key}' in section [{name}]"
  | emptyValue key => s!"empty value for key '{key}'"

structure SyntaxError where
  fault : Fault
  position : Position
deriving DecidableEq

def SyntaxError.message (e : SyntaxError) : String :=
  s!"config syntax error at {e.position}: {e.fault.reason}"

end AccessControl.Config
