namespace AccessControl.Text

def isSymbolStart (c : Char) : Bool :=
  c.isAlpha || c == '_'

def isSymbolPart (c : Char) : Bool :=
  c.isAlphanum || c == '_'

def isSymbol : List Char → Bool
  | [] => false
  | c :: cs => isSymbolStart c && cs.all isSymbolPart

theorem isSymbolPart_of_isSymbolStart {c : Char} (h : isSymbolStart c) : isSymbolPart c := by
  simp only [isSymbolStart, isSymbolPart, Char.isAlphanum, Bool.or_eq_true] at h ⊢
  exact h.imp_left .inl

end AccessControl.Text
