import AccessControl.Proofs.Model.Matcher

namespace AccessControl.Matcher

open Text

theorem isName_of_isSymbol {word : List Char} (h : isSymbol word) : IsName word := by
  cases word with
  | nil => cases h
  | cons c part =>
    obtain ⟨hc, hpart⟩ : isSymbolStart c ∧ ∀ d ∈ part, isSymbolPart d := by
      simpa [isSymbol] using h
    exact ⟨c, part, [], hc, hpart, .inl rfl, by rw [List.append_nil]⟩

/-- A name is one lexeme before anything that can neither go on with it nor make it a call. -/
theorem longest_of_isName {word rest : List Char} (h : IsName word)
    (hstop : ∀ y ∈ rest.head?, isSymbolPart y = false ∧ y ≠ '?')
    (hrest : (rest.dropWhile isBlank).head? ≠ some '(') :
    Longest (.name (.ofList word)) word rest := by
  obtain ⟨c, part, mark, hc, hpart, hmark, rfl⟩ := h
  have hends : NameEnds mark rest := hmark.elim (fun hnil => .inr ⟨hnil, hstop⟩) .inl
  exact longest_name hc hpart hends hrest

theorem munches_name {word : List Char} (h : IsName word) :
    Munches word [.name (.ofList word)] := by
  have hlongest : Longest (.name (.ofList word)) word [] :=
    longest_of_isName h (fun _ hy => nomatch hy) (by simp)
  have hmunches := Munches.lexeme hlongest .nil
  rwa [List.append_nil] at hmunches

theorem munches_access {owner attr : List Char} (howner : IsName owner) (hattr : IsName attr) :
    Munches (owner ++ '.' :: attr) [.name (.ofList owner), .dot, .name (.ofList attr)] := by
  have hdot : Longest .dot ['.'] attr := by
    refine longest_single (by decide) rfl (Option.eq_none_iff_forall_ne_some.mpr fun op hop => ?_)
    obtain ⟨d, -, hdouble⟩ := Option.bind_eq_some_iff.mp hop
    have hsymbol := symbol_of_doubleOperator? hdouble
    cases op <;> cases hsymbol
  have hstop : ∀ y ∈ ('.' :: attr).head?, isSymbolPart y = false ∧ y ≠ '?' := by
    intro y hy
    cases hy
    decide
  have hcall : (('.' :: attr).dropWhile isBlank).head? ≠ some '(' := by
    have hblank : isBlank '.' = false := by decide
    simp [hblank]
  exact .lexeme (longest_of_isName howner hstop hcall) (.lexeme hdot (munches_name hattr))

section

variable {limit : Nat} (hlimit : 0 < limit)
include hlimit

theorem compile_name {name : String} (h : IsName name.toList) :
    Program.compile limit name = .ok ⟨name, [.fetch name]⟩ := by
  have hmunches := munches_name h
  rw [String.ofList_toList] at hmunches
  have hderives : Derives .disjunction [.name name] (.var name) := .loosen (by decide) .name
  exact Model.compile_eq_ok_iff.mpr ⟨_, parse_of_derives hmunches hderives hlimit, rfl⟩

theorem compile_access {owner attr : String} (howner : IsName owner.toList)
    (hattr : IsName attr.toList) : Program.compile limit (owner ++ "." ++ attr) =
      .ok ⟨owner ++ "." ++ attr, [.fetchPath owner [attr]]⟩ := by
  have hmunches := munches_access howner hattr
  rw [String.ofList_toList, String.ofList_toList] at hmunches
  have hsource : (owner ++ "." ++ attr).toList = owner.toList ++ '.' :: attr.toList := by
    rw [String.toList_append, String.toList_append, List.append_assoc]
    rfl
  rw [← hsource] at hmunches
  have hderives : Derives .disjunction [.name owner, .dot, .name attr] (.attr owner [attr]) :=
    .loosen (by decide) (.attr (.loosen (by decide) .name) .name)
  exact Model.compile_eq_ok_iff.mpr ⟨_, parse_of_derives hmunches hderives hlimit, rfl⟩

end

theorem eval_fetch (s : Scope) (source name : String) :
    (⟨source, [.fetch name]⟩ : Program).eval s = Traced.ofExcept (s.fetch name) := by
  cases h : s.fetch name <;> simp [Program.eval, run, Instruction.step, h]

theorem eval_fetchPath (s : Scope) (source name : String) (path : List String) :
    (⟨source, [.fetchPath name path]⟩ : Program).eval s =
      Traced.ofExcept (s.fetchPath name path) := by
  cases h : s.fetchPath name path <;> simp [Program.eval, run, Instruction.step, h]

/-- Under any limit that lets something pass, the source compiles, and in the scope it comes to the
result without a call. -/
def Yields (s : Scope) (source : String) (result : Except Failure Value) : Prop :=
  ∀ limit, 0 < limit → ∃ p, Program.compile limit source = .ok p ∧ p.eval s = ⟨result, []⟩

theorem yields_name {name : String} (h : IsName name.toList) (s : Scope) :
    Yields s name (s.fetch name) :=
  fun _ hlimit => ⟨_, compile_name hlimit h, eval_fetch s name name⟩

theorem yields_access {owner attr : String} (howner : IsName owner.toList)
    (hattr : IsName attr.toList) (s : Scope) :
    Yields s (owner ++ "." ++ attr) (s.fetchPath owner [attr]) :=
  fun _ hlimit => ⟨_, compile_access hlimit howner hattr, eval_fetchPath s _ owner [attr]⟩

end AccessControl.Matcher
