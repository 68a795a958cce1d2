import AccessControl.Matcher.Lexeme
import AccessControl.Proofs.Text.Stretch
import AccessControl.Proofs.Text.Symbol

namespace AccessControl.Matcher

open Text
open Lexeme (Kind)

/-- The value of a string and how it is written between quotes. A backslash goes before each quote,
may go before a backslash, and otherwise stands for itself. -/
inductive StringBody : List Char → List Char → Prop
  | nil : StringBody [] []
  | quote {value body} (h : StringBody value body) :
    StringBody ('"' :: value) ('\\' :: '"' :: body)
  | backslash {value body} (h : StringBody value body) :
    StringBody ('\\' :: value) ('\\' :: '\\' :: body)
  | plain {c value body} (hquote : c ≠ '"')
    (hback : c = '\\' → ∃ d rest, body = d :: rest ∧ d ≠ '\\') (h : StringBody value body) :
    StringBody (c :: value) (c :: body)

/-- A symbol, with or without a question mark at its end. -/
def IsName (word : List Char) : Prop :=
  ∃ c part mark, isSymbolStart c ∧ (∀ d ∈ part, isSymbolPart d) ∧ (mark = [] ∨ mark = ['?']) ∧
    word = c :: (part ++ mark)

/-- The lexemes that are always written the same. Between operands, `+` and `-` are signs too. -/
def Lexeme.Kind.symbol? : Kind → Option String
  | openParen => some "("
  | closeParen => some ")"
  | comma => some ","
  | dot => some "."
  | sign op => some op.symbol
  | operator op => if op = .add ∨ op = .sub then none else some op.symbol
  | _ => none

/-- A point and the digits behind it, if there are any. -/
def pointed : List Char → List Char
  | [] => []
  | f :: fs => '.' :: f :: fs

inductive Spelt : Kind → List Char → Prop
  | number {c ds fraction} (hc : c.isDigit) (hds : ∀ d ∈ ds, d.isDigit)
    (hfraction : ∀ d ∈ fraction, d.isDigit) :
    Spelt (.literal (.number (Decimal.ofPlaces (c :: ds) fraction))) (c :: (ds ++ pointed fraction))
  | string {value body} (h : StringBody value body) :
    Spelt (.literal (.string (.ofList value))) ('"' :: (body ++ ['"']))
  | name {word} (h : IsName word) : Spelt (.name (.ofList word)) word
  | callHead {word gap} (h : IsName word) (hgap : ∀ c ∈ gap, isBlank c) :
    Spelt (.callHead (.ofList word)) (word ++ (gap ++ ['(']))
  | symbol {k s} (h : k.symbol? = some s) : Spelt k s.toList

/-- Of all words that a text starts with and that spell a lexeme, `word` is the longest; `rest` is
the text behind it. -/
structure Longest (k : Kind) (word rest : List Char) : Prop where
  spelt : Spelt k word
  longest : ∀ k' word', Spelt k' word' → word' <+: word ++ rest → word'.length ≤ word.length

theorem stringBody_head {value rest : List Char} {d : Char} (h : StringBody value (d :: rest)) :
    d ≠ '"' := by
  cases h with
  | quote | backslash => decide
  | plain hquote => exact hquote

theorem stringBody?_append {value body : List Char} (h : StringBody value body)
    (rest : List Char) :
    Lexeme.stringBody? (body ++ '"' :: rest) = some (value, body.length + 1) := by
  induction h with
  | nil => rfl
  | quote _ ih => simp [Lexeme.stringBody?, ih]
  | backslash _ ih => simp [Lexeme.stringBody?, ih]
  | @plain c value body hquote hback h ih =>
    rw [List.cons_append, Lexeme.stringBody?.eq_5]
    · simp [ih]
    · exact hquote
    · intro cs hc hcs
      obtain ⟨d, ds, rfl, -⟩ := hback hc
      cases hcs
      exact stringBody_head h rfl
    · intro cs hc hcs
      obtain ⟨d, ds, rfl, hd⟩ := hback hc
      cases hcs
      exact hd rfl

theorem stringBody?_eq_some {cs value : List Char} {n : Nat}
    (h : Lexeme.stringBody? cs = some (value, n)) :
    ∃ body rest, cs = body ++ '"' :: rest ∧ StringBody value body ∧ n = body.length + 1 := by
  fun_induction Lexeme.stringBody? cs generalizing value n with
  | case1 => cases h
  | case2 rest =>
    cases h
    exact ⟨[], rest, rfl, .nil, rfl⟩
  | case3 cs ih =>
    obtain ⟨⟨value', n'⟩, hcs, heq⟩ := Option.map_eq_some_iff.mp h
    cases heq
    obtain ⟨body, rest, rfl, hbody, rfl⟩ := ih hcs
    exact ⟨_, rest, rfl, .quote hbody, rfl⟩
  | case4 cs ih =>
    obtain ⟨⟨value', n'⟩, hcs, heq⟩ := Option.map_eq_some_iff.mp h
    cases heq
    obtain ⟨body, rest, rfl, hbody, rfl⟩ := ih hcs
    exact ⟨_, rest, rfl, .backslash hbody, rfl⟩
  | case5 c cs hquote hescape hdouble ih =>
    obtain ⟨⟨value', n'⟩, hcs, heq⟩ := Option.map_eq_some_iff.mp h
    cases heq
    obtain ⟨body, rest, rfl, hbody, rfl⟩ := ih hcs
    have hback : c = '\\' → ∃ d ds, body = d :: ds ∧ d ≠ '\\' := by
      intro hc
      cases body with
      | nil => exact absurd rfl (hescape rest hc)
      | cons d ds =>
        refine ⟨d, ds, rfl, ?_⟩
        rintro rfl
        exact hdouble (ds ++ '"' :: rest) hc rfl
    exact ⟨c :: body, rest, rfl, .plain hquote hback hbody, rfl⟩

/-- A name ends where neither a further character nor a question mark can be added. -/
def NameEnds (mark rest : List Char) : Prop :=
  mark = ['?'] ∨ mark = [] ∧ ∀ y ∈ rest.head?, isSymbolPart y = false ∧ y ≠ '?'

theorem nameEnds_head {mark rest : List Char} (h : NameEnds mark rest) :
    ∀ y ∈ (mark ++ rest).head?, isSymbolPart y = false := by
  rcases h with rfl | ⟨rfl, h⟩
  · intro y hy
    cases hy
    decide
  · exact fun y hy => (h y hy).1

/-- Two ways to end a name at the same place are the same. -/
theorem nameEnds_unique {mark rest mark' rest' : List Char} (h : NameEnds mark rest)
    (hother : NameEnds mark' rest') (heq : mark ++ rest = mark' ++ rest') :
    mark = mark' ∧ rest = rest' := by
  rcases h with rfl | ⟨rfl, h⟩ <;> rcases hother with rfl | ⟨rfl, hother⟩
  · exact ⟨rfl, by simpa using heq⟩
  · have hrest' : rest' = '?' :: rest := heq.symm
    exact absurd rfl (hother '?' (by simp [hrest'])).2
  · have hrest : rest = '?' :: rest' := heq
    exact absurd rfl (h '?' (by simp [hrest])).2
  · exact ⟨rfl, heq⟩

theorem nameEnds_of_nil {mark : List Char} (hmark : mark = [] ∨ mark = ['?']) :
    NameEnds mark [] := by
  rcases hmark with rfl | rfl
  · exact .inr ⟨rfl, fun _ h => nomatch h⟩
  · exact .inl rfl

/-- In a call the name ends before the blanks. -/
theorem nameEnds_of_gap {mark gap back : List Char} (hmark : mark = [] ∨ mark = ['?'])
    (hgap : ∀ d ∈ gap, isBlank d) : NameEnds mark (gap ++ '(' :: back) := by
  rcases hmark with rfl | rfl
  · refine .inr ⟨rfl, fun y hy => ?_⟩
    cases gap with
    | nil =>
      cases hy
      decide
    | cons g gap =>
      cases hy
      have hg := hgap y List.mem_cons_self
      constructor
      · refine Bool.eq_false_iff.mpr fun hpart => ?_
        rw [isBlank_eq_false_of_isSymbolPart hpart] at hg
        cases hg
      · rintro rfl
        revert hg
        decide
  · exact .inl rfl

theorem exists_name_split (cs : List Char) : ∃ part mark rest, cs = part ++ (mark ++ rest) ∧
    (∀ d ∈ part, isSymbolPart d) ∧ NameEnds mark rest := by
  obtain ⟨part, rest, rfl, hpart, hrest⟩ := exists_append_stop isSymbolPart cs
  cases rest with
  | nil => exact ⟨part, [], [], rfl, hpart, .inr ⟨rfl, fun _ h => nomatch h⟩⟩
  | cons y rest =>
    by_cases hy : y = '?'
    · subst hy
      exact ⟨part, ['?'], rest, rfl, hpart, .inl rfl⟩
    · refine ⟨part, [], y :: rest, rfl, hpart, .inr ⟨rfl, fun z hz => ?_⟩⟩
      cases hz
      exact ⟨hrest y rfl, hy⟩

theorem isName_of_split {c : Char} {part mark rest : List Char} (hc : isSymbolStart c)
    (hpart : ∀ d ∈ part, isSymbolPart d) (hends : NameEnds mark rest) :
    IsName (c :: (part ++ mark)) := by
  refine ⟨c, part, mark, hc, hpart, ?_, rfl⟩
  rcases hends with rfl | ⟨rfl, -⟩
  · exact .inr rfl
  · exact .inl rfl

section

variable {c : Char} {part mark rest gap : List Char}

theorem munchName_parts (hpart : ∀ d ∈ part, isSymbolPart d) (hends : NameEnds mark rest) :
    (part ++ (mark ++ rest)).takeWhile isSymbolPart = part ∧
      (((part ++ (mark ++ rest)).dropWhile isSymbolPart).takeWhile (· == '?')).take 1 = mark ∧
      (part ++ (mark ++ rest)).drop (part.length + mark.length) = rest := by
  obtain ⟨htake, hdrop⟩ := takeWhile_append_stop hpart (nameEnds_head hends)
  refine ⟨htake, ?_, ?_⟩
  · rw [hdrop]
    rcases hends with rfl | ⟨rfl, h⟩
    · simp
    · cases rest with
      | nil => rfl
      | cons y rest =>
        have hy := (h y rfl).2
        simp [hy]
  · rw [← List.append_assoc, ← List.length_append]
    exact List.drop_left

theorem munchName_of_name (hpart : ∀ d ∈ part, isSymbolPart d) (hends : NameEnds mark rest)
    (hrest : (rest.dropWhile isBlank).head? ≠ some '(') :
    Lexeme.munchName c (part ++ (mark ++ rest)) =
      ⟨.name (.ofList (c :: (part ++ mark))), c :: (part ++ mark), (part ++ mark).length⟩ := by
  obtain ⟨htake, hmark, hdrop⟩ := munchName_parts hpart hends
  simp only [Lexeme.munchName, htake, hmark, hdrop, if_neg hrest, List.cons_append,
    List.length_append]

theorem openParen_stop (rest : List Char) : ∀ y ∈ ('(' :: rest).head?, isBlank y = false := by
  intro y hy
  cases hy
  decide

theorem munchName_of_callHead (hpart : ∀ d ∈ part, isSymbolPart d)
    (hends : NameEnds mark (gap ++ '(' :: rest)) (hgap : ∀ d ∈ gap, isBlank d) :
    Lexeme.munchName c (part ++ (mark ++ (gap ++ '(' :: rest))) =
      ⟨.callHead (.ofList (c :: (part ++ mark))), c :: (part ++ mark),
        (part ++ mark ++ (gap ++ ['('])).length⟩ := by
  obtain ⟨htake, hmark, hdrop⟩ := munchName_parts hpart hends
  obtain ⟨hgapTake, hgapDrop⟩ := takeWhile_append_stop hgap (openParen_stop rest)
  simp only [Lexeme.munchName, htake, hmark, hdrop, hgapTake, hgapDrop, List.cons_append]
  simp [Nat.add_assoc]

theorem name_length_le {word back : List Char} (hpart : ∀ d ∈ part, isSymbolPart d)
    (hends : NameEnds mark rest) (hword : IsName word)
    (heq : word ++ back = c :: (part ++ (mark ++ rest))) :
    word.length ≤ (c :: (part ++ mark)).length := by
  obtain ⟨c', part', mark', -, hpart', hmark', rfl⟩ := hword
  rw [List.cons_append, List.append_assoc] at heq
  obtain ⟨rfl, htail⟩ := List.cons.inj heq
  rcases hmark' with rfl | rfl
  · have hle := length_le_of_append_stop hpart' hpart (nameEnds_head hends) htail
    simp only [List.length_cons, List.length_append, List.length_nil]
    omega
  · have hends' : NameEnds ['?'] back := .inl rfl
    obtain ⟨rfl, hmark⟩ :=
      append_stop_unique hpart' (nameEnds_head hends') hpart (nameEnds_head hends) htail
    obtain ⟨rfl, -⟩ := nameEnds_unique hends' hends hmark
    exact Nat.le_refl _

theorem callHead_unique {word back : List Char} (hpart : ∀ d ∈ part, isSymbolPart d)
    (hends : NameEnds mark rest) (hword : IsName word) (hgap : ∀ d ∈ gap, isBlank d)
    (heq : word ++ (gap ++ '(' :: back) = c :: (part ++ (mark ++ rest))) :
    word = c :: (part ++ mark) ∧ rest = gap ++ '(' :: back := by
  obtain ⟨c', part', mark', -, hpart', hmark', rfl⟩ := hword
  rw [List.cons_append, List.append_assoc] at heq
  obtain ⟨rfl, htail⟩ := List.cons.inj heq
  have hends' := @nameEnds_of_gap mark' gap back hmark' hgap
  obtain ⟨rfl, hmark⟩ :=
    append_stop_unique hpart' (nameEnds_head hends') hpart (nameEnds_head hends) htail
  obtain ⟨rfl, hrest⟩ := nameEnds_unique hends' hends hmark
  exact ⟨rfl, hrest.symm⟩

end

/-- A number ends where neither a digit nor a point with a digit can be added. -/
structure NumberEnds (ds fraction rest : List Char) : Prop where
  hds : ∀ d ∈ ds, d.isDigit
  hfraction : ∀ d ∈ fraction, d.isDigit
  hstop : ∀ y ∈ rest.head?, y.isDigit = false
  hpoint : fraction = [] → ∀ z back, rest = '.' :: z :: back → z.isDigit = false

theorem exists_number_split (cs : List Char) : ∃ ds fraction rest,
    cs = ds ++ (pointed fraction ++ rest) ∧ NumberEnds ds fraction rest := by
  obtain ⟨ds, rest, rfl, hds, hrest⟩ := exists_append_stop Char.isDigit cs
  by_cases hpoint : ∃ f fs, rest = '.' :: f :: fs ∧ f.isDigit
  · obtain ⟨f, fs, rfl, hf⟩ := hpoint
    obtain ⟨fs, rest, rfl, hfs, hstop⟩ := exists_append_stop Char.isDigit fs
    have hfraction : ∀ d ∈ f :: fs, d.isDigit := List.forall_mem_cons.mpr ⟨hf, hfs⟩
    exact ⟨ds, f :: fs, rest, rfl, hds, hfraction, hstop, fun h => nomatch h⟩
  · refine ⟨ds, [], rest, rfl, hds, (fun _ h => nomatch h), hrest, fun _ z back hz => ?_⟩
    exact Bool.eq_false_iff.mpr fun hdigit => hpoint ⟨z, back, hz, hdigit⟩

section

variable {c : Char} {ds fraction rest : List Char}

theorem numberEnds_head (h : NumberEnds ds fraction rest) :
    ∀ y ∈ (pointed fraction ++ rest).head?, y.isDigit = false := by
  cases fraction with
  | nil => exact h.hstop
  | cons f fs =>
    intro y hy
    cases hy
    decide

theorem readSign_of_isDigit (hc : c.isDigit) (cs : List Char) :
    Decimal.readSign (c :: cs) = (false, c :: cs) := by
  have hminus : c ≠ '-' := by
    rintro rfl
    cases hc
  have hplus : c ≠ '+' := by
    rintro rfl
    cases hc
  exact Decimal.readSign.eq_3 _ (fun _ h => hminus (List.cons.inj h).1)
    fun _ h => hplus (List.cons.inj h).1

theorem readPlaces?_number (hds : ∀ d ∈ ds, d.isDigit) (hne : ds ≠ [])
    (hfraction : ∀ d ∈ fraction, d.isDigit) :
    Decimal.readPlaces? (ds ++ pointed fraction) = some (ds, fraction, []) := by
  have hnil : ∀ d ∈ ([] : List Char).head?, d.isDigit = false := fun _ h => nomatch h
  cases fraction with
  | nil =>
    obtain ⟨htake, hdrop⟩ := takeWhile_append_stop hds hnil
    rw [List.append_nil] at htake hdrop
    simp [Decimal.readPlaces?, pointed, htake, hdrop, hne]
  | cons f fs =>
    obtain ⟨htake, hdrop⟩ := takeWhile_append_stop hds
      (stop_cons (by decide : '.'.isDigit = false) (f :: fs))
    obtain ⟨htake', hdrop'⟩ := takeWhile_append_stop hfraction hnil
    rw [List.append_nil] at htake' hdrop'
    simp [Decimal.readPlaces?, pointed, htake, hdrop, htake', hdrop']

/-- Digits with at most one point among them spell the number that they seem to. -/
theorem read?_number (hc : c.isDigit) (hds : ∀ d ∈ ds, d.isDigit)
    (hfraction : ∀ d ∈ fraction, d.isDigit) :
    Decimal.read? (.ofList (c :: (ds ++ pointed fraction))) =
      some (Decimal.ofPlaces (c :: ds) fraction) := by
  have hwhole : ∀ d ∈ c :: ds, d.isDigit := List.forall_mem_cons.mpr ⟨hc, hds⟩
  have hplaces := readPlaces?_number hwhole (List.cons_ne_nil c ds) hfraction
  -- The names of infinity and of what is no number start with letters.
  have hnamed (name : String) (hname : ∀ d ∈ name.toList.head?, d.isDigit = false) :
      String.ofList (List.map Char.toLower (c :: (ds ++ pointed fraction))) ≠ name := by
    rintro rfl
    rw [String.toList_ofList, List.map_cons, toLower_of_isDigit hc, List.head?_cons] at hname
    rw [hname c rfl] at hc
    cases hc
  rw [Decimal.read?, String.toList_ofList, readSign_of_isDigit hc]
  rw [List.cons_append] at hplaces
  simp only [hplaces, Bool.false_eq_true, if_false]
  split
  · next h => exact absurd h (hnamed "inf" (by simp))
  · next h => exact absurd h (hnamed "infinity" (by simp))
  · next h => exact absurd h (hnamed "nan" (by simp))
  · simp [Decimal.readExponent?, Decimal.ofPlaces]

theorem munchNumber_of_split (hc : c.isDigit) (h : NumberEnds ds fraction rest) (p : Position) :
    Lexeme.munchNumber p c (ds ++ (pointed fraction ++ rest)) =
      if rest.head?.any isSymbolStart then
        .error (.unexpectedToken (.ofList (c :: (ds ++ pointed fraction))) p .invalidNumber)
      else .ok ⟨.literal (.number (Decimal.ofPlaces (c :: ds) fraction)),
        c :: (ds ++ pointed fraction), (ds ++ pointed fraction).length⟩ := by
  obtain ⟨htake, hdrop⟩ := takeWhile_append_stop h.hds (numberEnds_head h)
  have hrest : (ds ++ (pointed fraction ++ rest)).drop (ds ++ pointed fraction).length = rest := by
    rw [← List.append_assoc]
    exact List.drop_left
  have hfraction : Lexeme.fractionAt (pointed fraction ++ rest) = fraction := by
    cases fraction with
    | cons f fs => exact (takeWhile_append_stop h.hfraction h.hstop).1
    | nil =>
      rw [pointed, List.nil_append]
      unfold Lexeme.fractionAt
      split
      · next back =>
        cases back with
        | nil => rfl
        | cons z back =>
          have hz := h.hpoint rfl z back rfl
          simp [hz]
      · rfl
  have htext : (if fraction.isEmpty then c :: ds else c :: ds ++ '.' :: fraction) =
      c :: (ds ++ pointed fraction) := by
    cases fraction <;> simp [pointed]
  simp only [Lexeme.munchNumber, htake, hdrop, hfraction, htext, List.length_cons,
    Nat.add_sub_cancel, hrest, read?_number hc h.hds h.hfraction]

theorem number_length_le {ds' fraction' back : List Char} (h : NumberEnds ds fraction rest)
    (hds : ∀ d ∈ ds', d.isDigit) (hfraction : ∀ d ∈ fraction', d.isDigit)
    (heq : (ds' ++ pointed fraction') ++ back = ds ++ (pointed fraction ++ rest)) :
    (ds' ++ pointed fraction').length ≤ (ds ++ pointed fraction).length := by
  cases fraction' with
  | nil =>
    rw [pointed, List.append_nil] at heq ⊢
    have hle := length_le_of_append_stop hds h.hds (numberEnds_head h) heq
    rw [List.length_append]
    omega
  | cons f' fs' =>
    have hstop : ∀ y ∈ (pointed (f' :: fs') ++ back).head?, y.isDigit = false := by
      intro y hy
      cases hy
      decide
    rw [List.append_assoc] at heq
    obtain ⟨rfl, hpointed⟩ := append_stop_unique hds hstop h.hds (numberEnds_head h) heq
    cases fraction with
    | nil =>
      have hf := h.hpoint rfl f' (fs' ++ back) hpointed.symm
      rw [hfraction f' List.mem_cons_self] at hf
      cases hf
    | cons f fs =>
      have htail : (f' :: fs') ++ back = (f :: fs) ++ rest := List.tail_eq_of_cons_eq hpointed
      have hle := length_le_of_append_stop hfraction h.hfraction h.hstop htail
      simp only [List.length_append, pointed, List.length_cons] at hle ⊢
      omega

end

theorem spelt_of_symbol {k : Kind} {s : String} {word : List Char} (h : k.symbol? = some s)
    (hs : s.toList = word) : Spelt k word :=
  hs ▸ .symbol h

theorem UnaryOp.symbol_of_ofSymbol? {s : String} {op : UnaryOp}
    (h : UnaryOp.ofSymbol? s = some op) : op.symbol = s := by
  have hbeq := List.find?_some h
  exact eq_of_beq hbeq

theorem BinaryOp.symbol_of_ofSymbol? {s : String} {op : BinaryOp}
    (h : BinaryOp.ofSymbol? s = some op) : op.symbol = s := by
  have hbeq := List.find?_some h
  exact eq_of_beq hbeq

theorem symbol_of_doubleOperator? {c d : Char} {op : BinaryOp}
    (h : Lexeme.doubleOperator? c d = some op) : op.symbol.toList = [c, d] :=
  (congrArg String.toList (BinaryOp.symbol_of_ofSymbol? h)).trans String.toList_ofList

theorem spelt_of_doubleOperator {c d : Char} {op : BinaryOp}
    (h : Lexeme.doubleOperator? c d = some op) : Spelt (.operator op) [c, d] := by
  have hsymbol := symbol_of_doubleOperator? h
  cases op with
  | add | sub => cases hsymbol
  | _ => exact spelt_of_symbol rfl hsymbol

theorem spelt_of_single {c : Char} {k : Kind} (h : Lexeme.single? c = some k) : Spelt k [c] := by
  have hc : c.toString.toList = [c] := String.toList_singleton c
  unfold Lexeme.single? at h
  split at h
  case h_5 =>
    split at h
    · next op hop =>
      cases h
      exact spelt_of_symbol rfl ((UnaryOp.symbol_of_ofSymbol? hop).symm ▸ hc)
    · next hsign =>
      obtain ⟨op, hop, rfl⟩ := Option.map_eq_some_iff.mp h
      have hsymbol := BinaryOp.symbol_of_ofSymbol? hop
      cases op with
      | add | sub =>
        rw [← hsymbol] at hsign
        cases hsign
      | _ => exact spelt_of_symbol rfl (hsymbol.symm ▸ hc)
  all_goals
    cases h
    exact spelt_of_symbol rfl rfl

/-- Neither a blank nor the start of a number, a string or a name. -/
def IsSign (c : Char) : Prop :=
  isBlank c = false ∧ c.isDigit = false ∧ c ≠ '"' ∧ isSymbolStart c = false

instance (c : Char) : Decidable (IsSign c) :=
  inferInstanceAs (Decidable (_ ∧ _ ∧ _ ∧ _))

theorem symbol?_cases {k : Kind} {s : String} (h : k.symbol? = some s) :
    ∃ c word, s.toList = c :: word ∧ IsSign c ∧ ((word = [] ∧ Lexeme.single? c = some k) ∨
      ∃ d op, word = [d] ∧ Lexeme.doubleOperator? c d = some op ∧ k = .operator op) := by
  cases k with
  | literal | name | callHead => cases h
  | openParen | closeParen | comma | dot =>
    cases h
    exact ⟨_, _, rfl, by decide, .inl ⟨rfl, rfl⟩⟩
  | sign op =>
    cases op <;> cases h <;> exact ⟨_, _, rfl, by decide, .inl ⟨rfl, rfl⟩⟩
  | operator op =>
    cases op with
    | add | sub => cases h
    | mul | div | lt | gt =>
      cases h
      exact ⟨_, _, rfl, by decide, .inl ⟨rfl, rfl⟩⟩
    | le | ge | eq | ne | and | or =>
      cases h
      exact ⟨_, _, rfl, by decide, .inr ⟨_, _, rfl, rfl, rfl⟩⟩

theorem isName_head {c : Char} {word back : List Char} {w : List Char} (hw : IsName w)
    (h : c :: word = w ++ back) : isSymbolStart c := by
  obtain ⟨d, part, mark, hd, -, -, rfl⟩ := hw
  cases h
  exact hd

/-- The first character of a word tells what kind of lexeme it spells. -/
theorem spelt_cases {k : Kind} {c : Char} {word : List Char} (h : Spelt k (c :: word)) :
    (c.isDigit ∧ ∃ ds fraction, (∀ d ∈ ds, d.isDigit) ∧ (∀ d ∈ fraction, d.isDigit) ∧
      word = ds ++ pointed fraction ∧
      k = .literal (.number (Decimal.ofPlaces (c :: ds) fraction))) ∨
    (c = '"' ∧ ∃ value body, StringBody value body ∧ word = body ++ ['"'] ∧
      k = .literal (.string (.ofList value))) ∨
    (isSymbolStart c ∧ ((IsName (c :: word) ∧ k = .name (.ofList (c :: word))) ∨
      ∃ name gap, IsName name ∧ (∀ d ∈ gap, isBlank d) ∧ c :: word = name ++ (gap ++ ['(']) ∧
        k = .callHead (.ofList name))) ∨
    (IsSign c ∧ ((word = [] ∧ Lexeme.single? c = some k) ∨
      ∃ d op, word = [d] ∧ Lexeme.doubleOperator? c d = some op ∧ k = .operator op)) := by
  generalize hw : c :: word = w at h
  cases h with
  | number hc hds hfraction =>
    cases hw
    exact .inl ⟨hc, _, _, hds, hfraction, rfl, rfl⟩
  | string hbody =>
    cases hw
    exact .inr (.inl ⟨rfl, _, _, hbody, rfl, rfl⟩)
  | name hname =>
    have hc := isName_head hname (hw.trans (List.append_nil _).symm)
    exact .inr (.inr (.inl ⟨hc, .inl ⟨hname, rfl⟩⟩))
  | callHead hname hgap =>
    have hc := isName_head hname hw
    exact .inr (.inr (.inl ⟨hc, .inr ⟨_, _, hname, hgap, rfl, rfl⟩⟩))
  | symbol hsymbol =>
    obtain ⟨d, rest, hs, hd, hrest⟩ := symbol?_cases hsymbol
    cases hw.trans hs
    exact .inr (.inr (.inr ⟨hd, hrest⟩))

theorem exists_spelt_head {k : Kind} {word : List Char} (h : Spelt k word) :
    ∃ c rest, word = c :: rest := by
  cases h with
  | number | string => exact ⟨_, _, rfl⟩
  | name hname =>
    obtain ⟨_, _, _, _, _, _, rfl⟩ := hname
    exact ⟨_, _, rfl⟩
  | callHead hname =>
    obtain ⟨_, _, _, _, _, _, rfl⟩ := hname
    exact ⟨_, _, rfl⟩
  | symbol hsymbol =>
    obtain ⟨_, _, hs, -, -⟩ := symbol?_cases hsymbol
    exact ⟨_, _, hs⟩

theorem not_blank_of_spelt {k : Kind} {c : Char} {word : List Char} (h : Spelt k (c :: word)) :
    isBlank c = false := by
  rcases spelt_cases h with ⟨hc, -⟩ | ⟨rfl, -⟩ | ⟨hc, -⟩ | ⟨hc, -⟩
  · exact isBlank_eq_false_of_isSymbolPart (isSymbolPart_iff.mpr (.inr hc))
  · decide
  · exact isBlank_eq_false_of_isSymbolPart (isSymbolPart_of_isSymbolStart hc)
  · exact hc.1

section

variable {k : Kind} {c : Char} {word : List Char}

theorem spelt_of_digit (h : Spelt k (c :: word)) (hc : c.isDigit) :
    ∃ ds fraction, (∀ d ∈ ds, d.isDigit) ∧ (∀ d ∈ fraction, d.isDigit) ∧
      word = ds ++ pointed fraction ∧
      k = .literal (.number (Decimal.ofPlaces (c :: ds) fraction)) := by
  rcases spelt_cases h with ⟨-, h⟩ | ⟨rfl, -⟩ | ⟨hd, -⟩ | ⟨hd, -⟩
  · exact h
  · cases hc
  · simp [isDigit_eq_false_of_isSymbolStart hd] at hc
  · simp [hd.2.1] at hc

theorem spelt_of_quote (h : Spelt k ('"' :: word)) : ∃ value body, StringBody value body ∧
    word = body ++ ['"'] ∧ k = .literal (.string (.ofList value)) := by
  rcases spelt_cases h with ⟨hd, -⟩ | ⟨-, h⟩ | ⟨hd, -⟩ | ⟨hd, -⟩
  · cases hd
  · exact h
  · cases hd
  · exact absurd rfl hd.2.2.1

theorem spelt_of_isSymbolStart (h : Spelt k (c :: word)) (hc : isSymbolStart c) :
    (IsName (c :: word) ∧ k = .name (.ofList (c :: word))) ∨
      ∃ name gap, IsName name ∧ (∀ d ∈ gap, isBlank d) ∧ c :: word = name ++ (gap ++ ['(']) ∧
        k = .callHead (.ofList name) := by
  rcases spelt_cases h with ⟨hd, -⟩ | ⟨rfl, -⟩ | ⟨-, h⟩ | ⟨hd, -⟩
  · simp [isDigit_eq_false_of_isSymbolStart hc] at hd
  · cases hc
  · exact h
  · simp [hd.2.2.2] at hc

theorem spelt_of_isSign (h : Spelt k (c :: word)) (hc : IsSign c) :
    (word = [] ∧ Lexeme.single? c = some k) ∨
      ∃ d op, word = [d] ∧ Lexeme.doubleOperator? c d = some op ∧ k = .operator op := by
  rcases spelt_cases h with ⟨hd, -⟩ | ⟨rfl, -⟩ | ⟨hd, -⟩ | ⟨-, h⟩
  · simp [hc.2.1] at hd
  · exact absurd rfl hc.2.2.1
  · simp [hc.2.2.2] at hd
  · exact h

end

theorem pointed_injective {fraction fraction' : List Char}
    (h : pointed fraction = pointed fraction') : fraction = fraction' := by
  cases fraction <;> cases fraction' <;> simp_all [pointed]

/-- A word that ends in a parenthesis is no name. -/
theorem not_isName_of_callHead {name gap : List Char} (hname : IsName name)
    (hgap : ∀ d ∈ gap, isBlank d) : ¬IsName (name ++ (gap ++ ['('])) := by
  rintro ⟨c, part, mark, -, hpart, hmark, hword⟩
  rw [← List.append_nil mark] at hword
  obtain ⟨-, hnil⟩ := callHead_unique hpart (nameEnds_of_nil hmark) hname hgap hword
  simp at hnil

theorem spelt_unique {k k' : Kind} {w : List Char} (h : Spelt k w) (h' : Spelt k' w) : k = k' := by
  obtain ⟨c, word, rfl⟩ := exists_spelt_head h
  rcases spelt_cases h with ⟨hc, ds, fraction, hds, hfraction, rfl, rfl⟩ |
    ⟨rfl, value, body, hbody, rfl, rfl⟩ | ⟨hc, hletter⟩ | ⟨hc, hsign⟩
  · obtain ⟨ds', fraction', hds', hfraction', heq, rfl⟩ := spelt_of_digit h' hc
    have hends : NumberEnds ds fraction [] :=
      ⟨hds, hfraction, (fun _ h => nomatch h), fun _ _ _ h => nomatch h⟩
    have hends' : NumberEnds ds' fraction' [] :=
      ⟨hds', hfraction', (fun _ h => nomatch h), fun _ _ _ h => nomatch h⟩
    have hhead := numberEnds_head hends
    have hhead' := numberEnds_head hends'
    rw [List.append_nil] at hhead hhead'
    obtain ⟨rfl, hpointed⟩ := append_stop_unique hds hhead hds' hhead' heq
    rw [pointed_injective hpointed]
  · obtain ⟨value', body', hbody', heq, rfl⟩ := spelt_of_quote h'
    have hread := stringBody?_append hbody []
    rw [heq, stringBody?_append hbody' [], Option.some_inj, Prod.mk.injEq] at hread
    rw [hread.1]
  · rcases hletter with ⟨hname, rfl⟩ | ⟨name, gap, hname, hgap, hword, rfl⟩ <;>
      rcases spelt_of_isSymbolStart h' hc with
        ⟨hname', rfl⟩ | ⟨name', gap', hname', hgap', hword', rfl⟩
    · rfl
    · rw [hword'] at hname
      exact absurd hname (not_isName_of_callHead hname' hgap')
    · rw [hword] at hname'
      exact absurd hname' (not_isName_of_callHead hname hgap)
    · obtain ⟨d, part, mark, -, hpart, hmark, rfl⟩ := hname
      have hsplit : name' ++ (gap' ++ ['(']) = d :: (part ++ (mark ++ (gap ++ ['(']))) := by
        rw [← hword', hword]
        simp
      obtain ⟨rfl, -⟩ := callHead_unique hpart (nameEnds_of_gap hmark hgap) hname' hgap' hsplit
      rfl
  · rcases hsign with ⟨rfl, hk⟩ | ⟨d, op, rfl, hop, rfl⟩ <;>
      rcases spelt_of_isSign h' hc with ⟨hword, hk'⟩ | ⟨d', op', hword, hop', rfl⟩
    · exact Option.some.inj (hk.symm.trans hk')
    · cases hword
    · cases hword
    · cases hword
      rw [Option.some.inj (hop.symm.trans hop')]

section

variable {c : Char} {rest : List Char}

/-- The words that a text starts with start as it does. -/
theorem longest_of_cons {k : Kind} {word : List Char} (h : Spelt k (c :: word))
    (hle : ∀ k' word' back, Spelt k' (c :: word') → word' ++ back = word ++ rest →
      word'.length ≤ word.length) : Longest k (c :: word) rest := by
  refine ⟨h, fun k' w hw hprefix => ?_⟩
  obtain ⟨d, word', rfl⟩ := exists_spelt_head hw
  obtain ⟨back, hback⟩ := hprefix
  obtain ⟨rfl, htail⟩ := List.cons.inj hback
  exact Nat.succ_le_succ (hle k' word' back hw htail)

theorem longest_number {ds fraction : List Char} (hc : c.isDigit)
    (h : NumberEnds ds fraction rest) :
    Longest (.literal (.number (Decimal.ofPlaces (c :: ds) fraction)))
      (c :: (ds ++ pointed fraction)) rest := by
  refine longest_of_cons (.number hc h.hds h.hfraction) fun k' word' back hk' hback => ?_
  obtain ⟨ds', fraction', hds', hfraction', rfl, -⟩ := spelt_of_digit hk' hc
  rw [List.append_assoc ds] at hback
  exact number_length_le h hds' hfraction' hback

theorem longest_string {value body : List Char} (h : StringBody value body) :
    Longest (.literal (.string (.ofList value))) ('"' :: (body ++ ['"'])) rest := by
  refine longest_of_cons (.string h) fun k' word' back hk' hback => ?_
  obtain ⟨value', body', hbody', rfl, -⟩ := spelt_of_quote hk'
  rw [List.append_assoc, List.append_assoc] at hback
  change body' ++ '"' :: back = body ++ '"' :: rest at hback
  have hread := stringBody?_append h rest
  rw [← hback, stringBody?_append hbody' back, Option.some_inj, Prod.mk.injEq] at hread
  rw [List.length_append, List.length_append]
  exact Nat.le_of_eq hread.2

theorem longest_name {part mark : List Char} (hc : isSymbolStart c)
    (hpart : ∀ d ∈ part, isSymbolPart d) (hends : NameEnds mark rest)
    (hrest : (rest.dropWhile isBlank).head? ≠ some '(') :
    Longest (.name (.ofList (c :: (part ++ mark)))) (c :: (part ++ mark)) rest := by
  refine longest_of_cons (.name (isName_of_split hc hpart hends)) fun k' word' back hk' hback => ?_
  have hsplit : c :: word' ++ back = c :: (part ++ (mark ++ rest)) := by
    rw [List.cons_append, hback, List.append_assoc]
  rcases spelt_of_isSymbolStart hk' hc with ⟨hname, -⟩ | ⟨name, gap, hname, hgap, hword, -⟩
  · exact Nat.le_of_succ_le_succ (name_length_le hpart hends hname hsplit)
  · rw [hword, List.append_assoc, List.append_assoc, List.singleton_append] at hsplit
    obtain ⟨-, rfl⟩ := callHead_unique hpart hends hname hgap hsplit
    rw [(takeWhile_append_stop hgap (openParen_stop back)).2] at hrest
    exact absurd rfl hrest

theorem longest_callHead {part mark gap : List Char} (hc : isSymbolStart c)
    (hpart : ∀ d ∈ part, isSymbolPart d) (hends : NameEnds mark (gap ++ '(' :: rest))
    (hgap : ∀ d ∈ gap, isBlank d) :
    Longest (.callHead (.ofList (c :: (part ++ mark))))
      (c :: (part ++ mark ++ (gap ++ ['(']))) rest := by
  have hspelt := Spelt.callHead (isName_of_split hc hpart hends) hgap
  refine longest_of_cons hspelt fun k' word' back hk' hback => ?_
  have hsplit : c :: word' ++ back = c :: (part ++ (mark ++ (gap ++ '(' :: rest))) := by
    rw [List.cons_append, hback]
    simp
  rcases spelt_of_isSymbolStart hk' hc with ⟨hname, -⟩ | ⟨name, gap', hname, hgap', hword, -⟩
  · have hle := name_length_le hpart hends hname hsplit
    simp only [List.length_cons, List.length_append] at hle ⊢
    omega
  · rw [hword, List.append_assoc, List.append_assoc, List.singleton_append] at hsplit
    obtain ⟨rfl, hgaps⟩ := callHead_unique hpart hends hname hgap' hsplit
    obtain ⟨rfl, -⟩ :=
      append_stop_unique hgap (openParen_stop rest) hgap' (openParen_stop back) hgaps
    have hlen := congrArg List.length hword
    simp only [List.length_cons, List.length_append] at hlen ⊢
    omega

theorem longest_doubleOperator {d : Char} {op : BinaryOp} (hc : IsSign c)
    (h : Lexeme.doubleOperator? c d = some op) : Longest (.operator op) [c, d] rest := by
  refine longest_of_cons (spelt_of_doubleOperator h) fun k' word' back hk' _ => ?_
  rcases spelt_of_isSign hk' hc with ⟨rfl, -⟩ | ⟨_, _, rfl, -, -⟩
  · exact Nat.zero_le _
  · exact Nat.le_refl _

theorem longest_single {k : Kind} (hc : IsSign c) (h : Lexeme.single? c = some k)
    (hrest : rest.head?.bind (Lexeme.doubleOperator? c) = none) : Longest k [c] rest := by
  refine longest_of_cons (spelt_of_single h) fun k' word' back hk' hback => ?_
  rcases spelt_of_isSign hk' hc with ⟨rfl, -⟩ | ⟨d, op, rfl, hop, -⟩
  · exact Nat.le_refl _
  · have hrest' : rest = d :: back := hback.symm
    simp [hrest', hop] at hrest

theorem longest_unique {k k' : Kind} {word word' rest' : List Char} (h : Longest k word rest)
    (h' : Longest k' word' rest') (heq : word ++ rest = word' ++ rest') :
    k = k' ∧ word = word' ∧ rest = rest' := by
  have hle := h.longest k' word' h'.spelt ⟨rest', heq.symm⟩
  have hle' := h'.longest k word h.spelt ⟨rest, heq⟩
  obtain ⟨rfl, hrest⟩ := List.append_inj heq (Nat.le_antisymm hle' hle)
  exact ⟨spelt_unique h.spelt h'.spelt, rfl, hrest⟩

end

end AccessControl.Matcher
