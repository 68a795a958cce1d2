import AccessControl.Proofs.Matcher.Spelling

namespace AccessControl.Matcher

open Text
open Lexeme (Kind munch scan)

/-- At the front of a text there is a lexeme, or a number that runs into a name, or no word at all
that spells a lexeme. -/
inductive Front (p : Position) (c : Char) (cs : List Char) : Prop
  | lexeme (k : Kind) (word rest text : List Char) (hcs : cs = word ++ rest)
    (hlongest : Longest k (c :: word) rest) (hmunch : munch p c cs = .ok ⟨k, text, word.length⟩)
  | glued (l : Literal) (word : List Char) (d : Char) (rest : List Char) (e : SyntaxError)
    (hcs : cs = word ++ d :: rest) (hlongest : Longest (.literal l) (c :: word) (d :: rest))
    (hd : isSymbolStart d) (hmunch : munch p c cs = .error e)
  | fault (e : SyntaxError) (hmunch : munch p c cs = .error e)
    (hnone : ∀ k word, Spelt k (c :: word) → ¬word <+: cs)

section

variable {p : Position} {c : Char} {cs : List Char}

theorem munch_digit (hc : c.isDigit) : munch p c cs = Lexeme.munchNumber p c cs := by
  rw [munch, if_pos hc]

theorem munch_quote : munch p '"' cs = Lexeme.munchString p cs := by
  rw [munch, if_neg (by decide), if_pos rfl]

theorem munch_letter (hc : isSymbolStart c) : munch p c cs = .ok (Lexeme.munchName c cs) := by
  have hdigit : ¬c.isDigit := by simp [isDigit_eq_false_of_isSymbolStart hc]
  have hquote : c ≠ '"' := by
    rintro rfl
    cases hc
  rw [munch, if_neg hdigit, if_neg hquote, if_pos hc]

theorem munch_sign (hc : IsSign c) : munch p c cs = Lexeme.munchSymbol p c cs := by
  rw [munch, if_neg (by simp [hc.2.1]), if_neg hc.2.2.1, if_neg (by simp [hc.2.2.2])]

theorem front_digit (hc : c.isDigit) : Front p c cs := by
  obtain ⟨ds, fraction, rest, rfl, hends⟩ := exists_number_split cs
  have hmunch := munchNumber_of_split hc hends p
  rw [← munch_digit hc] at hmunch
  have hcs := (List.append_assoc ds (pointed fraction) rest).symm
  by_cases hglued : rest.head?.any isSymbolStart
  · rw [if_pos hglued] at hmunch
    cases rest with
    | nil => cases hglued
    | cons d rest => exact .glued _ _ d rest _ hcs (longest_number hc hends) hglued hmunch
  · rw [if_neg hglued] at hmunch
    exact .lexeme _ _ rest _ hcs (longest_number hc hends) hmunch

theorem front_quote : Front p '"' cs := by
  have hmunch := @munch_quote p cs
  rw [Lexeme.munchString] at hmunch
  cases h : Lexeme.stringBody? cs with
  | none =>
    rw [h] at hmunch
    refine .fault _ hmunch fun k word hk hprefix => ?_
    obtain ⟨value, body, hbody, rfl, -⟩ := spelt_of_quote hk
    obtain ⟨back, rfl⟩ := hprefix
    rw [List.append_assoc, List.singleton_append, stringBody?_append hbody] at h
    cases h
  | some r =>
    obtain ⟨value, n⟩ := r
    obtain ⟨body, rest, rfl, hbody, rfl⟩ := stringBody?_eq_some h
    rw [h] at hmunch
    have hlen : body.length + 1 = (body ++ ['"']).length := by simp
    have hcs : body ++ '"' :: rest = (body ++ ['"']) ++ rest := by simp
    rw [hlen] at hmunch
    exact .lexeme _ _ rest _ hcs (longest_string hbody) hmunch

theorem front_letter (hc : isSymbolStart c) : Front p c cs := by
  obtain ⟨part, mark, rest, rfl, hpart, hends⟩ := exists_name_split cs
  obtain ⟨gap, back, rfl, hgap, hback⟩ := exists_append_stop isBlank rest
  have hdrop := (takeWhile_append_stop hgap hback).2
  by_cases hcall : back.head? = some '('
  · cases back with
    | nil => cases hcall
    | cons d back =>
      cases hcall
      have hmunch := @munchName_of_callHead c part mark back gap hpart hends hgap
      have hcs : part ++ (mark ++ (gap ++ '(' :: back)) =
          part ++ mark ++ (gap ++ ['(']) ++ back := by simp
      exact .lexeme _ _ back _ hcs (longest_callHead hc hpart hends hgap)
        ((munch_letter hc).trans (congrArg Except.ok hmunch))
  · rw [← hdrop] at hcall
    have hmunch := @munchName_of_name c part mark (gap ++ back) hpart hends hcall
    have hcs := (List.append_assoc part mark (gap ++ back)).symm
    exact .lexeme _ _ _ _ hcs (longest_name hc hpart hends hcall)
      ((munch_letter hc).trans (congrArg Except.ok hmunch))

theorem front_sign (hc : IsSign c) : Front p c cs := by
  have hmunch := @munch_sign p c cs hc
  rw [Lexeme.munchSymbol] at hmunch
  cases hdouble : cs.head?.bind (Lexeme.doubleOperator? c) with
  | some op =>
    obtain ⟨d, hd, hop⟩ := Option.bind_eq_some_iff.mp hdouble
    obtain ⟨rest, rfl⟩ := List.head?_eq_some_iff.mp hd
    rw [hdouble] at hmunch
    exact .lexeme _ [d] rest _ rfl (longest_doubleOperator hc hop) hmunch
  | none =>
    cases hsingle : Lexeme.single? c with
    | some k =>
      rw [hdouble, hsingle] at hmunch
      exact .lexeme k [] cs _ rfl (longest_single hc hsingle hdouble) hmunch
    | none =>
      rw [hdouble, hsingle] at hmunch
      refine .fault _ hmunch fun k word hk hprefix => ?_
      rcases spelt_of_isSign hk hc with ⟨-, hk⟩ | ⟨d, op, rfl, hop, -⟩
      · rw [hsingle] at hk
        cases hk
      · obtain ⟨back, rfl⟩ := hprefix
        simp [hop] at hdouble

theorem front (p : Position) (cs : List Char) (hc : isBlank c = false) : Front p c cs := by
  by_cases hdigit : c.isDigit
  · exact front_digit hdigit
  by_cases hquote : c = '"'
  · subst hquote
    exact front_quote
  by_cases hletter : isSymbolStart c
  · exact front_letter hletter
  · exact front_sign ⟨hc, by simpa using hdigit, hquote, by simpa using hletter⟩

end

/-- What a lexeme keeps of the word that spells it: all of it, but of a call head only the name. -/
def Lexeme.Kind.keep (k : Kind) (word : List Char) : String :=
  match k with
  | .callHead function => function
  | _ => .ofList word

theorem single?_keep {c : Char} {k : Kind} (h : Lexeme.single? c = some k) (word : List Char) :
    k.keep word = .ofList word := by
  unfold Lexeme.single? at h
  split at h
  case h_5 =>
    split at h
    · cases h
      rfl
    · obtain ⟨op, -, rfl⟩ := Option.map_eq_some_iff.mp h
      rfl
  all_goals
    cases h
    rfl

section

variable {p : Position} {c : Char} {cs : List Char} {m : Lexeme.Munch}

theorem munchNumber_keep (hc : c.isDigit) (h : Lexeme.munchNumber p c cs = .ok m) :
    .ofList m.text = m.kind.keep (c :: cs.take m.more) := by
  obtain ⟨ds, fraction, rest, rfl, hends⟩ := exists_number_split cs
  rw [munchNumber_of_split hc hends] at h
  split at h
  · cases h
  · cases h
    rw [← List.append_assoc, List.take_left]
    rfl

theorem munchString_keep (h : Lexeme.munchString p cs = .ok m) :
    .ofList m.text = m.kind.keep ('"' :: cs.take m.more) := by
  unfold Lexeme.munchString at h
  split at h
  · cases h
    rfl
  · cases h

theorem munchName_keep (c : Char) (cs : List Char) : .ofList (Lexeme.munchName c cs).text =
    (Lexeme.munchName c cs).kind.keep (c :: cs.take (Lexeme.munchName c cs).more) := by
  obtain ⟨part, mark, rest, rfl, hpart, hends⟩ := exists_name_split cs
  by_cases hcall : (rest.dropWhile isBlank).head? = some '('
  · obtain ⟨htake, hmark, hdrop⟩ := munchName_parts hpart hends
    simp only [Lexeme.munchName, htake, hmark, hdrop, if_pos hcall]
    rfl
  · rw [munchName_of_name hpart hends hcall, ← List.append_assoc, List.take_left]
    rfl

theorem munchSymbol_keep (h : Lexeme.munchSymbol p c cs = .ok m) :
    .ofList m.text = m.kind.keep (c :: cs.take m.more) := by
  unfold Lexeme.munchSymbol at h
  split at h
  · next op hdouble =>
    obtain ⟨d, hd, hop⟩ := Option.bind_eq_some_iff.mp hdouble
    obtain ⟨rest, rfl⟩ := List.head?_eq_some_iff.mp hd
    cases h
    exact congrArg String.ofList (symbol_of_doubleOperator? hop)
  · next kind _ hsingle =>
    cases h
    exact (single?_keep hsingle [c]).symm
  · cases h

theorem munch_keep (h : munch p c cs = .ok m) :
    .ofList m.text = m.kind.keep (c :: cs.take m.more) := by
  unfold munch at h
  split at h
  · next hc => exact munchNumber_keep hc h
  · split at h
    · next hquote =>
      subst hquote
      exact munchString_keep h
    · split at h
      · cases h
        exact munchName_keep c cs
      · exact munchSymbol_keep h

end

section

variable {p : Position} {c : Char} {cs : List Char}

theorem scan_blank (hc : isBlank c) : scan p (c :: cs) = scan (p.next c) cs := by
  rw [scan, if_pos hc]

theorem scan_fault {e : SyntaxError} (hc : isBlank c = false) (h : munch p c cs = .error e) :
    scan p (c :: cs) = ([], some e) := by
  rw [scan, if_neg (by simp [hc]), h]

theorem scan_lexeme {k : Kind} {word text : List Char} (hc : isBlank c = false)
    (h : munch p c (word ++ cs) = .ok ⟨k, text, word.length⟩) :
    scan p (c :: (word ++ cs)) =
      (⟨k, .ofList text, p⟩ :: (scan ((p.next c).after word) cs).1,
        (scan ((p.next c).after word) cs).2) := by
  rw [scan, if_neg (by simp [hc]), h]
  simp only [List.take_left, List.drop_left]

end

/-- The longest word comes first, unless it is a number that runs into a name. -/
theorem scan_longest {k : Kind} {word cs : List Char} (hk : Longest k word cs) (p : Position) :
    (∃ l, k = .literal l ∧ ∃ d ∈ cs.head?, isSymbolStart d) ∨
    scan p (word ++ cs) = (⟨k, k.keep word, p⟩ :: (scan (p.after word) cs).1,
      (scan (p.after word) cs).2) := by
  obtain ⟨c, word, rfl⟩ := exists_spelt_head hk.spelt
  have hc := not_blank_of_spelt hk.spelt
  cases front p (word ++ cs) hc with
  | lexeme k' word' rest text hsplit hlongest hmunch =>
    have hcons : c :: word ++ cs = c :: word' ++ rest := congrArg (c :: ·) hsplit
    obtain ⟨rfl, hword, rfl⟩ := longest_unique hk hlongest hcons
    cases hword
    have hkeep := munch_keep hmunch
    rw [List.take_left] at hkeep
    rw [← hkeep]
    exact .inr (scan_lexeme hc hmunch)
  | glued l word' d rest e hsplit hlongest hd hmunch =>
    have hcons : c :: word ++ cs = c :: word' ++ d :: rest := congrArg (c :: ·) hsplit
    obtain ⟨rfl, -, rfl⟩ := longest_unique hk hlongest hcons
    exact .inl ⟨l, rfl, d, rfl, hd⟩
  | fault e _ hnone => exact absurd ⟨cs, rfl⟩ (hnone k word hk.spelt)

/-- A text splits into lexemes of the kinds given: blanks are skipped, and what comes next is the
longest word that spells a lexeme. -/
inductive Munches : List Char → List Kind → Prop
  | nil : Munches [] []
  | blank {c cs ks} (hc : isBlank c) (h : Munches cs ks) : Munches (c :: cs) ks
  | lexeme {k word cs ks} (hk : Longest k word cs) (h : Munches cs ks) :
    Munches (word ++ cs) (k :: ks)

/-- There is only one way to split a text. -/
theorem munches_unique {cs : List Char} {ks ks' : List Kind} (h : Munches cs ks)
    (h' : Munches cs ks') : ks = ks' := by
  induction h generalizing ks' with
  | nil =>
    generalize hcs : ([] : List Char) = cs at h'
    cases h' with
    | nil => rfl
    | blank => cases hcs
    | lexeme hk =>
      obtain ⟨c, word, rfl⟩ := exists_spelt_head hk.spelt
      cases hcs
  | @blank c cs ks hc _ ih =>
    generalize hcs : c :: cs = text at h'
    cases h' with
    | nil => cases hcs
    | blank _ h' =>
      cases hcs
      exact ih h'
    | lexeme hk =>
      obtain ⟨d, word, rfl⟩ := exists_spelt_head hk.spelt
      cases hcs
      rw [not_blank_of_spelt hk.spelt] at hc
      cases hc
  | @lexeme k word cs ks hk _ ih =>
    generalize hcs : word ++ cs = text at h'
    cases h' with
    | nil =>
      obtain ⟨c, word, rfl⟩ := exists_spelt_head hk.spelt
      cases hcs
    | blank hd =>
      obtain ⟨c, word, rfl⟩ := exists_spelt_head hk.spelt
      cases hcs
      rw [not_blank_of_spelt hk.spelt] at hd
      cases hd
    | lexeme hk' h' =>
      obtain ⟨rfl, rfl, rfl⟩ := longest_unique hk hk' hcs
      rw [ih h']

/-- A scan without fault splits the text. -/
theorem munches_of_scan {cs : List Char} {p : Position} {xs : List Lexeme}
    (h : scan p cs = (xs, none)) : Munches cs (xs.map Lexeme.kind) := by
  cases cs with
  | nil =>
    rw [scan] at h
    cases h
    exact .nil
  | cons c cs =>
    cases hc : isBlank c with
    | true =>
      rw [scan_blank hc] at h
      exact .blank hc (munches_of_scan h)
    | false =>
      cases front p cs hc with
      | lexeme k word rest text hcs hlongest hmunch =>
        subst hcs
        rw [scan_lexeme hc hmunch, Prod.mk.injEq] at h
        obtain ⟨rfl, hfault⟩ := h
        exact .lexeme hlongest (munches_of_scan (Prod.ext rfl hfault))
      | glued _ _ _ _ e _ _ _ hmunch =>
        rw [scan_fault hc hmunch] at h
        cases h
      | fault e hmunch =>
        rw [scan_fault hc hmunch] at h
        cases h
termination_by cs.length
decreasing_by
  all_goals subst_vars; simp; try omega

/-- Somewhere a literal stands right before a name or a call. -/
def Glued (ks : List Kind) : Prop :=
  ∃ front l k rest, ks = front ++ .literal l :: k :: rest ∧
    ∃ name, k = .name name ∨ k = .callHead name

theorem glued_cons {ks : List Kind} (k : Kind) (h : Glued ks) : Glued (k :: ks) := by
  obtain ⟨front, l, k', rest, rfl, hname⟩ := h
  exact ⟨k :: front, l, k', rest, rfl, hname⟩

/-- What starts as a name does starts with a name or a call. -/
theorem munches_letter {cs : List Char} {ks : List Kind} {d : Char} {rest : List Char}
    (h : Munches cs ks) (hcs : cs = d :: rest) (hd : isSymbolStart d) :
    ∃ k ks', ks = k :: ks' ∧ ∃ name, k = .name name ∨ k = .callHead name := by
  cases h with
  | nil => cases hcs
  | blank hc =>
    cases hcs
    rw [isBlank_eq_false_of_isSymbolPart (isSymbolPart_of_isSymbolStart hd)] at hc
    cases hc
  | lexeme hk =>
    obtain ⟨c, word, rfl⟩ := exists_spelt_head hk.spelt
    cases hcs
    rcases spelt_of_isSymbolStart hk.spelt hd with ⟨-, rfl⟩ | ⟨name, _, -, -, -, rfl⟩
    · exact ⟨_, _, rfl, _, .inl rfl⟩
    · exact ⟨_, _, rfl, _, .inr rfl⟩

/-- A text that can be split is scanned without fault, but for numbers that run into names. -/
theorem scan_of_munches {cs : List Char} {ks : List Kind} (h : Munches cs ks) : ∀ p : Position,
    Glued ks ∨ ∃ xs, scan p cs = (xs, none) ∧ xs.map Lexeme.kind = ks := by
  induction h with
  | nil =>
    intro p
    exact .inr ⟨[], by rw [scan], rfl⟩
  | @blank c cs ks hc _ ih =>
    intro p
    rw [scan_blank hc]
    exact ih (p.next c)
  | @lexeme k word cs ks hk hcs ih =>
    intro p
    rcases scan_longest hk p with ⟨l, rfl, d, hd, hstart⟩ | hscan
    · -- Here the scanner stops, and the split goes on with a name.
      obtain ⟨rest, rfl⟩ := List.head?_eq_some_iff.mp hd
      obtain ⟨k', ks', rfl, hname⟩ := munches_letter hcs rfl hstart
      exact .inl ⟨[], l, k', ks', rfl, hname⟩
    · rcases ih (p.after word) with hglued | ⟨xs, hrest, rfl⟩
      · exact .inl (glued_cons k hglued)
      · exact .inr ⟨⟨k, k.keep word, p⟩ :: xs, by rw [hscan, hrest], rfl⟩

end AccessControl.Matcher
