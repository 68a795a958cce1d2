import AccessControl.Proofs.Matcher.Scanning

namespace AccessControl.Matcher

open Text
open Lexeme (Kind munch scan)

/-- The fault cites the start of the text, at the place where this starts. -/
def CitesFront (e : SyntaxError) (p : Position) (cs : List Char) : Prop :=
  e.position = p ∧ e.token ≠ "" ∧ e.token.toList <+: cs

section

variable {p : Position} {c : Char} {cs : List Char} {e : SyntaxError}

theorem citesFront_of_word {reason : Reason} {word : List Char} (h : word <+: cs) :
    CitesFront (.unexpectedToken (.ofList (c :: word)) p reason) p (c :: cs) := by
  have htext : (String.ofList (c :: word)).toList = c :: word := String.toList_ofList
  refine ⟨rfl, fun hempty => ?_, ?_⟩
  · rw [SyntaxError.token] at hempty
    rw [hempty] at htext
    cases htext
  · rw [SyntaxError.token, htext]
    exact List.cons_prefix_cons.mpr ⟨rfl, h⟩

theorem munchNumber_citesFront (hc : c.isDigit) (h : Lexeme.munchNumber p c cs = .error e) :
    CitesFront e p (c :: cs) := by
  obtain ⟨ds, fraction, rest, rfl, hends⟩ := exists_number_split cs
  rw [munchNumber_of_split hc hends] at h
  split at h
  · cases h
    rw [← List.append_assoc]
    exact citesFront_of_word (List.prefix_append _ rest)
  · cases h

theorem munchString_citesFront (h : Lexeme.munchString p cs = .error e) :
    CitesFront e p ('"' :: cs) := by
  unfold Lexeme.munchString at h
  split at h
  · cases h
  · cases h
    exact citesFront_of_word List.prefix_rfl

theorem munchSymbol_citesFront (h : Lexeme.munchSymbol p c cs = .error e) :
    CitesFront e p (c :: cs) := by
  unfold Lexeme.munchSymbol at h
  split at h
  · cases h
  · cases h
  · cases h
    exact citesFront_of_word List.nil_prefix

theorem munch_citesFront (h : munch p c cs = .error e) : CitesFront e p (c :: cs) := by
  unfold munch at h
  split at h
  · next hc => exact munchNumber_citesFront hc h
  · split at h
    · next hquote =>
      subst hquote
      exact munchString_citesFront h
    · split at h
      · cases h
      · exact munchSymbol_citesFront h

end

/-- From `p` on, a text has the lexemes, each at its place and the longest there, up to the rest. -/
inductive Places : Position → List Char → List Lexeme → List Char → Prop
  | stop {p rest} : Places p rest [] rest
  | blank {p c cs xs rest} (hc : isBlank c) (h : Places (p.next c) cs xs rest) :
    Places p (c :: cs) xs rest
  | lexeme {p k word cs xs rest} (hk : Longest k word cs) (h : Places (p.after word) cs xs rest) :
    Places p (word ++ cs) (⟨k, k.keep word, p⟩ :: xs) rest

/-- The scanner stops at the end of the text, or where its fault is. -/
theorem places_of_scan {cs : List Char} {p : Position} {xs : List Lexeme}
    {fault : Option SyntaxError} (h : scan p cs = (xs, fault)) : ∃ front rest, cs = front ++ rest ∧
      Places p cs xs rest ∧ (fault = none → rest = []) ∧
      ∀ e, fault = some e → CitesFront e (p.after front) rest := by
  cases cs with
  | nil =>
    rw [scan] at h
    cases h
    refine ⟨[], [], rfl, .stop, fun _ => rfl, fun e he => ?_⟩
    cases he
  | cons c cs =>
    cases hc : isBlank c with
    | true =>
      rw [scan_blank hc] at h
      obtain ⟨front, rest, rfl, hplaces, hrest⟩ := places_of_scan h
      exact ⟨c :: front, rest, rfl, .blank hc hplaces, hrest⟩
    | false =>
      cases hmunch : munch p c cs with
      | error e =>
        rw [scan_fault hc hmunch] at h
        cases h
        refine ⟨[], c :: cs, rfl, .stop, fun hnone => ?_, fun e' he' => ?_⟩
        · cases hnone
        · cases he'
          exact munch_citesFront hmunch
      | ok m =>
        cases front p cs hc with
        | lexeme k word back text hcs hlongest hfront =>
          subst hcs
          have hkeep := munch_keep hfront
          rw [List.take_left] at hkeep
          rw [scan_lexeme hc hfront, hkeep, Prod.mk.injEq] at h
          obtain ⟨rfl, hback⟩ := h
          obtain ⟨front, rest, rfl, hplaces, hrest⟩ :=
            @places_of_scan back _ _ fault (Prod.ext rfl hback)
          refine ⟨c :: word ++ front, rest, by simp, .lexeme hlongest hplaces, ?_⟩
          rwa [Position.after_append]
        | glued _ _ _ _ e _ _ _ hfront => cases hmunch.symm.trans hfront
        | fault e hfront => cases hmunch.symm.trans hfront
termination_by cs.length
decreasing_by
  all_goals subst_vars; simp; try omega

/-- What a lexeme is in a text: a word that spells it, and of which it keeps its text. -/
structure Lexeme.Shows (x : Lexeme) (word : List Char) : Prop where
  spelt : Spelt x.kind word
  text : x.text = x.kind.keep word

theorem exists_shows_of_places {p : Position} {cs rest : List Char} {xs : List Lexeme}
    (h : Places p cs xs rest) : ∀ x ∈ xs, ∃ front word back, cs = front ++ (word ++ back) ∧
      x.position = p.after front ∧ x.Shows word := by
  induction h with
  | stop => exact fun _ hx => nomatch hx
  | @blank p c cs xs rest hc h ih =>
    intro x hx
    obtain ⟨front, word, back, rfl, hposition, hshows⟩ := ih x hx
    exact ⟨c :: front, word, back, rfl, hposition, hshows⟩
  | @lexeme p k word cs xs rest hk h ih =>
    intro x hx
    rcases List.mem_cons.mp hx with rfl | hx
    · exact ⟨[], word, cs, rfl, rfl, hk.spelt, rfl⟩
    · obtain ⟨front, word', back, rfl, hposition, hshows⟩ := ih x hx
      refine ⟨word ++ front, word', back, by simp, ?_, hshows⟩
      rw [hposition, Position.after_append]

theorem shows_of_places {p : Position} {cs rest : List Char} {xs : List Lexeme}
    (h : Places p cs xs rest) : ∀ x ∈ xs, ∃ word, x.Shows word := by
  intro x hx
  obtain ⟨_, word, _, -, -, hshows⟩ := exists_shows_of_places h x hx
  exact ⟨word, hshows⟩

theorem munches_of_places {p : Position} {cs rest : List Char} {xs : List Lexeme}
    (h : Places p cs xs rest) (hrest : rest = []) : Munches cs (xs.map Lexeme.kind) := by
  induction h with
  | stop => exact hrest ▸ .nil
  | blank hc _ ih => exact .blank hc (ih hrest)
  | lexeme hk _ ih => exact .lexeme hk (ih hrest)

end AccessControl.Matcher
