import AccessControl.Proofs.Matcher.Parsing
import AccessControl.Proofs.Text.Blank

namespace AccessControl.Matcher

open Text
open Lexeme (Kind scan)

/-- Outside of strings, a lexeme holds neither a `#` nor, unless it is a call head, a blank. -/
def isPlain (c : Char) : Bool :=
  !isBlank c && c != '#'

theorem isPlain_iff {c : Char} : isPlain c ↔ isBlank c = false ∧ c ≠ '#' := by
  simp [isPlain]

theorem isPlain_of_isSymbolPart {c : Char} (h : isSymbolPart c) : isPlain c := by
  refine isPlain_iff.mpr ⟨isBlank_eq_false_of_isSymbolPart h, ?_⟩
  rintro rfl
  cases h

theorem isPlain_of_isDigit {c : Char} (h : c.isDigit) : isPlain c :=
  isPlain_of_isSymbolPart (isSymbolPart_iff.mpr (.inr h))

theorem isPlain_of_isName {word : List Char} (h : IsName word) : ∀ c ∈ word, isPlain c := by
  obtain ⟨c, part, mark, hc, hpart, hmark, rfl⟩ := h
  have hmark' : ∀ d ∈ mark, isPlain d := by
    rcases hmark with rfl | rfl
    · exact fun _ h => nomatch h
    · exact List.forall_mem_singleton.mpr (by decide)
  refine List.forall_mem_cons.mpr ⟨isPlain_of_isSymbolPart (isSymbolPart_of_isSymbolStart hc), ?_⟩
  exact List.forall_mem_append.mpr ⟨fun d hd => isPlain_of_isSymbolPart (hpart d hd), hmark'⟩

theorem isPlain_of_pointed {fraction : List Char} (h : ∀ d ∈ fraction, d.isDigit) :
    ∀ c ∈ pointed fraction, isPlain c := by
  cases fraction with
  | nil => exact fun _ h => nomatch h
  | cons f fs =>
    refine List.forall_mem_cons.mpr ⟨by decide, fun d hd => ?_⟩
    exact isPlain_of_isDigit (h d hd)

theorem isPlain_of_symbol {k : Kind} {s : String} (h : k.symbol? = some s) :
    ∀ c ∈ s.toList, isPlain c := by
  apply List.all_eq_true.mp
  cases k with
  | literal l | name name | callHead name => cases h
  | openParen | closeParen | comma | dot =>
    cases h
    decide
  | sign op =>
    cases op <;> cases h <;> decide
  | operator op =>
    cases op <;> cases h <;> decide

theorem spelt_forms {k : Kind} {word : List Char} (h : Spelt k word) :
    (∀ c ∈ word, isPlain c) ∨
    (∃ name gap, word = name ++ (gap ++ ['(']) ∧ (∀ c ∈ name, isPlain c) ∧ ∀ c ∈ gap, isBlank c) ∨
    ∃ value body, word = '"' :: (body ++ ['"']) ∧ StringBody value body := by
  cases h with
  | @number c ds fraction hc hds hfraction =>
    have hdigits : ∀ d ∈ c :: ds, isPlain d :=
      List.forall_mem_cons.mpr ⟨isPlain_of_isDigit hc, fun d hd => isPlain_of_isDigit (hds d hd)⟩
    exact .inl (List.forall_mem_append.mpr ⟨hdigits, isPlain_of_pointed hfraction⟩)
  | string hbody => exact .inr (.inr ⟨_, _, rfl, hbody⟩)
  | name hname => exact .inl (isPlain_of_isName hname)
  | callHead hname hgap => exact .inr (.inl ⟨_, _, rfl, isPlain_of_isName hname, hgap⟩)
  | symbol hsymbol => exact .inl (isPlain_of_symbol hsymbol)

theorem length_pos_of_spelt {k : Kind} {word : List Char} (h : Spelt k word) : 0 < word.length := by
  obtain ⟨c, rest, rfl⟩ := exists_spelt_head h
  exact Nat.succ_pos rest.length

/-- No lexeme ends in blanks. -/
theorem exists_not_blank_of_spelt {k : Kind} {kept more : List Char} (h : Spelt k (kept ++ more))
    (hmore : more ≠ []) : ∃ c ∈ more, isBlank c = false := by
  have hmem := List.getLast_mem hmore
  have hlast : more.getLast hmore ∈ (kept ++ more).getLast? := by
    rw [List.getLast?_append, List.getLast?_eq_some_getLast hmore]
    rfl
  refine ⟨more.getLast hmore, hmem, ?_⟩
  rcases spelt_forms h with hplain | ⟨name, gap, hword, -, -⟩ | ⟨value, body, hword, -⟩
  · exact (isPlain_iff.mp (hplain _ (List.mem_append_right kept hmem))).1
  · rw [hword, ← List.append_assoc, List.getLast?_append] at hlast
    exact Option.some.inj hlast ▸ (by decide : isBlank '(' = false)
  · rw [hword, ← List.cons_append, List.getLast?_append] at hlast
    exact Option.some.inj hlast ▸ (by decide : isBlank '"' = false)

/-- A lexeme that holds a `#` is a string. -/
theorem string_of_hash_mem {k : Kind} {word : List Char} (h : Spelt k word) (hhash : '#' ∈ word) :
    ∃ value body, word = '"' :: (body ++ ['"']) ∧ StringBody value body := by
  rcases spelt_forms h with hplain | ⟨name, gap, rfl, hname, hgap⟩ | hstring
  · exact absurd rfl (isPlain_iff.mp (hplain '#' hhash)).2
  · have hnot : '#' ∉ gap := notMem_of_forall hgap (by decide)
    have hmem : '#' ∈ name := by simpa [hnot] using hhash
    exact absurd rfl (isPlain_iff.mp (hname '#' hmem)).2
  · exact hstring

/-- Short of its closing quote, a string has none. -/
theorem stringBody?_eq_none {value body cut more : List Char} (h : StringBody value body)
    (hcut : body ++ ['"'] = cut ++ more) (hmore : more ≠ []) :
    Lexeme.stringBody? cut = none := by
  cases hread : Lexeme.stringBody? cut with
  | none => rfl
  | some r =>
    obtain ⟨value', n⟩ := r
    obtain ⟨body', rest, rfl, hbody', rfl⟩ := stringBody?_eq_some hread
    -- The quote found would close the whole string too, which ends only behind `more`.
    have hwhole := stringBody?_append h []
    have hlen := congrArg List.length hcut
    rw [hcut, List.append_assoc, List.cons_append, stringBody?_append hbody', Option.some_inj,
      Prod.mk.injEq] at hwhole
    have hpos := List.length_pos_iff.mpr hmore
    simp only [List.length_append, List.length_cons, List.length_nil] at hlen hwhole
    omega

/-- At a string left open the scanner stops, and cites all that there is of it. -/
theorem scan_open {body : List Char} (h : Lexeme.stringBody? body = none) (p : Position) :
    scan p ('"' :: body) =
      ([], some (.unexpectedToken (.ofList ('"' :: body)) p .unterminatedString)) := by
  apply scan_fault (by decide)
  rw [munch_quote, Lexeme.munchString, h]

/-- How a text of two parts splits at its front. Only the last way reaches into the second part. -/
theorem munches_append_cases {kept tail : List Char} {ks : List Kind}
    (h : Munches (kept ++ tail) ks) : kept = [] ∨
    (∃ c kept', kept = c :: kept' ∧ isBlank c ∧ Munches (kept' ++ tail) ks) ∨
    (∃ k word kept' ks', kept = word ++ kept' ∧ ks = k :: ks' ∧ Longest k word (kept' ++ tail) ∧
      Munches (kept' ++ tail) ks') ∨
    ∃ k more rest, more ≠ [] ∧ tail = more ++ rest ∧ Spelt k (kept ++ more) := by
  generalize htext : kept ++ tail = text at h
  cases h with
  | nil => exact .inl (List.append_eq_nil_iff.mp htext).1
  | @blank c cs ks hc h =>
    cases kept with
    | nil => exact .inl rfl
    | cons d kept =>
      cases htext
      exact .inr (.inl ⟨c, kept, rfl, hc, h⟩)
  | @lexeme k word cs ks hk h =>
    rcases List.append_eq_append_iff.mp htext with ⟨more, rfl, rfl⟩ | ⟨kept', rfl, rfl⟩
    · cases more with
      | nil =>
        rw [List.append_nil] at hk
        exact .inr (.inr (.inl ⟨k, kept, [], ks, (List.append_nil kept).symm, rfl, hk, h⟩))
      | cons c more => exact .inr (.inr (.inr ⟨k, c :: more, cs, by simp, rfl, hk.spelt⟩))
    · exact .inr (.inr (.inl ⟨k, word, kept', ks, rfl, rfl, hk, h⟩))

/-- With less text behind it, the longest word stays the longest. -/
theorem longest_of_append {k : Kind} {word rest more : List Char}
    (h : Longest k word (rest ++ more)) : Longest k word rest := by
  refine ⟨h.spelt, fun k' word' hk' hstarts => h.longest k' word' hk' (hstarts.trans ?_)⟩
  rw [← List.append_assoc]
  exact List.prefix_append _ _

section

variable {c : Char} {gap : List Char} {ks : List Kind}

theorem munches_of_blank_cons {cs : List Char} (hc : isBlank c) (h : Munches (c :: cs) ks) :
    Munches cs ks := by
  generalize htext : c :: cs = text at h
  cases h with
  | nil => cases htext
  | blank _ h =>
    cases htext
    exact h
  | lexeme hk =>
    obtain ⟨d, word, rfl⟩ := exists_spelt_head hk.spelt
    cases htext
    rw [not_blank_of_spelt hk.spelt] at hc
    cases hc

theorem munches_of_blank_append {cs : List Char} (hgap : ∀ c ∈ gap, isBlank c)
    (h : Munches (gap ++ cs) ks) : Munches cs ks := by
  induction gap with
  | nil => exact h
  | cons c gap ih =>
    obtain ⟨hc, hgap⟩ := List.forall_mem_cons.mp hgap
    exact ih hgap (munches_of_blank_cons hc h)

theorem munches_of_append_blank {ks : List Kind} (hgap : ∀ c ∈ gap, isBlank c) (cs : List Char)
    (h : Munches (cs ++ gap) ks) : Munches cs ks := by
  rcases munches_append_cases h with rfl | ⟨c, rest, rfl, hc, h⟩ |
    ⟨k, word, rest, ks, rfl, rfl, hk, h⟩ | ⟨k, more, rest, hmore, rfl, hk⟩
  · have hgap' : Munches (gap ++ []) ks := (List.append_nil gap).symm ▸ h
    exact munches_of_blank_append hgap hgap'
  · exact .blank hc (munches_of_append_blank hgap rest h)
  · exact .lexeme (longest_of_append hk) (munches_of_append_blank hgap rest h)
  · obtain ⟨c, hmem, hc⟩ := exists_not_blank_of_spelt hk hmore
    rw [hgap c (List.mem_append_left rest hmem)] at hc
    cases hc
termination_by cs.length
decreasing_by
  · subst_vars
    simp
  · have hpos := length_pos_of_spelt hk.spelt
    subst_vars
    simp only [List.length_append]
    omega

end

/-- What is wrong where a string stays open, if `front` is read up to its quote. -/
def leftOpen (p : Position) (front body : List Char) : SyntaxError :=
  .unexpectedToken (.ofList ('"' :: body)) (p.after front) .unterminatedString

theorem not_munches_hash {rest : List Char} {ks : List Kind} : ¬Munches ('#' :: rest) ks := by
  intro h
  generalize htext : '#' :: rest = text at h
  cases h with
  | nil => cases htext
  | blank hc =>
    cases htext
    cases hc
  | lexeme hk =>
    obtain ⟨c, word, rfl⟩ := exists_spelt_head hk.spelt
    cases htext
    obtain ⟨value, body, hword, -⟩ := string_of_hash_mem hk.spelt List.mem_cons_self
    cases hword

/-- A word that starts before blanks and a `#` and ends behind these blanks. -/
theorem hash_mem_of_spelt {k : Kind} {kept more gap rest rest' : List Char}
    (hk : Spelt k (kept ++ more)) (hmore : more ≠ []) (hgap : ∀ c ∈ gap, isBlank c)
    (htail : gap ++ '#' :: rest = more ++ rest') : '#' ∈ more := by
  by_contra hhash
  have hblank : ∀ c ∈ more, isBlank c := by
    rcases List.append_eq_append_iff.mp htail with ⟨a, rfl, ha⟩ | ⟨a, rfl, -⟩
    · cases a with
      | nil => simpa using hgap
      | cons c a =>
        cases ha
        simp at hhash
    · exact fun c hc => hgap c (List.mem_append_left a hc)
  obtain ⟨c, hmem, hc⟩ := exists_not_blank_of_spelt hk hmore
  rw [hblank c hmem] at hc
  cases hc

/-- Cut short before a `#` and the blanks there, a text is scanned like the whole one up to a
string, which then stays open. -/
theorem scan_cut {ks : List Kind} {gap rest : List Char} (hgap : ∀ c ∈ gap, isBlank c)
    (hglued : ¬Glued ks) (kept : List Char) (h : Munches (kept ++ (gap ++ '#' :: rest)) ks)
    (p : Position) : ∃ front body xs, kept = front ++ '"' :: body ∧ xs.map Lexeme.kind <+: ks ∧
      scan p kept = (xs, some (leftOpen p front body)) := by
  by_cases hkept : kept = []
  · subst hkept
    exact absurd (munches_of_blank_append hgap h) not_munches_hash
  rcases munches_append_cases h with hnil | ⟨c, kept', rfl, hc, h'⟩ |
    ⟨k, word, kept', ks', rfl, rfl, hk, h'⟩ | ⟨k, more, rest', hmore, htail, hk⟩
  · exact absurd hnil hkept
  · obtain ⟨front, body, xs, rfl, hstarts, hscan⟩ := scan_cut hgap hglued kept' h' (p.next c)
    refine ⟨c :: front, body, xs, rfl, hstarts, ?_⟩
    rw [scan_blank hc, hscan]
    rfl
  · have hglued' : ¬Glued ks' := fun hks' => hglued (glued_cons k hks')
    obtain ⟨front, body, xs, rfl, hstarts, hscan⟩ := scan_cut hgap hglued' kept' h' (p.after word)
    rcases scan_longest (longest_of_append hk) p with ⟨l, rfl, d, hd, hstart⟩ | hword
    · -- The whole text would have a number run into a name there, too.
      have hd' : d ∈ ((front ++ '"' :: body) ++ (gap ++ '#' :: rest)).head? := by
        rw [List.head?_append, hd]
        rfl
      obtain ⟨back, hback⟩ := List.head?_eq_some_iff.mp hd'
      obtain ⟨k, ks', rfl, hname⟩ := munches_letter h' hback hstart
      exact absurd ⟨[], l, k, ks', rfl, hname⟩ hglued
    · refine ⟨word ++ front, body, ⟨k, k.keep word, p⟩ :: xs, by simp, by simpa using hstarts, ?_⟩
      rw [hword, hscan]
      simp [leftOpen]
  · -- The lexeme that is cut in two holds the `#`.
    have hhash := hash_mem_of_spelt hk hmore hgap htail
    obtain ⟨value, body, hword, hbody⟩ :=
      string_of_hash_mem hk (List.mem_append_right kept hhash)
    obtain ⟨c, cut, rfl⟩ := List.exists_cons_of_ne_nil hkept
    obtain ⟨rfl, hcut⟩ := List.cons.inj hword
    refine ⟨[], cut, [], rfl, List.nil_prefix, scan_open ?_ p⟩
    exact stringBody?_eq_none hbody hcut.symm hmore
termination_by kept.length
decreasing_by
  · subst_vars
    simp
  · have hpos := length_pos_of_spelt hk.spelt
    subst_vars
    simp only [List.length_append]
    omega

section

variable {limit : Nat} {source : String} {e : Expr}

theorem derives_of_parse (h : Expr.parse limit source = .ok e) :
    ∃ ks, Munches source.toList ks ∧ Derives .disjunction ks e ∧ e.height ≤ limit := by
  obtain ⟨ts, hsource, hbuild⟩ := Result.bind_eq_ok_iff.mp h
  obtain ⟨xs, s, hscan, hrun, hfinish⟩ := ofSource_eq_ok_iff.mp hsource
  have hbuilds := Expr.ofPostfix_eq_ok_iff.mp hbuild
  have hheight :=
    Expr.builds_height_le hbuilds (fun _ h => nomatch h) e (List.mem_singleton_self e)
  exact ⟨_, munches_of_scan hscan, derives_of_finish hrun hfinish hbuilds, hheight⟩

theorem parse_of_derives {ks : List Kind} (hmunches : Munches source.toList ks)
    (hderives : Derives .disjunction ks e) (hheight : e.height ≤ limit) :
    Expr.parse limit source = .ok e := by
  obtain ⟨xs, hscan, rfl⟩ :=
    (scan_of_munches hmunches .start).resolve_left (not_glued_of_derives hderives)
  obtain ⟨s, ts, hrun, hfinish, hkinds⟩ := derives_finish hderives
  have hbuilds := Expr.builds_postorder e [] (derives_proper hderives) hheight
  rw [← hkinds] at hbuilds
  exact Result.bind_eq_ok_iff.mpr
    ⟨ts, ofSource_eq_ok_iff.mpr ⟨xs, s, hscan, hrun, hfinish⟩, Expr.ofPostfix_eq_ok_iff.mpr hbuilds⟩

/-- A limit decides only whether there is an expression, not which. -/
theorem parse_unique {limit' : Nat} {e' : Expr} (h : Expr.parse limit source = .ok e)
    (h' : Expr.parse limit' source = .ok e') : e = e' := by
  obtain ⟨ks, hmunches, hderives, hheight⟩ := derives_of_parse h
  obtain ⟨ks', hmunches', hderives', hheight'⟩ := derives_of_parse h'
  have hwide := parse_of_derives hmunches hderives (Nat.le_trans hheight (Nat.le_max_left _ limit'))
  have hwide' :=
    parse_of_derives hmunches' hderives' (Nat.le_trans hheight' (Nat.le_max_right limit _))
  exact Except.ok.inj (hwide.symm.trans hwide')

/-- Blanks around a source make no difference. -/
theorem parse_trim (h : Expr.parse limit source = .ok e) :
    Expr.parse limit (.ofList (trim source.toList)) = .ok e := by
  obtain ⟨ks, hmunches, hderives, hheight⟩ := derives_of_parse h
  obtain ⟨front, back, hsplit, hfront, hback⟩ := exists_trim_append source.toList
  rw [hsplit] at hmunches
  have htrim := munches_of_append_blank hback _ (munches_of_blank_append hfront hmunches)
  exact parse_of_derives (by rwa [String.toList_ofList]) hderives hheight

/-- The first lexemes of an expression are put in order without fault. -/
theorem run_of_prefix {ks : List Kind} {xs : List Lexeme} (h : Derives .disjunction ks e)
    (hxs : xs.map Lexeme.kind <+: ks) : ∃ s, xs.foldlM Postfix.step .start = .ok s := by
  obtain ⟨rest, rfl⟩ := hxs
  let lexeme (k : Kind) : Lexeme := ⟨k, "", .start⟩
  have hkinds : (xs ++ rest.map lexeme).map Lexeme.kind = xs.map Lexeme.kind ++ rest := by
    simp [lexeme, Function.comp_def]
  rw [← hkinds] at h
  obtain ⟨s, ts, hrun, -⟩ := derives_finish h
  rw [List.foldlM_append] at hrun
  obtain ⟨s', hfront, -⟩ := Result.bind_eq_ok_iff.mp hrun
  exact ⟨s', hfront⟩

theorem ofSource_of_fault {xs : List Lexeme} {fault : SyntaxError} {s : Postfix}
    (hscan : scan .start source.toList = (xs, some fault))
    (hrun : xs.foldlM Postfix.step .start = .ok s) : Token.ofSource source = .error fault := by
  rw [Token.ofSource, hscan]
  simp [hrun]

/-- What stands before a `#`, be it trimmed, spells nothing, for want of a closing quote. -/
theorem parse_cut {front kept gap rest : List Char} (h : Expr.parse limit source = .ok e)
    (hsplit : source.toList = front ++ (kept ++ (gap ++ '#' :: rest)))
    (hfront : ∀ c ∈ front, isBlank c) (hgap : ∀ c ∈ gap, isBlank c) :
    ∃ before body, kept = before ++ '"' :: body ∧
      ∀ limit', Expr.parse limit' (.ofList kept) = .error (leftOpen .start before body) := by
  obtain ⟨ks, hmunches, hderives, -⟩ := derives_of_parse h
  rw [hsplit] at hmunches
  obtain ⟨before, body, xs, hkept, hstarts, hscan⟩ := scan_cut hgap
    (not_glued_of_derives hderives) kept (munches_of_blank_append hfront hmunches) .start
  obtain ⟨s, hrun⟩ := run_of_prefix hderives hstarts
  refine ⟨before, body, hkept, fun limit' => ?_⟩
  rw [Expr.parse, ofSource_of_fault (by rwa [String.toList_ofList]) hrun]
  rfl

end

end AccessControl.Matcher
