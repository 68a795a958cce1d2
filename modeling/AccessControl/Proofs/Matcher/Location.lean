import AccessControl.Matcher.Program
import AccessControl.Proofs.Matcher.Origin
import AccessControl.Proofs.Matcher.Refusal

namespace AccessControl.Text.Position

/-- The order of places: by line, and within a line by column. -/
def Before (p q : Position) : Prop :=
  p.line < q.line ∨ p.line = q.line ∧ p.col < q.col

theorem Before.trans {p q r : Position} (h : p.Before q) (h' : q.Before r) : p.Before r := by
  unfold Before at *
  omega

theorem before_next (p : Position) (c : Char) : p.Before (p.next c) := by
  unfold next
  split
  · exact .inl (Nat.lt_succ_self p.line)
  · exact .inr ⟨rfl, Nat.lt_succ_self p.col⟩

theorem before_after {cs : List Char} (hcs : cs ≠ []) (p : Position) : p.Before (p.after cs) := by
  induction cs generalizing p with
  | nil => exact absurd rfl hcs
  | cons c cs ih =>
    by_cases hrest : cs = []
    · subst hrest
      exact before_next p c
    · exact (before_next p c).trans (ih hrest (p.next c))

end AccessControl.Text.Position

namespace AccessControl.Matcher

open Text
open Lexeme (Kind scan)

/-- A lexeme keeps its word as it is, or the name of which its word is a call. -/
theorem keep_cases {k : Kind} {word : List Char} (h : Spelt k word) :
    (k.keep word = .ofList word ∧ ∀ name, k ≠ .callHead name) ∨
    ∃ name gap, k = .callHead (.ofList name) ∧ IsName name ∧ (∀ c ∈ gap, isBlank c) ∧
      word = name ++ (gap ++ ['(']) := by
  cases h with
  | callHead hname hgap => exact .inr ⟨_, _, rfl, hname, hgap, rfl⟩
  | symbol hsymbol =>
    cases k with
    | callHead => cases hsymbol
    | _ => exact .inl ⟨rfl, fun _ h => nomatch h⟩
  | number | string | name => exact .inl ⟨rfl, fun _ h => nomatch h⟩

theorem isName_ne_nil {name : List Char} (h : IsName name) : name ≠ [] := by
  obtain ⟨_, _, _, _, _, _, rfl⟩ := h
  exact List.cons_ne_nil _ _

theorem spelt_ne_nil {k : Kind} {word : List Char} (h : Spelt k word) : word ≠ [] := by
  obtain ⟨_, _, rfl⟩ := exists_spelt_head h
  exact List.cons_ne_nil _ _

/-- What may stand outside all tokens. -/
def IsFiller (c : Char) : Prop :=
  isBlank c ∨ c = '(' ∨ c = ')' ∨ c = ','

/-- Every token has its text at its position in a text that starts at `p`, one token behind the
other, and all the rest is filler. -/
inductive Tiles : Position → List Char → List Token → Prop
  | nil {p} : Tiles p [] []
  | filler {p c cs ts} (hc : IsFiller c) (h : Tiles (p.next c) cs ts) : Tiles p (c :: cs) ts
  | token {t cs ts} (ht : t.text.toList ≠ []) (h : Tiles (t.position.after t.text.toList) cs ts) :
    Tiles t.position (t.text.toList ++ cs) (t :: ts)

theorem tiles_ordered {p : Position} {cs : List Char} {ts : List Token} (h : Tiles p cs ts) :
    (∀ t ∈ ts, p = t.position ∨ p.Before t.position) ∧
      ts.Pairwise fun t u => t.position.Before u.position := by
  induction h with
  | nil => exact ⟨(fun _ ht => nomatch ht), .nil⟩
  | @filler p c cs ts _ _ ih =>
    refine ⟨fun t ht => .inr ?_, ih.2⟩
    rcases ih.1 t ht with heq | hbefore
    · exact heq ▸ p.before_next c
    · exact (p.before_next c).trans hbefore
  | @token t cs ts ht _ ih =>
    have hnext : ∀ u ∈ ts, t.position.Before u.position := by
      intro u hu
      have hafter := Position.before_after ht t.position
      rcases ih.1 u hu with heq | hbefore
      · exact heq ▸ hafter
      · exact hafter.trans hbefore
    exact ⟨List.forall_mem_cons.mpr ⟨.inl rfl, fun u hu => .inr (hnext u hu)⟩, .cons hnext ih.2⟩

section

variable {p : Position} {cs : List Char} {ts : List Token}

theorem tiles_fillers {front : List Char} (hfront : ∀ c ∈ front, IsFiller c)
    (h : Tiles (p.after front) cs ts) : Tiles p (front ++ cs) ts := by
  induction front generalizing p with
  | nil => exact h
  | cons c front ih =>
    obtain ⟨hc, hfront⟩ := List.forall_mem_cons.mp hfront
    exact .filler hc (ih hfront h)

/-- Behind what a lexeme keeps of its word there is only filler. -/
theorem exists_keep_append {k : Kind} {word : List Char} (h : Spelt k word) : ∃ kept fillers,
    k.keep word = .ofList kept ∧ kept ≠ [] ∧ word = kept ++ fillers ∧
      ∀ c ∈ fillers, IsFiller c := by
  rcases keep_cases h with ⟨hkeep, -⟩ | ⟨name, gap, rfl, hname, hgap, rfl⟩
  · exact ⟨word, [], hkeep, spelt_ne_nil h, (List.append_nil word).symm, fun _ hc => nomatch hc⟩
  · refine ⟨name, gap ++ ['('], rfl, isName_ne_nil hname, rfl, ?_⟩
    refine List.forall_mem_append.mpr ⟨fun c hc => .inl (hgap c hc), ?_⟩
    exact List.forall_mem_singleton.mpr (.inr (.inl rfl))

theorem isFiller_of_not_carries {k : Kind} {word : List Char} (h : Spelt k word)
    (hk : k.carries = false) : ∀ c ∈ word, IsFiller c := by
  cases h with
  | number | string | name | callHead => cases hk
  | symbol hsymbol =>
    cases k with
    | openParen =>
      cases hsymbol
      exact List.forall_mem_singleton.mpr (.inr (.inl rfl))
    | closeParen =>
      cases hsymbol
      exact List.forall_mem_singleton.mpr (.inr (.inr (.inl rfl)))
    | comma =>
      cases hsymbol
      exact List.forall_mem_singleton.mpr (.inr (.inr (.inr rfl)))
    | _ => cases hk

/-- The tokens that lexemes become, in the order of these, tile what the lexemes take up. -/
theorem tiles_of_places {xs : List Lexeme} {rest : List Char} (h : Places p cs xs rest)
    (hrest : rest = []) (hts : ts.map Token.origin = xs.filter fun x => x.kind.carries) :
    Tiles p cs ts := by
  induction h generalizing ts with
  | stop =>
    subst hrest
    rw [List.map_eq_nil_iff.mp hts]
    exact .nil
  | blank hc _ ih => exact .filler (.inl hc) (ih hrest hts)
  | @lexeme p k word cs xs rest hk _ ih =>
    cases hcarries : k.carries with
    | false =>
      rw [List.filter_cons, if_neg (by simp [hcarries])] at hts
      exact tiles_fillers (isFiller_of_not_carries hk.spelt hcarries) (ih hrest hts)
    | true =>
      rw [List.filter_cons, if_pos hcarries] at hts
      obtain ⟨t, ts', rfl, ht, hts'⟩ := List.map_eq_cons_iff.mp hts
      have hposition : t.position = p := congrArg Lexeme.position ht
      obtain ⟨kept, fillers, hkeep, hkept, rfl, hfillers⟩ := exists_keep_append hk.spelt
      have htext : t.text.toList = kept := by
        have hkind : t.text = k.keep (kept ++ fillers) := congrArg Lexeme.text ht
        rw [hkind, hkeep, String.toList_ofList]
      have htiles := ih hrest hts'
      rw [Position.after_append] at htiles
      subst hposition htext
      rw [List.append_assoc]
      exact .token hkept (tiles_fillers hfillers htiles)

end

/-- The text that is written between the quotes of a string: from left to right, a backslash is
dropped before a quote or a backslash, and all else stays. -/
def unescape : List Char → List Char
  | [] => []
  | '\\' :: '"' :: cs => '"' :: unescape cs
  | '\\' :: '\\' :: cs => '\\' :: unescape cs
  | c :: cs => c :: unescape cs

theorem unescape_of_stringBody {value body : List Char} (h : StringBody value body) :
    unescape body = value := by
  induction h with
  | nil => rfl
  | quote _ ih => rw [unescape, ih]
  | backslash _ ih => rw [unescape, ih]
  | @plain c value body _ hback h ih =>
    rw [unescape.eq_4, ih]
    · intro cs hc hcs
      obtain ⟨d, rest, rfl, -⟩ := hback hc
      cases hcs
      exact stringBody_head h rfl
    · intro cs hc hcs
      obtain ⟨d, rest, rfl, hd⟩ := hback hc
      cases hcs
      exact hd rfl

theorem exists_body_of_shows {t : Token} {value : String} {word : List Char}
    (h : t.origin.Shows word) (ht : t.kind = .literal (.string value)) : ∃ body,
      t.text.toList = '"' :: (body ++ ['"']) ∧ value.toList = unescape body := by
  obtain ⟨kind, text, position⟩ := t
  subst ht
  obtain ⟨hspelt, htext⟩ := h
  generalize hkind : (Token.origin ⟨.literal (.string value), text, position⟩).kind = k at hspelt
  cases hspelt with
  | @string value' body hbody =>
    cases hkind
    refine ⟨body, ?_, ?_⟩
    · have hword : text = .ofList ('"' :: (body ++ ['"'])) := htext
      rw [hword, String.toList_ofList]
    · rw [String.toList_ofList, unescape_of_stringBody hbody]
  | symbol hsymbol =>
    cases hkind
    cases hsymbol
  | number | name | callHead => cases hkind

/-- The text starts with what an error cites, or with the name and the parenthesis of the call that
it cites. -/
inductive Cites : String → List Char → Prop
  | text {token rest} (htoken : token ≠ "") (h : token.toList <+: rest) : Cites token rest
  | call {name gap rest suffix} (hname : IsName name) (hgap : ∀ c ∈ gap, isBlank c)
    (hsuffix : suffix = "(" ∨ suffix = "(...)") :
    Cites (.ofList name ++ suffix) (name ++ (gap ++ '(' :: rest))

/-- What the error cites stands in the text at the place that it names. -/
def PointsInto (e : SyntaxError) (cs : List Char) : Prop :=
  ∃ front rest, cs = front ++ rest ∧ e.position = Position.start.after front ∧ Cites e.token rest

/-- The error names the lexeme and its place. -/
structure SyntaxError.Blames (e : SyntaxError) (x : Lexeme) : Prop where
  position : e.position = x.position
  token : x.CitedAs e.token

theorem cites_of_shows {x : Lexeme} {word : List Char} {token : String} (hx : x.Shows word)
    (h : x.CitedAs token) (back : List Char) : Cites token (word ++ back) := by
  obtain ⟨kind, text, position⟩ := x
  rcases keep_cases hx.spelt with ⟨hkeep, hcall⟩ | ⟨name, gap, hkind, hname, hgap, rfl⟩
  · have htext : token = .ofList word := by
      rw [← hkeep, ← hx.text]
      cases kind with
      | callHead name => exact absurd rfl (hcall name)
      | _ => exact h
    rw [htext]
    refine .text (fun hempty => spelt_ne_nil hx.spelt ?_) ?_
    · rw [← @String.toList_ofList word, hempty, String.toList_empty]
    · rw [String.toList_ofList]
      exact List.prefix_append word back
  · cases hkind
    rw [List.append_assoc, List.append_assoc, List.singleton_append]
    rcases h with rfl | rfl
    · exact .call hname hgap (.inl rfl)
    · exact .call hname hgap (.inr rfl)

section

variable {cs rest : List Char} {xs : List Lexeme} {e : SyntaxError}

theorem pointsInto_of_blames {x : Lexeme} (h : Places .start cs xs rest) (hx : x ∈ xs)
    (he : e.Blames x) : PointsInto e cs := by
  obtain ⟨front, word, back, rfl, hposition, hshows⟩ := exists_shows_of_places h x hx
  exact ⟨front, word ++ back, rfl, he.position.trans hposition, cites_of_shows hshows he.token back⟩

theorem pointsInto_of_citesFront {front : List Char} (hcs : cs = front ++ rest)
    (h : CitesFront e (Position.start.after front) rest) : PointsInto e cs :=
  ⟨front, rest, hcs, h.1, .text h.2.1 h.2.2⟩

end

section

variable {s : Postfix} {x : Lexeme} {t : Token} {p : Position} {e : SyntaxError}

theorem blames_origin (hposition : e.position = t.position) (htoken : e.token = t.citation) :
    e.Blames t.origin :=
  ⟨hposition, htoken ▸ citedAs_citation t⟩

theorem operand_blames (h : s.operand t = .error e) : e.Blames t.origin := by
  unfold Postfix.operand at h
  split at h
  · cases h
    exact blames_origin rfl rfl
  · cases h

theorem binary_blames (h : s.binary t = .error e) : e.Blames t.origin := by
  unfold Postfix.binary at h
  split at h
  · cases h
  · cases h
    exact blames_origin rfl rfl

theorem openGroup_blames {opener : Opener} {text : String} (htext : x.CitedAs text)
    (h : s.openGroup opener text x.position = .error e) : e.Blames x := by
  unfold Postfix.openGroup at h
  split at h
  · cases h
    exact ⟨rfl, htext⟩
  · cases h

theorem closeGroup_error (h : s.closeGroup p = .error e) : e.position = p ∧ e.token = ")" := by
  obtain ⟨emitted, waiting, groups, awaiting⟩ := s
  rcases groups with _ | ⟨⟨_ | _, _⟩, _⟩ <;> cases awaiting <;> cases h <;> exact ⟨rfl, rfl⟩

theorem comma_error (h : s.comma p = .error e) : e.position = p ∧ e.token = "," := by
  unfold Postfix.comma at h
  split at h
  · cases h
    exact ⟨rfl, rfl⟩
  · split at h
    · cases h
    · cases h
      exact ⟨rfl, rfl⟩

theorem citedAs_text (hx : ∀ name, x.kind ≠ .callHead name) : x.CitedAs x.text := by
  obtain ⟨kind, text, position⟩ := x
  cases kind with
  | callHead name => exact absurd rfl (hx name)
  | _ => rfl

/-- A step that fails blames its lexeme. -/
theorem step_blames {word : List Char} (hx : x.Shows word) (h : s.step x = .error e) :
    e.Blames x := by
  have hacts := @step_acts s x word hx
  rw [h] at hacts
  generalize hresult : Except.error e = result at hacts
  cases hacts with
  | operand ht => exact ht ▸ operand_blames hresult.symm
  | unary => cases hresult
  | binary ht => exact ht ▸ binary_blames hresult.symm
  | openGroup _ htext => exact openGroup_blames htext hresult.symm
  | closeGroup hx htext =>
    obtain ⟨hposition, htoken⟩ := closeGroup_error hresult.symm
    refine ⟨hposition, htoken.trans htext.symm ▸ citedAs_text fun _ hcall => ?_⟩
    cases hx.symm.trans hcall
  | comma hx htext =>
    obtain ⟨hposition, htoken⟩ := comma_error hresult.symm
    refine ⟨hposition, htoken.trans htext.symm ▸ citedAs_text fun _ hcall => ?_⟩
    cases hx.symm.trans hcall
  | refuse hx =>
    cases hresult
    refine ⟨rfl, citedAs_text fun _ hcall => ?_⟩
    cases hx.symm.trans hcall

/-- A run that fails blames one of its lexemes. -/
theorem run_blames {xs : List Lexeme} (hxs : ∀ x ∈ xs, ∃ word, x.Shows word)
    (h : xs.foldlM Postfix.step s = .error e) : ∃ x ∈ xs, e.Blames x := by
  obtain ⟨front, x, rest, s', rfl, -, hstep⟩ := Result.foldlM_eq_error h
  have hx : x ∈ front ++ x :: rest := by simp
  obtain ⟨word, hshows⟩ := hxs x hx
  exact ⟨x, hx, step_blames hshows hstep⟩

/-- At the end what is blamed is a group left open. -/
theorem finish_blames (h : s.finish = .error e) : ∃ y ∈ s.origins, e.Blames y := by
  obtain ⟨emitted, waiting, groups, awaiting⟩ := s
  rcases groups with _ | ⟨⟨opener, waiting'⟩, groups⟩
  · cases h
  · have hopener : opener.origin ∈
        Postfix.origins ⟨emitted, waiting, ⟨opener, waiting'⟩ :: groups, awaiting⟩ := by
      simp [Postfix.origins, Group.origins]
    refine ⟨opener.origin, hopener, ?_⟩
    cases opener with
    | paren q =>
      cases h
      exact ⟨rfl, rfl⟩
    | call name q commas =>
      cases h
      exact ⟨rfl, .inl rfl⟩

end

section

variable {source : String} {limit : Nat} {ts : List Token} {e : SyntaxError}

theorem ofSource_pointsInto (h : Token.ofSource source = .error e) :
    PointsInto e source.toList := by
  obtain ⟨xs, fault, hscan⟩ : ∃ xs fault, scan .start source.toList = (xs, fault) := ⟨_, _, rfl⟩
  obtain ⟨front, rest, hcs, hplaces, -, hfault⟩ := places_of_scan hscan
  have hshows := shows_of_places hplaces
  rw [Token.ofSource, hscan] at h
  cases hrun : xs.foldlM Postfix.step .start with
  | error e' =>
    simp only [hrun] at h
    cases h
    obtain ⟨x, hx, hblames⟩ := run_blames hshows hrun
    exact pointsInto_of_blames hplaces hx hblames
  | ok s =>
    simp only [hrun] at h
    cases fault with
    | some e' =>
      cases h
      exact pointsInto_of_citesFront hcs (hfault e rfl)
    | none =>
      obtain ⟨y, hy, hblames⟩ := finish_blames h
      obtain ⟨done, -, hperm⟩ := run_retains hshows hrun
      have hmem := hperm.subset (List.mem_append_left done hy)
      exact pointsInto_of_blames hplaces (by simpa [Postfix.start, Postfix.origins] using hmem)
        hblames

theorem push_blames {t : Token} {stack : List Expr.Node} (h : Expr.push limit stack t = .error e) :
    e.Blames t.origin := by
  rcases push_error h with ⟨-, rfl⟩ | ⟨-, rfl | rfl⟩ | rfl <;> exact blames_origin rfl rfl

theorem foldlM_push_blames {stack : List Expr.Node}
    (h : ts.foldlM (Expr.push limit) stack = .error e) : ∃ t ∈ ts, e.Blames t.origin := by
  obtain ⟨front, t, rest, stack', rfl, -, hpush⟩ := Result.foldlM_eq_error h
  exact ⟨t, by simp, push_blames hpush⟩

/-- The builder blames one of the tokens, unless there is none. -/
theorem ofPostfix_blames (h : Expr.ofPostfix limit ts = .error e) :
    (∃ t ∈ ts, e.Blames t.origin) ∨ ts = [] ∧ e = .unexpectedToken "" .start .emptyExpression := by
  rw [Expr.ofPostfix] at h
  cases hfold : ts.foldlM (Expr.push limit) [] with
  | error e' =>
    rw [hfold] at h
    cases h
    exact .inl (foldlM_push_blames hfold)
  | ok stack =>
    rw [hfold, Result.ok_bind] at h
    split at h
    · cases h
    · next t _ hlast =>
      cases h
      exact .inl ⟨t, List.mem_of_getLast? hlast, blames_origin rfl rfl⟩
    · next hlast =>
      cases h
      exact .inr ⟨List.getLast?_eq_none_iff.mp hlast, rfl⟩

theorem blank_of_munches_nil {cs : List Char} (h : Munches cs []) : ∀ c ∈ cs, isBlank c := by
  generalize hks : ([] : List Kind) = ks at h
  induction h with
  | nil => exact fun _ hc => nomatch hc
  | blank hc _ ih => exact List.forall_mem_cons.mpr ⟨hc, ih hks⟩
  | lexeme => cases hks

/-- Without tokens there is nothing but blanks. -/
theorem blank_of_ofSource_nil (h : Token.ofSource source = .ok []) :
    ∀ c ∈ source.toList, isBlank c := by
  obtain ⟨xs, s, hscan, hrun, hfinish⟩ := ofSource_eq_ok_iff.mp h
  obtain ⟨emitted, waiting, groups, awaiting⟩ := s
  rcases groups with _ | ⟨⟨_ | _, _⟩, _⟩
  · have hnil : (waiting.reverse ++ emitted).reverse = [] := Except.ok.inj hfinish
    obtain ⟨hwaiting, rfl⟩ := List.append_eq_nil_iff.mp (List.reverse_eq_nil_iff.mp hnil)
    obtain rfl := List.reverse_eq_nil_iff.mp hwaiting
    have htracks := @run_tracks 0 xs _ hrun [] .nil
    have hmunches := munches_of_scan hscan
    generalize xs.map Lexeme.kind = ks at htracks hmunches
    generalize hstack : ([] : List Expr) = stack at htracks
    cases htracks with
    | operand hopen hpending =>
      cases hopen
      cases hpending
      exact blank_of_munches_nil hmunches
    | operandOrClose hopen =>
      cases hopen
      exact blank_of_munches_nil hmunches
    | operator => cases hstack
  · cases hfinish
  · cases hfinish

theorem places_of_ofSource (h : Token.ofSource source = .ok ts) : ∃ xs,
    Places .start source.toList xs [] ∧
      (ts.map Token.origin).Perm (xs.filter fun x => x.kind.carries) := by
  obtain ⟨xs, hscan, hperm⟩ := ofSource_origins h
  obtain ⟨front, rest, -, hplaces, hrest, -⟩ := places_of_scan hscan
  rw [hrest rfl] at hplaces
  exact ⟨xs, hplaces, hperm⟩

theorem ofSource_tiles (h : Token.ofSource source = .ok ts) :
    ∃ ordered : List Token, ordered.Perm ts ∧ Tiles .start source.toList ordered := by
  obtain ⟨xs, hplaces, hperm⟩ := places_of_ofSource h
  -- What the tokens come from is put in order, and so the tokens are.
  obtain ⟨ordered, hordered, hts⟩ :=
    (congrFun₂ (List.eq_map_comp_perm Token.origin) _ ts).mpr hperm.symm
  exact ⟨ordered, hts, tiles_of_places hplaces rfl hordered.symm⟩

theorem exists_origin_of_mem {t : Token} (h : Token.ofSource source = .ok ts) (ht : t ∈ ts) :
    ∃ xs, Places .start source.toList xs [] ∧ t.origin ∈ xs := by
  obtain ⟨xs, hplaces, hperm⟩ := places_of_ofSource h
  exact ⟨xs, hplaces, List.mem_of_mem_filter (hperm.subset (List.mem_map_of_mem ht))⟩

theorem parse_of_compile_error (h : Program.compile limit source = .error e) :
    Expr.parse limit source = .error e := by
  rw [Program.compile] at h
  cases hparse : Expr.parse limit source with
  | ok e' =>
    rw [hparse] at h
    cases h
  | error e' =>
    rw [hparse] at h
    cases h
    rfl

theorem parse_pointsInto (h : Expr.parse limit source = .error e) : PointsInto e source.toList ∨
    e = .unexpectedToken "" .start .emptyExpression ∧ ∀ c ∈ source.toList, isBlank c := by
  rw [Expr.parse] at h
  cases hsource : Token.ofSource source with
  | error e' =>
    rw [hsource] at h
    cases h
    exact .inl (ofSource_pointsInto hsource)
  | ok ts =>
    rw [hsource, Result.ok_bind] at h
    rcases ofPostfix_blames h with ⟨t, ht, hblames⟩ | ⟨rfl, rfl⟩
    · obtain ⟨xs, hplaces, hmem⟩ := exists_origin_of_mem hsource ht
      exact .inl (pointsInto_of_blames hplaces hmem hblames)
    · exact .inr ⟨rfl, blank_of_ofSource_nil hsource⟩

/-- The tokens of a source, in the order of their places, tile it but for blanks, parentheses and
commas, and each string has the value that is written between its quotes. An error cites what stands
at its place, unless there is nothing but blanks. -/
theorem tokens_and_errors_located (source : String) :
    (∀ ts, Token.ofSource source = .ok ts →
      (∃ ordered : List Token, ordered.Perm ts ∧
        (ordered.Pairwise fun t u => t.position.Before u.position) ∧
        Tiles .start source.toList ordered) ∧
      ∀ t ∈ ts, ∀ value, t.kind = .literal (.string value) → ∃ body,
        t.text.toList = '"' :: (body ++ ['"']) ∧ value.toList = unescape body) ∧
    ∀ limit e, Program.compile limit source = .error e → PointsInto e source.toList ∨
      e = .unexpectedToken "" .start .emptyExpression ∧ ∀ c ∈ source.toList, isBlank c := by
  refine ⟨fun ts h => ⟨?_, fun t ht value hvalue => ?_⟩, fun limit e h => ?_⟩
  · obtain ⟨ordered, hperm, htiles⟩ := ofSource_tiles h
    exact ⟨ordered, hperm, (tiles_ordered htiles).2, htiles⟩
  · obtain ⟨xs, hplaces, hmem⟩ := exists_origin_of_mem h ht
    obtain ⟨word, hshows⟩ := shows_of_places hplaces t.origin hmem
    exact exists_body_of_shows hshows hvalue
  · exact parse_pointsInto (parse_of_compile_error h)

/-- The operator comes last in postfix order and first in the source. Left open, the call is blamed
where its name stands. -/
theorem tokens_and_errors_located_call :
    (∃ ordered : List Token, ordered.Perm [⟨.name "x", "x", ⟨2, 2⟩⟩, ⟨.call "f" 1, "f", ⟨1, 2⟩⟩,
        ⟨.unary .not, "!", ⟨1, 1⟩⟩] ∧
      (ordered.Pairwise fun t u => t.position.Before u.position) ∧
      Tiles .start "!f\n(x)".toList ordered) ∧
    (PointsInto (.unexpectedToken "f(" ⟨1, 2⟩ .unclosedCall) "!f\n(x".toList ∨
      SyntaxError.unexpectedToken "f(" ⟨1, 2⟩ .unclosedCall =
        .unexpectedToken "" .start .emptyExpression ∧ ∀ c ∈ "!f\n(x".toList, isBlank c) := by
  refine ⟨((tokens_and_errors_located "!f\n(x)").1 _ ?_).1,
    (tokens_and_errors_located "!f\n(x").2 defaultDepth _ ?_⟩
  -- The scan is by well-founded recursion, which `rfl` alone leaves folded.
  · with_unfolding_all rfl
  · with_unfolding_all rfl

end

end AccessControl.Matcher
