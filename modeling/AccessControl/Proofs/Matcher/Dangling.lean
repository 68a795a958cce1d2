import AccessControl.Matcher.Program
import AccessControl.Proofs.Matcher.Origin
import AccessControl.Proofs.Matcher.Truncation
import AccessControl.Proofs.Sequence

namespace AccessControl.Matcher

open Text
open Lexeme (Kind scan)
open AccessControl.Matcher.Expr (Builds)

section

variable {p : Position} {c : Char} {cs tail : List Char}

/-- A blank ends every word, unless a parenthesis or a quote comes behind it. -/
theorem longest_append_blank {k : Kind} {word : List Char} (h : Longest k word cs) (hc : isBlank c)
    (hparen : '(' ∉ c :: tail) (hquote : '"' ∉ c :: tail) : Longest k word (cs ++ c :: tail) := by
  refine ⟨h.spelt, fun k' word' hk' hstarts => ?_⟩
  obtain ⟨back, hback⟩ := hstarts
  rw [← List.append_assoc] at hback
  rcases List.append_eq_append_iff.mp hback with ⟨a, hword, -⟩ | ⟨more, hword, htail⟩
  · exact h.longest k' word' hk' ⟨a, hword.symm⟩
  · cases more with
    | nil => exact h.longest k' word' hk' ⟨[], by simp [hword]⟩
    | cons d more =>
      have hmem {a : Char} (ha : a ∈ d :: more) : a ∈ c :: tail :=
        htail ▸ List.mem_append_left back ha
      have hmore : d :: more ≠ [] := List.cons_ne_nil d more
      rcases spelt_forms hk' with hplain | ⟨name, gap, hcall, -, -⟩ | ⟨value, body, hstring, -⟩
      · obtain ⟨rfl, -⟩ := List.cons.inj htail
        have hd := hplain c (hword ▸ List.mem_append_right _ List.mem_cons_self)
        rw [(isPlain_iff.mp hd).1] at hc
        cases hc
      · rw [hword, ← List.append_assoc name] at hcall
        exact absurd (hmem (Sequence.mem_of_append_eq_concat hcall hmore)) hparen
      · rw [hword, ← List.cons_append] at hstring
        exact absurd (hmem (Sequence.mem_of_append_eq_concat hstring hmore)) hquote

/-- More text behind a blank leaves the lexemes before it as they are. -/
theorem scan_append_blank {xs : List Lexeme} {rest : List Char} (h : Places p cs xs rest)
    (hrest : rest = []) (hglued : ¬Glued (xs.map Lexeme.kind)) (hc : isBlank c)
    (hparen : '(' ∉ c :: tail) (hquote : '"' ∉ c :: tail) :
    scan p (cs ++ c :: tail) =
      (xs ++ (scan (p.after cs) (c :: tail)).1, (scan (p.after cs) (c :: tail)).2) := by
  induction h with
  | stop =>
    subst hrest
    rfl
  | @blank p d cs xs rest hd _ ih =>
    rw [List.cons_append, scan_blank hd, ih hrest hglued]
    rfl
  | @lexeme p k word cs xs rest hk h ih =>
    rw [List.append_assoc]
    rcases scan_longest (longest_append_blank hk hc hparen hquote) p with
      ⟨l, rfl, d, hd, hstart⟩ | hscan
    · -- A number runs into a name here only if it did so before.
      cases cs with
      | nil =>
        cases hd
        rw [isBlank_eq_false_of_isSymbolPart (isSymbolPart_of_isSymbolStart hstart)] at hc
        cases hc
      | cons d' cs =>
        cases hd
        obtain ⟨k', ks', hks, hname⟩ := munches_letter (munches_of_places h hrest) rfl hstart
        exact absurd ⟨[], l, k', ks', congrArg (_ :: ·) hks, hname⟩ hglued
    · rw [hscan, ih hrest fun hks => hglued (glued_cons k hks), Position.after_append]
      rfl

theorem scan_gap_append {gap : List Char} (hgap : ∀ c ∈ gap, isBlank c) (p : Position)
    (cs : List Char) : scan p (gap ++ cs) = scan (p.after gap) cs := by
  induction gap generalizing p with
  | nil => rfl
  | cons c gap ih =>
    obtain ⟨hc, hgap⟩ := List.forall_mem_cons.mp hgap
    rw [List.cons_append, scan_blank hc, ih hgap]
    rfl

/-- The lexeme that the symbol of a binary operator is. -/
def BinaryOp.lexeme (op : BinaryOp) (p : Position) : Lexeme :=
  Token.origin ⟨.binary op, op.symbol, p⟩

theorem binary?_lexeme (op : BinaryOp) (p : Position) : (op.lexeme p).kind.binary? = some op := by
  cases op <;> rfl

theorem longest_of_spelt {k : Kind} {word : List Char} (h : Spelt k word) : Longest k word [] := by
  refine ⟨h, fun _ _ _ hstarts => ?_⟩
  rw [List.append_nil] at hstarts
  exact hstarts.length_le

theorem scan_symbol (op : BinaryOp) (p : Position) :
    scan p op.symbol.toList = ([op.lexeme p], none) := by
  have hspelt : Spelt (op.lexeme p).kind op.symbol.toList := .symbol (by cases op <;> rfl)
  rcases scan_longest (longest_of_spelt hspelt) p with ⟨_, _, _, hd, _⟩ | hscan
  · cases hd
  · rw [List.append_nil, scan] at hscan
    rw [hscan]
    cases op <;> rfl

/-- Behind a gap the symbol is one more lexeme. -/
theorem scan_append_symbol {xs : List Lexeme} {gap : List Char} (h : Places p cs xs [])
    (hglued : ¬Glued (xs.map Lexeme.kind)) (hgap : gap ≠ []) (hblank : ∀ c ∈ gap, isBlank c)
    (op : BinaryOp) : scan p (cs ++ (gap ++ op.symbol.toList)) =
      (xs ++ [op.lexeme (p.after (cs ++ gap))], none) := by
  obtain ⟨c, gap, rfl⟩ := List.exists_cons_of_ne_nil hgap
  have hnot {d : Char} (hd : isBlank d = false) (hop : d ∉ op.symbol.toList) :
      d ∉ c :: (gap ++ op.symbol.toList) := by
    intro hmem
    rcases List.mem_append.mp (List.cons_append ▸ hmem) with hmem | hmem
    · rw [hblank d hmem] at hd
      cases hd
    · exact hop hmem
  have hparen := @hnot '(' (by decide) (by cases op <;> decide)
  have hquote := @hnot '"' (by decide) (by cases op <;> decide)
  rw [List.cons_append, scan_append_blank h rfl hglued (hblank c List.mem_cons_self) hparen hquote,
    ← List.cons_append, scan_gap_append hblank, scan_symbol, Position.after_append]

end

/-- Behind lexemes of the kinds `ks` an operator without a right operand takes one from what they
spell. Given one operand more, their tokens and its own then make an expression that is as high as
if the operator joined this operand and `e`. -/
def Feeds (op : BinaryOp) (l : Level) (ks : List Kind) (e : Expr) : Prop :=
  ∀ (xs : List Lexeme) (x : Lexeme) (s : Postfix), xs.map Lexeme.kind = ks →
    x.kind.binary? = some op → s.awaiting ≠ .operator →
    (∀ u ∈ s.waiting.head?, u.kind.precedence < l.bound ∧ u.kind.precedence < op.precedence) →
    ∃ out loose : List Token,
      (xs ++ [x]).foldlM Postfix.step s = .ok ⟨out.reverse ++ s.emitted,
        ⟨.binary op, x.text, x.position⟩ :: (loose ++ s.waiting), s.groups, .operand⟩ ∧
      ∀ limit c stack, max c.height e.height < limit → ∃ e' : Expr,
        e'.height = max c.height e.height + 1 ∧
        Builds limit ((out ++ ⟨.binary op, x.text, x.position⟩ :: loose).map Token.kind)
          (c :: stack) (e' :: stack)

section

variable {op : BinaryOp} {l : Level} {ks : List Kind} {e : Expr}

theorem builds_binary {limit : Nat} {a b : Expr} {stack : List Expr}
    (h : max a.height b.height < limit) :
    Builds limit [.binary op] (b :: a :: stack) (.binary op a b :: stack) :=
  Expr.builds_singleton .binary h

/-- An expression that binds at least as tight is the operand itself. -/
theorem feeds_of_le (h : Reads l ks e) (he : e.Proper) (hop : op.precedence ≤ l.rank) :
    Feeds op l ks e := by
  intro xs x s hxs hx hs hwaiting
  obtain ⟨out, hrun, hkinds⟩ := reads_operator h (fun _ hs => Postfix.step_binary hs hx) hop hxs hs
    fun u hu => (hwaiting u hu).2
  refine ⟨out, [], hrun, fun limit c stack hlimit => ⟨.binary op c e, rfl, ?_⟩⟩
  have hheight : e.height ≤ limit := by omega
  rw [List.map_append, hkinds]
  exact Expr.builds_append_iff.mpr
    ⟨_, Expr.builds_postorder e (c :: stack) he hheight, builds_binary hlimit⟩

theorem feeds_loosen {l' : Level} (hl : l.rank ≤ l'.rank) (h : Feeds op l' ks e) :
    Feeds op l ks e := by
  intro xs x s hxs hx hs hwaiting
  refine h xs x s hxs hx hs fun u hu => ⟨?_, (hwaiting u hu).2⟩
  exact Nat.lt_of_lt_of_le (hwaiting u hu).1 (Level.bound_le_bound hl)

/-- Where two expressions are joined by an operator that binds looser, the right one feeds the
operator behind it with the left one, and what joined them waits. -/
theorem run_joint {l' : Level} {op₁ : BinaryOp} {ls : List Kind} {a b : Expr}
    (hop₁ : op₁ ∈ l.operators) (hl : l.rank < l'.rank) (hlt : op₁.precedence < op.precedence)
    (ha : Reads l ks a) (hproper : a.Proper) (hb : Feeds op l' ls b) {front back : List Lexeme}
    {x z : Lexeme} {s : Postfix} (hfront : front.map Lexeme.kind = ks)
    (hx : x.kind.binary? = some op₁) (hback : back.map Lexeme.kind = ls)
    (hz : z.kind.binary? = some op) (hs : s.awaiting ≠ .operator)
    (hwaiting : ∀ u ∈ s.waiting.head?, u.kind.precedence < op₁.precedence) :
    ∃ out loose : List Token,
      (front ++ x :: back ++ [z]).foldlM Postfix.step s = .ok ⟨out.reverse ++ s.emitted,
        ⟨.binary op, z.text, z.position⟩ ::
          (loose ++ ⟨.binary op₁, x.text, x.position⟩ :: s.waiting), s.groups, .operand⟩ ∧
      ∀ limit stack, max a.height b.height < limit → ∃ e' : Expr,
        e'.height = max a.height b.height + 1 ∧
        Builds limit ((out ++ ⟨.binary op, z.text, z.position⟩ :: loose).map Token.kind)
          stack (e' :: stack) := by
  have hrank := Level.rank_of_mem_operators hop₁
  obtain ⟨out, hrun, hkinds⟩ :=
    reads_operator ha (fun _ hs => Postfix.step_binary hs hx) hrank.ge hfront hs hwaiting
  let s' : Postfix := ⟨out.reverse ++ s.emitted, ⟨.binary op₁, x.text, x.position⟩ :: s.waiting,
    s.groups, .operand⟩
  have hbound : op₁.precedence < l'.bound := by
    rw [← hrank]
    exact Nat.lt_of_lt_of_le hl (Level.rank_le_bound l')
  have hwaiting' : ∀ u ∈ s'.waiting.head?,
      u.kind.precedence < l'.bound ∧ u.kind.precedence < op.precedence := by
    intro u hu
    cases hu
    exact ⟨hbound, hlt⟩
  obtain ⟨out', loose, hrun', hbuilds'⟩ := hb back z s' hback hz (by simp [s']) hwaiting'
  refine ⟨out ++ out', loose, ?_, fun limit stack hlimit => ?_⟩
  · have hsplit : front ++ x :: back ++ [z] = (front ++ [x]) ++ (back ++ [z]) := by simp
    rw [hsplit, List.foldlM_append, hrun, Result.ok_bind, hrun']
    simp [s']
  · obtain ⟨e', he', hbuilds⟩ := hbuilds' limit a stack hlimit
    refine ⟨e', he', ?_⟩
    have hleft := @Expr.builds_postorder limit a stack hproper (by omega)
    rw [← hkinds] at hleft
    rw [List.append_assoc, List.map_append]
    exact Expr.builds_append_iff.mpr ⟨_, hleft, hbuilds⟩

/-- What joined them then takes the operand given, and what the others have made. -/
theorem feeds_binary {l' : Level} {op₁ : BinaryOp} {k : Kind} {ls : List Kind} {a b : Expr}
    (hop₁ : op₁ ∈ l.operators) (hk : k.binary? = some op₁) (hl : l.rank < l'.rank)
    (hlt : op₁.precedence < op.precedence) (ha : Reads l ks a) (hproper : a.Proper)
    (hb : Feeds op l' ls b) : Feeds op l (ks ++ k :: ls) (.binary op₁ a b) := by
  intro _ z s hall hz hs hwaiting
  obtain ⟨front, zs, rfl, hfront, hzs⟩ := List.map_eq_append_iff.mp hall
  obtain ⟨x, back, rfl, hx, hback⟩ := List.map_eq_cons_iff.mp hzs
  have hwaiting' : ∀ u ∈ s.waiting.head?, u.kind.precedence < op₁.precedence := by
    rw [← Level.rank_of_mem_operators hop₁, ← Level.bound_of_mem_operators hop₁]
    exact fun u hu => (hwaiting u hu).1
  obtain ⟨out, loose, hrun, hbuilds⟩ :=
    run_joint hop₁ hl hlt ha hproper hb hfront (hx ▸ hk) hback hz hs hwaiting'
  refine ⟨out, loose ++ [⟨.binary op₁, x.text, x.position⟩], ?_, fun limit c stack hlimit => ?_⟩
  · rw [hrun]
    simp
  · have hheight : Expr.height (.binary op₁ a b) = max a.height b.height + 1 := rfl
    obtain ⟨e', he', hright⟩ := hbuilds limit (c :: stack) (by omega)
    have hlast := @builds_binary op₁ limit c e' stack (by omega)
    refine ⟨.binary op₁ c e', ?_, ?_⟩
    · rw [hheight, ← he']
      rfl
    · have hall := Expr.builds_append_iff.mpr ⟨_, hright, hlast⟩
      simpa using hall

/-- Seen from an operator behind it, an expression binds at least as tight, or else two expressions
are joined that do not. -/
inductive Faces (op : BinaryOp) (l : Level) : List Kind → Expr → Prop
  | tight {l' ks e} (hl : l.rank ≤ l'.rank) (hop : op.precedence ≤ l'.rank)
    (h : Derives l' ks e) : Faces op l ks e
  | loose {l₁ l' : Level} {k op₁ ks ls a b} (hl₁ : l.rank ≤ l₁.rank) (hop₁ : op₁ ∈ l₁.operators)
    (hk : k.binary? = some op₁) (hl : l₁.rank < l'.rank) (hlt : op₁.precedence < op.precedence)
    (ha : Derives l₁ ks a) (hb : Derives l' ls b) : Faces op l (ks ++ k :: ls) (.binary op₁ a b)

theorem derives_faces (op : BinaryOp) (h : Derives l ks e) : Faces op l ks e := by
  have hproduct : op.precedence ≤ Level.product.rank := by cases op <;> decide
  have htight {l : Level} {ks : List Kind} {e : Expr} (hl : Level.product.rank ≤ l.rank)
      (h : Derives l ks e) : Faces op l ks e :=
    .tight (Nat.le_refl _) (Nat.le_trans hproduct hl) h
  induction h with
  | loosen hl _ ih =>
    cases ih with
    | tight hl' hop h => exact .tight (Nat.le_trans hl hl') hop h
    | loose hl₁ hop₁ hk hl' hlt ha hb =>
      exact .loose (Nat.le_trans hl hl₁) hop₁ hk hl' hlt ha hb
  | @binary l _ _ op₁ _ _ _ _ hop₁ hk hl ha hb =>
    have hrank := Level.rank_of_mem_operators hop₁
    by_cases hle : op.precedence ≤ l.rank
    · exact .tight (Nat.le_refl _) hle (.binary hop₁ hk hl ha hb)
    · exact .loose (Nat.le_refl _) hop₁ hk hl (by omega) ha hb
  | unary h => exact htight (by decide) (.unary h)
  | attr howner hattr => exact htight (by decide) (.attr howner hattr)
  | attrOf howner hattr => exact htight (by decide) (.attrOf howner hattr)
  | literal => exact htight (by decide) .literal
  | name => exact htight (by decide) .name
  | paren h => exact htight (by decide) (.paren h)
  | call h => exact htight (by decide) (.call h)

theorem derives_feeds (op : BinaryOp) {l : Level} {ks : List Kind} {e : Expr}
    (h : Derives l ks e) : Feeds op l ks e := by
  cases derives_faces op h with
  | tight hl hop h => exact feeds_loosen hl (feeds_of_le (derives_reads h) (derives_proper h) hop)
  | loose hl₁ hop₁ hk hl hlt ha hb =>
    have hfeeds := derives_feeds op hb
    exact feeds_loosen hl₁
      (feeds_binary hop₁ hk hl hlt (derives_reads ha) (derives_proper ha) hfeeds)
termination_by ks.length
decreasing_by
  subst_vars
  simp only [List.length_append, List.length_cons]
  omega

end

/-- Which operator is without its right operand when `op` stands at `p` behind the lexemes of an
expression, and where that operator stands: the one that joins the whole expression if it binds
looser than `op`, or else `op`. -/
inductive Lacks (op : BinaryOp) (p : Position) (xs : List Lexeme) : BinaryOp → Position → Prop
  | last {l e} (hop : op ∈ l.operators) (h : Derives l (xs.map Lexeme.kind) e) : Lacks op p xs op p
  | joint {l l' : Level} {front x back op₁ a b} (hxs : xs = front ++ x :: back)
    (hop₁ : op₁ ∈ l.operators) (hx : x.kind.binary? = some op₁) (hl : l.rank < l'.rank)
    (hlt : op₁.precedence < op.precedence) (ha : Derives l (front.map Lexeme.kind) a)
    (hb : Derives l' (back.map Lexeme.kind) b) : Lacks op p xs op₁ x.position

theorem exists_lacks {xs : List Lexeme} {e : Expr} (op : BinaryOp) (p : Position)
    (h : Derives .disjunction (xs.map Lexeme.kind) e) : ∃ op₁ q, Lacks op p xs op₁ q := by
  generalize hks : xs.map Lexeme.kind = ks at h
  cases derives_faces op h with
  | tight hl hop h =>
    obtain ⟨l, hmem⟩ := Level.exists_mem_operators op
    have hrank := Level.rank_of_mem_operators hmem
    subst hks
    exact ⟨op, p, .last hmem (.loosen (hrank ▸ hop) h)⟩
  | loose _ hop₁ hk hl hlt ha hb =>
    obtain ⟨front, zs, rfl, rfl, hzs⟩ := List.map_eq_append_iff.mp hks
    obtain ⟨x, back, rfl, rfl, rfl⟩ := List.map_eq_cons_iff.mp hzs
    exact ⟨_, x.position, .joint rfl hop₁ hk hl hlt ha hb⟩

section

variable {limit : Nat}

/-- A binary operator that finds but one expression is blamed. -/
theorem ofPostfix_of_lone {ts : List Token} {t : Token} {op : BinaryOp} {e : Expr}
    (h : Builds limit (ts.map Token.kind) [] [e]) (ht : t.kind = .binary op) :
    Expr.ofPostfix limit (ts ++ [t]) = .error (.arityMismatch t.text t.position 2 1) := by
  obtain ⟨kind, text, position⟩ := t
  cases ht
  have hfold := (@Expr.foldlM_push_eq_ok_iff limit ts [] _).mpr ⟨[e], rfl, h⟩
  rw [Expr.ofPostfix, List.foldlM_append]
  rw [List.map_nil] at hfold
  rw [hfold]
  rfl

theorem parse_of_lone {source : String} {xs : List Lexeme} {out loose : List Token} {t : Token}
    {op : BinaryOp} {e : Expr} (hscan : scan .start source.toList = (xs, none))
    (hrun : xs.foldlM Postfix.step .start = .ok ⟨out.reverse, loose ++ [t], [], .operand⟩)
    (h : Builds limit ((out ++ loose).map Token.kind) [] [e]) (ht : t.kind = .binary op) :
    Expr.parse limit source = .error (.arityMismatch t.text t.position 2 1) := by
  have hfinish : Postfix.finish ⟨out.reverse, loose ++ [t], [], .operand⟩ =
      .ok (out ++ loose ++ [t]) := by
    simp [Postfix.finish]
  have hsource := ofSource_eq_ok_iff.mpr ⟨xs, _, hscan, hrun, hfinish⟩
  rw [Expr.parse, hsource, Result.ok_bind]
  exact ofPostfix_of_lone h ht

/-- With one more operator behind an expression, the operator that lacks its operand is blamed. -/
theorem parse_of_lacks {source : String} {xs : List Lexeme} {op op₁ : BinaryOp} {p q : Position}
    (hxs : ∀ x ∈ xs, ∃ word, x.Shows word)
    (hscan : scan .start source.toList = (xs ++ [op.lexeme p], none))
    (hheight : ∀ e, Derives .disjunction (xs.map Lexeme.kind) e → e.height ≤ limit)
    (h : Lacks op p xs op₁ q) :
    Expr.parse limit source = .error (.arityMismatch op₁.symbol q 2 1) := by
  have hloosest (l : Level) : Level.disjunction.rank ≤ l.rank := by cases l <;> decide
  have hop := binary?_lexeme op p
  cases h with
  | @last l e hmem h =>
    have hrank := Level.rank_of_mem_operators hmem
    obtain ⟨out, hrun, hkinds⟩ := @reads_operator l _ e (derives_reads h) xs (op.lexeme p)
      (.binary op) .start (fun _ hs => Postfix.step_binary hs hop) hrank.ge rfl (by decide)
      fun u hu => nomatch hu
    have hbuilds := @Expr.builds_postorder limit e [] (derives_proper h)
      (hheight e (.loosen (hloosest l) h))
    rw [← hkinds] at hbuilds
    have hemitted : out.reverse ++ Postfix.start.emitted = out.reverse := List.append_nil _
    rw [hemitted] at hrun
    exact @parse_of_lone limit source _ out [] ⟨.binary op, op.symbol, p⟩ op e hscan hrun
      (by rwa [List.append_nil]) rfl
  | @joint l l' front x back _ a b hsplit hop₁ hx hl hlt ha hb =>
    obtain ⟨word, hshows⟩ := hxs x (by simp [hsplit])
    have hheight' := hheight (.binary op₁ a b) (.loosen (hloosest l) (by
      rw [hsplit, List.map_append, List.map_cons]
      exact .binary hop₁ hx hl ha hb))
    obtain ⟨out, loose, hrun, hbuilds⟩ := @run_joint op l _ l' op₁ _ a b hop₁ hl hlt
      (derives_reads ha) (derives_proper ha) (derives_feeds op hb) front back x (op.lexeme p) .start
      rfl hx rfl hop (by decide) fun u hu => nomatch hu
    obtain ⟨e', -, hbuilds⟩ := hbuilds limit [] hheight'
    have hemitted : out.reverse ++ Postfix.start.emitted = out.reverse := List.append_nil _
    rw [hemitted] at hrun
    rw [hsplit] at hscan
    rw [← text_of_binary? hshows hx]
    exact @parse_of_lone limit source _ out (⟨.binary op, op.symbol, p⟩ :: loose)
      ⟨.binary op₁, x.text, x.position⟩ op₁ e' hscan hrun hbuilds rfl

/-- The lexemes of a source derive nothing but the expression that it spells. -/
theorem exists_lexemes_of_parse {source : String} {e : Expr}
    (h : Expr.parse limit source = .ok e) : ∃ xs, scan .start source.toList = (xs, none) ∧
      Derives .disjunction (xs.map Lexeme.kind) e ∧
      ∀ e', Derives .disjunction (xs.map Lexeme.kind) e' → e'.height ≤ limit := by
  obtain ⟨ks, hmunches, hderives, hheight⟩ := derives_of_parse h
  obtain ⟨xs, hscan, rfl⟩ :=
    (scan_of_munches hmunches .start).resolve_left (not_glued_of_derives hderives)
  refine ⟨xs, hscan, hderives, fun e' h' => ?_⟩
  have hother := parse_of_derives hmunches h' (Nat.le_refl e'.height)
  rw [parse_unique hother h]
  exact hheight

/-- An operator without a right operand behind a whole expression is blamed itself only if it binds
no tighter than the operator that joins the expression. Otherwise it takes the right operand of that
one, which is then blamed in its place. -/
theorem compile_dangling (limit : Nat) (source : String) (program : Program) (gap : List Char)
    (op : BinaryOp) (h : Program.compile limit source = .ok program) (hgap : gap ≠ [])
    (hblank : ∀ c ∈ gap, isBlank c) : ∃ xs, scan .start source.toList = (xs, none) ∧
      (∃ op₁ q, Lacks op (Position.start.after (source.toList ++ gap)) xs op₁ q) ∧
      ∀ op₁ q, Lacks op (Position.start.after (source.toList ++ gap)) xs op₁ q →
        Program.compile limit (source ++ .ofList gap ++ op.symbol) =
          .error (.arityMismatch op₁.symbol q 2 1) := by
  obtain ⟨e, hparse, -⟩ := Result.bind_eq_ok_iff.mp h
  obtain ⟨xs, hscan, hderives, hheight⟩ := exists_lexemes_of_parse hparse
  obtain ⟨_, rest, -, hplaces, hrest, -⟩ := places_of_scan hscan
  rw [hrest rfl] at hplaces
  refine ⟨xs, hscan, exists_lacks op _ hderives, fun op₁ q hlacks => ?_⟩
  have hshows := shows_of_places hplaces
  have htext : (source ++ .ofList gap ++ op.symbol).toList =
      source.toList ++ (gap ++ op.symbol.toList) := by
    rw [String.toList_append, String.toList_append, String.toList_ofList, List.append_assoc]
  have hscan' := scan_append_symbol hplaces (not_glued_of_derives hderives) hgap hblank op
  rw [← htext] at hscan'
  rw [Program.compile, parse_of_lacks hshows hscan' hheight hlacks]
  rfl

theorem compile_dangling_space : ∃ xs, scan .start "a || b".toList = (xs, none) ∧
    (∃ op₁ q, Lacks .and (Position.start.after ("a || b".toList ++ [' '])) xs op₁ q) ∧
    ∀ op₁ q, Lacks .and (Position.start.after ("a || b".toList ++ [' '])) xs op₁ q →
      Program.compile 2 ("a || b" ++ .ofList [' '] ++ BinaryOp.and.symbol) =
        .error (.arityMismatch op₁.symbol q 2 1) := by
  have hcompile : Program.compile 2 "a || b" =
      .ok ⟨"a || b", [.fetch "a", .fetch "b", .binary .or]⟩ := by with_unfolding_all rfl
  exact compile_dangling 2 "a || b" _ [' '] .and hcompile (List.cons_ne_nil _ _)
    isBlank_of_mem_space

/-- The operator that has no right operand is not the one that is blamed. -/
theorem compile_dangling_blames_joint :
    Program.compile 2 "a || b" = .ok ⟨"a || b", [.fetch "a", .fetch "b", .binary .or]⟩ ∧
    Program.compile 2 "a || b &&" = .error (.arityMismatch "||" ⟨1, 3⟩ 2 1) ∧
    ∀ expected found, Program.compile 2 "a || b &&" ≠
      .error (.arityMismatch "&&" (Position.start.after "a || b ".toList) expected found) := by
  have herror : Program.compile 2 "a || b &&" = .error (.arityMismatch "||" ⟨1, 3⟩ 2 1) := by
    with_unfolding_all rfl
  refine ⟨by with_unfolding_all rfl, herror, fun expected found h => ?_⟩
  rw [herror] at h
  simp at h

end

end AccessControl.Matcher
