import AccessControl.Matcher.Postfix
import AccessControl.Proofs.Matcher.Grammar
import AccessControl.Proofs.Sequence
import Mathlib.Data.List.Induction
import Mathlib.Data.List.TakeWhile

namespace AccessControl.Matcher

open Lexeme (Kind)
open AccessControl.Matcher.Expr (Takes Builds)

/-- How tight the last operand of an operator has to be. That of a dot is a bare name in the end, so
that nothing is asked of it. -/
def Token.Kind.need : Token.Kind → Nat
  | binary op => op.precedence + 1
  | unary _ => unaryPrecedence
  | _ => 0

theorem Token.Kind.need_le_succ (k : Token.Kind) : k.need ≤ k.precedence + 1 := by
  cases k <;> simp [need, precedence]

theorem Token.Kind.need_le_prefixed (k : Token.Kind) : k.need ≤ Level.prefixed.rank := by
  cases k with
  | binary op => cases op <;> decide
  | _ => simp [need, unaryPrecedence, Level.rank]

/-- What has been read of a group up to the operand that comes next: the operators that wait for
it, the lexemes, and the left operands, the last of which comes first. -/
inductive Pending : List Token → List Kind → List Expr → Prop
  | nil : Pending [] [] []
  | unary {t op waiting ks lefts} (ht : t.kind = .unary op) (h : Pending waiting ks lefts) :
    Pending (t :: waiting) (ks ++ [.sign op]) lefts
  | binary {l : Level} {t k op waiting ks ls a lefts} (ht : t.kind = .binary op)
    (hk : k.binary? = some op) (hop : op ∈ l.operators) (ha : Derives l ls a)
    (hneed : ∀ u ∈ waiting.head?, u.kind.need ≤ l.rank) (h : Pending waiting ks lefts) :
    Pending (t :: waiting) (ks ++ ls ++ [k]) (a :: lefts)
  | dot {t waiting ks ls a lefts} (ht : t.kind = .dot) (ha : Derives .access ls a)
    (hneed : ∀ u ∈ waiting.head?, u.kind.need ≤ Level.access.rank)
    (h : Pending waiting ks lefts) : Pending (t :: waiting) (ks ++ ls ++ [.dot]) (a :: lefts)

/-- Without the operand that comes next there is one operand too few. -/
theorem pending_length {waiting : List Token} {ks : List Kind} {lefts : List Expr}
    (h : Pending waiting ks lefts) :
    lefts.length + waiting.length = Expr.operandsAll (waiting.map Token.kind) := by
  induction h with
  | nil => rfl
  | unary ht _ ih =>
    simp only [List.length_cons, List.map_cons, ht, Expr.operandsAll, Expr.operands]
    omega
  | binary ht _ _ _ _ _ ih =>
    simp only [List.length_cons, List.map_cons, ht, Expr.operandsAll, Expr.operands]
    omega
  | dot ht _ _ _ ih =>
    simp only [List.length_cons, List.map_cons, ht, Expr.operandsAll, Expr.operands]
    omega

theorem pending_precedence {waiting : List Token} {ks : List Kind} {lefts : List Expr}
    (h : Pending waiting ks lefts) :
    ∀ t ∈ waiting, Level.disjunction.rank ≤ t.kind.precedence := by
  induction h with
  | nil => exact fun t ht => nomatch ht
  | unary ht _ ih =>
    refine List.forall_mem_cons.mpr ⟨?_, ih⟩
    rw [ht]
    exact (by decide : 1 ≤ unaryPrecedence)
  | @binary l _ _ op _ _ _ _ _ ht _ hop _ _ _ ih =>
    refine List.forall_mem_cons.mpr ⟨?_, ih⟩
    rw [ht]
    cases op <;> decide
  | dot ht _ _ _ ih =>
    refine List.forall_mem_cons.mpr ⟨?_, ih⟩
    rw [ht]
    decide

section

variable {limit : Nat}

/-- The innermost operator takes the operand it has been waiting for. -/
theorem pending_pop {t : Token} {waiting : List Token} {ks ls : List Kind}
    {lefts outer rest : List Expr} {l : Level} {b e : Expr}
    (h : Pending (t :: waiting) ks lefts) (hb : Derives l ls b) (hneed : t.kind.need ≤ l.rank)
    (htakes : Takes t.kind (b :: (lefts ++ outer)) e rest) :
    ∃ (l' : Level) (ks' ls' : List Kind) (lefts' : List Expr), l'.rank = t.kind.precedence ∧
      Pending waiting ks' lefts' ∧ Derives l' ls' e ∧ ks ++ ls = ks' ++ ls' ∧
      rest = lefts' ++ outer ∧ ∀ u ∈ waiting.head?, u.kind.need ≤ l'.rank := by
  cases h with
  | @unary _ op _ ks lefts ht h =>
    rw [ht] at hneed htakes
    cases htakes
    have hunary := @Derives.unary op ls b (.loosen hneed hb)
    refine ⟨.prefixed, ks, .sign op :: ls, lefts, ?_, h, hunary, by simp, rfl, ?_⟩
    · rw [ht]
      rfl
    · exact fun u _ => u.kind.need_le_prefixed
  | @binary l₀ _ k op _ ks ls₀ a lefts ht hk hop ha hwaiting h =>
    rw [ht] at hneed htakes
    cases htakes
    have hrank := Level.rank_of_mem_operators hop
    have hlt : l₀.rank < l.rank := by
      rw [hrank]
      exact hneed
    refine ⟨l₀, ks, ls₀ ++ k :: ls, lefts, ?_, h, .binary hop hk hlt ha hb, by simp, rfl, hwaiting⟩
    rw [ht]
    exact hrank
  | @dot _ _ ks ls₀ a lefts ht ha hwaiting h =>
    rw [ht] at htakes
    cases htakes with
    | dot haccess =>
      refine ⟨.access, ks, ls₀ ++ .dot :: ls, lefts, ?_, h, derives_access ha hb haccess, by simp,
        rfl, hwaiting⟩
      rw [ht]
      rfl

/-- As many operators as bind at least as tight as a level leave an expression of that level. -/
theorem pending_flush {l : Level} {held waiting : List Token} {ks ls : List Kind}
    {lefts outer stack : List Expr} {l' : Level} {b : Expr}
    (h : Pending (held ++ waiting) ks lefts) (hheld : ∀ t ∈ held, l.rank ≤ t.kind.precedence)
    (hb : Derives l' ls b) (hl : l.rank ≤ l'.rank)
    (hneed : ∀ u ∈ (held ++ waiting).head?, u.kind.need ≤ l'.rank)
    (hbuilds : Builds limit (held.map Token.kind) (b :: (lefts ++ outer)) stack) :
    ∃ (ks' ls' : List Kind) (lefts' : List Expr) (e : Expr), Pending waiting ks' lefts' ∧
      Derives l ls' e ∧ ks ++ ls = ks' ++ ls' ∧ stack = e :: (lefts' ++ outer) := by
  -- The innermost operator goes first; what it makes is the last operand of the next.
  induction held generalizing ks ls lefts l' b with
  | nil =>
    cases hbuilds
    exact ⟨ks, ls, lefts, b, h, .loosen hl hb, rfl, rfl⟩
  | cons t held ih =>
    cases hbuilds with
    | cons htakes _ hrest =>
      obtain ⟨l₁, ks₁, ls₁, lefts₁, hrank, h₁, he₁, hks₁, rfl, hneed₁⟩ :=
        pending_pop h hb (hneed t rfl) htakes
      have hl₁ : l.rank ≤ l₁.rank := by
        rw [hrank]
        exact hheld t List.mem_cons_self
      obtain ⟨ks', ls', lefts', e, h', he, hks', hstack⟩ :=
        ih h₁ (fun u hu => hheld u (List.mem_cons_of_mem t hu)) he₁ hl₁ hneed₁ hrest
      exact ⟨ks', ls', lefts', e, h', he, hks₁.trans hks', hstack⟩

/-- At the end of a group nothing waits any longer. -/
theorem pending_close {waiting : List Token} {ks ls : List Kind} {lefts outer stack : List Expr}
    {b : Expr} (h : Pending waiting ks lefts) (hb : Derives .primary ls b)
    (hbuilds : Builds limit (waiting.map Token.kind) (b :: (lefts ++ outer)) stack) :
    ∃ e, Derives .disjunction (ks ++ ls) e ∧ stack = e :: outer := by
  have hheld := pending_precedence h
  rw [← List.append_nil waiting] at h
  have hneed : ∀ u ∈ (waiting ++ []).head?, u.kind.need ≤ Level.primary.rank :=
    fun u _ => Nat.le_trans u.kind.need_le_prefixed (by decide)
  obtain ⟨ks', ls', lefts', e, hnil, he, hks, rfl⟩ :=
    pending_flush h hheld hb (by decide) hneed hbuilds
  cases hnil
  rw [hks]
  exact ⟨e, he, rfl⟩

end

/-- What has been read up to the start of the innermost group, or up to the last comma of the call
that this belongs to; the expressions are those complete, the last of which comes first. -/
inductive Open : List Group → List Kind → List Expr → Prop
  | nil : Open [] [] []
  | paren {p waiting groups ks ls outer lefts} (h : Open groups ks outer)
    (hwaiting : Pending waiting ls lefts) :
    Open (⟨.paren p, waiting⟩ :: groups) (ks ++ ls ++ [.openParen]) (lefts ++ outer)
  | call {name p waiting groups ks ls outer lefts} {args : List (List Kind × Expr)}
    (h : Open groups ks outer) (hwaiting : Pending waiting ls lefts)
    (hargs : ∀ arg ∈ args, Derives .disjunction arg.1 arg.2) :
    Open (⟨.call name p args.length, waiting⟩ :: groups)
      (ks ++ ls ++ .callHead name :: args.flatMap fun arg => arg.1 ++ [.comma])
      ((args.map (·.2)).reverse ++ (lefts ++ outer))

/-- The state after lexemes of the kinds `ks`, if the tokens put out so far have left `stack`. An
operand that an operator may follow is a primary expression. -/
inductive Tracks : Postfix → List Kind → List Expr → Prop
  | operand {emitted waiting groups ks ls outer lefts} (h : Open groups ks outer)
    (hwaiting : Pending waiting ls lefts) :
    Tracks ⟨emitted, waiting, groups, .operand⟩ (ks ++ ls) (lefts ++ outer)
  | operandOrClose {emitted groups ks outer} (h : Open groups ks outer)
    (hfirst : ∀ name p commas waiting rest,
      groups = ⟨.call name p commas, waiting⟩ :: rest → commas = 0) :
    Tracks ⟨emitted, [], groups, .operandOrClose⟩ ks outer
  | operator {emitted waiting groups ks ls ms outer lefts e} (h : Open groups ks outer)
    (hwaiting : Pending waiting ls lefts) (he : Derives .primary ms e) :
    Tracks ⟨emitted, waiting, groups, .operator⟩ (ks ++ ls ++ ms) (e :: (lefts ++ outer))

/-- Where an operand may come, the innermost group waits for it. -/
theorem tracks_awaiting {s : Postfix} {ks : List Kind} {stack : List Expr} (h : Tracks s ks stack)
    (hs : s.awaiting ≠ .operator) : ∃ ks₀ ls outer lefts, Open s.groups ks₀ outer ∧
      Pending s.waiting ls lefts ∧ ks = ks₀ ++ ls ∧ stack = lefts ++ outer := by
  cases h with
  | operand hopen hwaiting => exact ⟨_, _, _, _, hopen, hwaiting, rfl, rfl⟩
  | operandOrClose hopen => exact ⟨_, _, _, _, hopen, .nil, by simp, rfl⟩
  | operator => exact absurd rfl hs

theorem tracks_operator {s : Postfix} {ks : List Kind} {stack : List Expr} (h : Tracks s ks stack)
    (hs : s.awaiting = .operator) : ∃ ks₀ ls ms outer lefts e, Open s.groups ks₀ outer ∧
      Pending s.waiting ls lefts ∧ Derives .primary ms e ∧ ks = ks₀ ++ ls ++ ms ∧
      stack = e :: (lefts ++ outer) := by
  cases h with
  | operator hopen hwaiting he => exact ⟨_, _, _, _, _, _, hopen, hwaiting, he, rfl, rfl⟩
  | operand | operandOrClose => cases hs

/-- What a step puts out, and what becomes of the lexemes and of the stack. -/
def StepTracks (limit : Nat) (s : Postfix) (k : Kind) (s' : Postfix) : Prop :=
  ∃ out : List Token, s'.emitted = out.reverse ++ s.emitted ∧ ∀ ks stack stack',
    Tracks s ks stack → Builds limit (out.map Token.kind) stack stack' →
    Tracks s' (ks ++ [k]) stack'

section

variable {limit : Nat} {s s' : Postfix}

theorem operand_tracks {t : Token} {k : Kind} {e : Expr}
    (ht : ∀ stack e' rest, Takes t.kind stack e' rest → e' = e ∧ rest = stack)
    (he : Derives .primary [k] e) (h : s.operand t = .ok s') : StepTracks limit s k s' := by
  unfold Postfix.operand at h
  split at h
  · cases h
  · next hs =>
    cases h
    refine ⟨[t], rfl, fun ks stack stack' htracks hbuilds => ?_⟩
    obtain ⟨ks₀, ls, outer, lefts, hopen, hwaiting, rfl, rfl⟩ := tracks_awaiting htracks hs
    cases hbuilds with
    | cons htakes _ hnil =>
      cases hnil
      obtain ⟨rfl, rfl⟩ := ht _ _ _ htakes
      exact .operator hopen hwaiting he

theorem unary_tracks {t : Token} {op : UnaryOp} (ht : t.kind = .unary op)
    (hs : s.awaiting ≠ .operator) : StepTracks limit s (.sign op) (s.unary t) := by
  refine ⟨[], rfl, fun ks stack stack' htracks hbuilds => ?_⟩
  cases hbuilds
  obtain ⟨ks₀, ls, outer, lefts, hopen, hwaiting, rfl, rfl⟩ := tracks_awaiting htracks hs
  rw [List.append_assoc]
  exact .operand hopen (.unary ht hwaiting)

theorem binary_tracks {l : Level} {t : Token} {k : Kind} (hl : l.rank = t.kind.precedence)
    (hpending : ∀ {waiting ks ls a lefts}, Derives l ls a →
      (∀ u ∈ waiting.head?, u.kind.need ≤ l.rank) → Pending waiting ks lefts →
      Pending (t :: waiting) (ks ++ ls ++ [k]) (a :: lefts))
    (h : s.binary t = .ok s') : StepTracks limit s k s' := by
  unfold Postfix.binary at h
  split at h
  case h_2 => cases h
  case h_1 hs =>
    cases h
    let yields (u : Token) : Bool := decide (t.kind.precedence ≤ u.kind.precedence)
    refine ⟨s.waiting.takeWhile yields, rfl, fun ks stack stack' htracks hbuilds => ?_⟩
    obtain ⟨ks₀, ls, ms, outer, lefts, e, hopen, hwaiting, he, rfl, rfl⟩ :=
      tracks_operator htracks hs
    rw [← List.takeWhile_append_dropWhile (p := yields) (l := s.waiting)] at hwaiting
    have hheld : ∀ u ∈ s.waiting.takeWhile yields, l.rank ≤ u.kind.precedence := by
      intro u hu
      rw [hl]
      have hyields := List.mem_takeWhile_imp (p := yields) hu
      exact of_decide_eq_true hyields
    have hneed : ∀ u ∈ (s.waiting.takeWhile yields ++ s.waiting.dropWhile yields).head?,
        u.kind.need ≤ Level.primary.rank :=
      fun u _ => Nat.le_trans u.kind.need_le_prefixed (by decide)
    have hle : l.rank ≤ Level.primary.rank := by cases l <;> decide
    obtain ⟨ks', ls', lefts', a, hwaiting', ha, hks, rfl⟩ :=
      pending_flush hwaiting hheld he hle hneed hbuilds
    have hneed' : ∀ u ∈ (s.waiting.dropWhile yields).head?, u.kind.need ≤ l.rank := by
      intro u hu
      have hnot := List.head?_dropWhile_not yields s.waiting
      rw [Option.mem_def.mp hu] at hnot
      have hlt : ¬t.kind.precedence ≤ u.kind.precedence := of_decide_eq_false hnot
      have hneed := u.kind.need_le_succ
      omega
    have hks' : ks₀ ++ ls ++ ms ++ [k] = ks₀ ++ (ks' ++ ls' ++ [k]) := by
      rw [← hks]
      simp
    rw [hks']
    exact .operand hopen (hpending ha hneed' hwaiting')

theorem openGroup_tracks {opener : Opener} {text : String} {p : Text.Position} {k : Kind}
    (hopener : (∃ q, opener = .paren q ∧ k = .openParen) ∨
      ∃ name q, opener = .call name q 0 ∧ k = .callHead name)
    (h : s.openGroup opener text p = .ok s') : StepTracks limit s k s' := by
  unfold Postfix.openGroup at h
  split at h
  · cases h
  · next hs =>
    cases h
    refine ⟨[], rfl, fun ks stack stack' htracks hbuilds => ?_⟩
    cases hbuilds
    obtain ⟨ks₀, ls, outer, lefts, hopen, hwaiting, rfl, rfl⟩ := tracks_awaiting htracks hs
    rcases hopener with ⟨q, rfl, rfl⟩ | ⟨name, q, rfl, rfl⟩
    · refine .operandOrClose (.paren hopen hwaiting) fun _ _ _ _ _ heq => ?_
      cases heq
    · have hcall := @Open.call name q _ _ _ _ _ _ [] hopen hwaiting fun _ harg => nomatch harg
      refine .operandOrClose hcall fun _ _ _ _ _ heq => ?_
      cases heq
      rfl

theorem derives_snoc {args : List (List Kind × Expr)} {ks : List Kind} {e : Expr}
    (hargs : ∀ arg ∈ args, Derives .disjunction arg.1 arg.2) (he : Derives .disjunction ks e) :
    ∀ arg ∈ args ++ [(ks, e)], Derives .disjunction arg.1 arg.2 := by
  intro arg harg
  rcases List.mem_append.mp harg with harg | harg
  · exact hargs arg harg
  · rw [List.mem_singleton.mp harg]
    exact he

/-- A call takes all its arguments and becomes an operand of the group outside. -/
theorem tracks_call {name : String} {args : List (List Kind × Expr)} {emitted waiting : List Token}
    {groups : List Group} {ks ls : List Kind} {outer lefts stack : List Expr}
    (hopen : Open groups ks outer) (hwaiting : Pending waiting ls lefts)
    (hargs : ∀ arg ∈ args, Derives .disjunction arg.1 arg.2)
    (hbuilds : Builds limit [.call name args.length]
      ((args.map (·.2)).reverse ++ (lefts ++ outer)) stack) :
    Tracks ⟨emitted, waiting, groups, .operator⟩
      (ks ++ ls ++ .callHead name :: ([.comma].intercalate (args.map (·.1)) ++ [.closeParen]))
      stack := by
  cases hbuilds with
  | cons htakes _ hnil =>
    cases hnil
    cases htakes with
    | call =>
      have hlen : args.length = (args.map (·.2)).reverse.length := by simp
      rw [hlen, List.take_left, List.drop_left, List.reverse_reverse]
      exact .operator hopen hwaiting (.call hargs)

theorem closeGroup_tracks {p : Text.Position} (h : s.closeGroup p = .ok s') :
    StepTracks limit s .closeParen s' := by
  obtain ⟨emitted, waiting, groups, awaiting⟩ := s
  rcases groups with _ | ⟨⟨opener, waiting'⟩, groups⟩
  · cases awaiting <;> cases h
  cases opener with
  | paren q =>
    cases awaiting with
    | operand | operandOrClose => cases h
    | operator =>
      cases h
      refine ⟨waiting, rfl, fun ks stack stack' htracks hb => ?_⟩
      obtain ⟨ks₀, ls, ms, outer, lefts, b, hopen, hwaiting, hb', rfl, rfl⟩ :=
        tracks_operator htracks rfl
      obtain ⟨e, he, rfl⟩ := pending_close hwaiting hb' hb
      cases hopen with
      | @paren _ _ _ ks₁ ls₁ outer lefts hopen hwaiting' =>
        have hks : ks₁ ++ ls₁ ++ [.openParen] ++ ls ++ ms ++ [.closeParen] =
            ks₁ ++ ls₁ ++ .openParen :: (ls ++ ms ++ [.closeParen]) := by simp
        rw [hks]
        exact .operator hopen hwaiting' (.paren he)
  | call name q commas =>
    cases awaiting with
    | operand => cases h
    | operandOrClose =>
      cases h
      refine ⟨waiting ++ [⟨.call name 0, name, q⟩], by simp, fun ks stack stack' htracks hb => ?_⟩
      cases htracks with
      | operandOrClose hopen hfirst =>
        cases hopen with
        | @call _ _ _ _ ks₁ ls₁ outer lefts args hopen hwaiting' hargs =>
          obtain rfl := List.eq_nil_of_length_eq_zero (hfirst _ _ _ _ _ rfl)
          have hks : ks₁ ++ ls₁ ++ .callHead name :: [] ++ [.closeParen] =
              ks₁ ++ ls₁ ++ .callHead name :: ([] ++ [.closeParen]) := by simp
          rw [List.flatMap_nil, hks]
          exact tracks_call hopen hwaiting' hargs hb
    | operator =>
      cases h
      refine ⟨waiting ++ [⟨.call name (commas + 1), name, q⟩], by simp,
        fun ks stack stack' htracks hb => ?_⟩
      obtain ⟨ks₀, ls, ms, outer, lefts, b, hopen, hwaiting, hb', rfl, rfl⟩ :=
        tracks_operator htracks rfl
      rw [List.map_append] at hb
      obtain ⟨mid, hflush, hb⟩ := Expr.builds_append_iff.mp hb
      obtain ⟨e, he, rfl⟩ := pending_close hwaiting hb' hflush
      cases hopen with
      | @call _ _ _ _ ks₁ ls₁ outer lefts args hopen hwaiting' hargs =>
        have hks : ks₁ ++ ls₁ ++ .callHead name :: args.flatMap (fun arg => arg.1 ++ [.comma]) ++
            ls ++ ms ++ [.closeParen] = ks₁ ++ ls₁ ++ .callHead name ::
              ([.comma].intercalate ((args ++ [(ls ++ ms, e)]).map (·.1)) ++ [.closeParen]) := by
          rw [List.map_append, List.map_singleton,
            Sequence.intercalate_append (List.cons_ne_nil _ _), List.intercalate_singleton]
          simp [List.flatMap_map]
        rw [hks]
        exact tracks_call hopen hwaiting' (derives_snoc hargs he) (by simpa using hb)

theorem comma_tracks {p : Text.Position} (h : s.comma p = .ok s') :
    StepTracks limit s .comma s' := by
  obtain ⟨emitted, waiting, groups, awaiting⟩ := s
  cases awaiting with
  | operand | operandOrClose => cases h
  | operator =>
    rcases groups with _ | ⟨⟨_ | ⟨name, q, commas⟩, waiting'⟩, groups⟩
    · cases h
    · cases h
    · cases h
      refine ⟨waiting, rfl, fun ks stack stack' htracks hb => ?_⟩
      obtain ⟨ks₀, ls, ms, outer, lefts, b, hopen, hwaiting, hb', rfl, rfl⟩ :=
        tracks_operator htracks rfl
      obtain ⟨e, he, rfl⟩ := pending_close hwaiting hb' hb
      cases hopen with
      | @call _ _ _ _ ks₁ ls₁ outer lefts args hopen hwaiting' hargs =>
        have hargs' := derives_snoc hargs he
        have hcall := @Open.call name q _ _ _ _ _ _ _ hopen hwaiting' hargs'
        have htracks' := @Tracks.operand (waiting.reverse ++ emitted) _ _ _ _ _ _ hcall .nil
        simpa using htracks'

theorem binaryOp_tracks {t : Token} {k : Kind} {op : BinaryOp} (ht : t.kind = .binary op)
    (hk : k.binary? = some op) (h : s.binary t = .ok s') : StepTracks limit s k s' := by
  obtain ⟨l, hop⟩ := Level.exists_mem_operators op
  have hl := Level.rank_of_mem_operators hop
  refine binary_tracks (by rw [ht]; exact hl) (fun ha hneed hwaiting => ?_) h
  exact .binary ht hk hop ha hneed hwaiting

theorem step_tracks {x : Lexeme} (h : s.step x = .ok s') : StepTracks limit s x.kind s' := by
  obtain ⟨kind, text, position⟩ := x
  cases kind with
  | literal l =>
    refine operand_tracks (fun stack e rest htakes => ?_) .literal h
    cases htakes
    exact ⟨rfl, rfl⟩
  | name name =>
    refine operand_tracks (fun stack e rest htakes => ?_) .name h
    cases htakes
    exact ⟨rfl, rfl⟩
  | callHead name => exact openGroup_tracks (.inr ⟨name, position, rfl, rfl⟩) h
  | openParen => exact openGroup_tracks (.inl ⟨position, rfl, rfl⟩) h
  | closeParen => exact closeGroup_tracks h
  | comma => exact comma_tracks h
  | dot =>
    refine binary_tracks (l := .access) rfl (fun ha hneed hwaiting => ?_) h
    exact .dot rfl ha hneed hwaiting
  | operator op => exact binaryOp_tracks rfl rfl h
  | sign op =>
    simp only [Postfix.step] at h
    by_cases hs : s.awaiting = .operator
    · rw [if_neg (by simp [hs])] at h
      cases hop : op.binary? with
      | none =>
        rw [hop] at h
        cases h
      | some op' =>
        rw [hop] at h
        exact binaryOp_tracks rfl hop h
    · rw [if_pos (by simpa using hs)] at h
      cases h
      exact unary_tracks rfl hs

/-- After any lexemes at all the state is as it should be, so long as the tokens make sense. -/
theorem run_tracks (xs : List Lexeme) : ∀ s : Postfix, xs.foldlM Postfix.step .start = .ok s →
    ∀ stack, Builds limit (s.emitted.reverse.map Token.kind) [] stack →
    Tracks s (xs.map Lexeme.kind) stack := by
  -- From the back: that the tokens of the whole run make sense says it of every earlier state.
  induction xs using List.reverseRecOn with
  | nil =>
    intro s h stack hbuilds
    cases h
    cases hbuilds
    exact .operand .nil .nil
  | append_singleton xs x ih =>
    intro s' h stack' hbuilds
    rw [List.foldlM_append] at h
    obtain ⟨s, hrun, h⟩ := Result.bind_eq_ok_iff.mp h
    obtain ⟨s'', hstep, h⟩ := Result.bind_eq_ok_iff.mp h
    cases h
    obtain ⟨out, hemitted, hout⟩ := @step_tracks limit s s' x hstep
    rw [hemitted, List.reverse_append, List.reverse_reverse, List.map_append] at hbuilds
    obtain ⟨stack, hfront, hback⟩ := Expr.builds_append_iff.mp hbuilds
    rw [List.map_append, List.map_singleton]
    exact hout _ stack stack' (ih s hrun stack hfront) hback

end

/-- Where the tokens make an expression, nothing is left open or missing at the end. -/
theorem derives_of_finish {limit : Nat} {xs : List Lexeme} {s : Postfix} {ts : List Token}
    {e : Expr} (hrun : xs.foldlM Postfix.step .start = .ok s) (hfinish : s.finish = .ok ts)
    (hbuilds : Builds limit (ts.map Token.kind) [] [e]) :
    Derives .disjunction (xs.map Lexeme.kind) e := by
  obtain ⟨emitted, waiting, groups, awaiting⟩ := s
  rcases groups with _ | ⟨⟨_ | _, _⟩, _⟩
  · cases hfinish
    rw [List.reverse_append, List.reverse_reverse, List.map_append] at hbuilds
    obtain ⟨stack, hfront, hback⟩ := Expr.builds_append_iff.mp hbuilds
    have htracks := run_tracks xs _ hrun stack hfront
    cases awaiting with
    | operator =>
      obtain ⟨ks, ls, ms, outer, lefts, b, hopen, hwaiting, hb, hks, rfl⟩ :=
        tracks_operator htracks rfl
      obtain ⟨e', he, hstack⟩ := pending_close hwaiting hb hback
      cases hopen
      cases hstack
      rw [hks]
      exact he
    | operand | operandOrClose =>
      obtain ⟨ks, ls, outer, lefts, hopen, hwaiting, -, rfl⟩ := tracks_awaiting htracks (by simp)
      cases hopen
      -- The operators that wait take one operand more than there are, so that none is left.
      have hmissing := pending_length hwaiting
      have hlen := Expr.builds_length hback
      simp only [List.length_singleton, List.append_nil, List.length_map] at hlen hmissing
      omega
  · cases hfinish
  · cases hfinish

end AccessControl.Matcher
