import AccessControl.Matcher.Postfix
import AccessControl.Proofs.Matcher.Grammar

namespace AccessControl.Matcher

open Lexeme (Kind)

namespace Postfix

section

variable {s : Postfix} {x : Lexeme}

theorem operand_of_awaiting (hs : s.awaiting ≠ .operator) (t : Token) :
    s.operand t = .ok { s with emitted := t :: s.emitted, awaiting := .operator } := by
  rw [operand]
  split
  · next h => exact absurd h hs
  · rfl

theorem openGroup_of_awaiting (hs : s.awaiting ≠ .operator) (opener : Opener) (text : String)
    (p : Text.Position) : s.openGroup opener text p =
      .ok ⟨s.emitted, [], ⟨opener, s.waiting⟩ :: s.groups, .operandOrClose⟩ := by
  rw [openGroup]
  split
  · next h => exact absurd h hs
  · rfl

theorem step_sign (hs : s.awaiting ≠ .operator) {op : UnaryOp} (hx : x.kind = .sign op) :
    s.step x = .ok (s.unary ⟨.unary op, x.text, x.position⟩) := by
  simp [step, hx, hs]

theorem step_binary (hs : s.awaiting = .operator) {op : BinaryOp} (hx : x.kind.binary? = some op) :
    s.step x = s.binary ⟨.binary op, x.text, x.position⟩ := by
  unfold Kind.binary? at hx
  split at hx
  · next hkind =>
    cases hx
    simp [step, hkind]
  · next hkind => simp [step, hkind, hs, hx]
  · cases hx

theorem step_dot (hx : x.kind = .dot) : s.step x = s.binary ⟨.dot, x.text, x.position⟩ := by
  simp [step, hx]

end

/-- An operator lets those go first that bind at least as tight, up to the first that does not. -/
theorem binary_of_operator {emitted held waiting : List Token} {groups : List Group} {t : Token}
    (hheld : ∀ u ∈ held, t.kind.precedence ≤ u.kind.precedence)
    (hwaiting : ∀ u ∈ waiting.head?, u.kind.precedence < t.kind.precedence) :
    binary ⟨emitted, held ++ waiting, groups, .operator⟩ t =
      .ok ⟨held.reverse ++ emitted, t :: waiting, groups, .operand⟩ := by
  have hyields : ∀ u ∈ held, decide (t.kind.precedence ≤ u.kind.precedence) = true :=
    fun u hu => decide_eq_true (hheld u hu)
  have hstay : waiting.takeWhile (fun u => decide (t.kind.precedence ≤ u.kind.precedence)) = [] ∧
      waiting.dropWhile (fun u => decide (t.kind.precedence ≤ u.kind.precedence)) = waiting := by
    cases waiting with
    | nil => exact ⟨rfl, rfl⟩
    | cons u waiting =>
      have hu := hwaiting u rfl
      have hnot : ¬t.kind.precedence ≤ u.kind.precedence := Nat.not_le_of_lt hu
      simp [hnot]
  simp only [binary, List.takeWhile_append_of_pos hyields, List.dropWhile_append_of_pos hyields,
    hstay.1, hstay.2, List.append_nil]

end Postfix

/-- An operator that waits outside an expression of the level must not bind as tight as this. -/
def Level.bound : Level → Nat
  | prefixed => dotPrecedence
  | l => l.rank

theorem Level.rank_le_bound (l : Level) : l.rank ≤ l.bound := by
  cases l <;> decide

theorem Level.bound_le_bound {l l' : Level} (h : l.rank ≤ l'.rank) : l.bound ≤ l'.bound := by
  cases l <;> cases l' <;> revert h <;> decide

theorem Level.bound_of_mem_operators {l : Level} {op : BinaryOp} (h : op ∈ l.operators) :
    l.bound = l.rank := by
  cases l with
  | prefixed => cases h
  | _ => rfl

/-- Lexemes of the kinds `ks`, read where an operand may come, put the tokens of `e` out, those held
back at the end being operators of the level. -/
def Reads (l : Level) (ks : List Kind) (e : Expr) : Prop :=
  ∀ (xs : List Lexeme) (s : Postfix), xs.map Lexeme.kind = ks → s.awaiting ≠ .operator →
    (∀ u ∈ s.waiting.head?, u.kind.precedence < l.bound) → ∃ out held : List Token,
      xs.foldlM Postfix.step s =
        .ok ⟨out.reverse ++ s.emitted, held ++ s.waiting, s.groups, .operator⟩ ∧
      (out ++ held).map Token.kind = e.postorder ∧ ∀ u ∈ held, l.rank ≤ u.kind.precedence

theorem reads_loosen {l l' : Level} {ks : List Kind} {e : Expr} (hl : l.rank ≤ l'.rank)
    (h : Reads l' ks e) : Reads l ks e := by
  intro xs s hxs hs hwaiting
  obtain ⟨out, held, hrun, hkinds, hheld⟩ := h xs s hxs hs fun u hu =>
    Nat.lt_of_lt_of_le (hwaiting u hu) (Level.bound_le_bound hl)
  exact ⟨out, held, hrun, hkinds, fun u hu => Nat.le_trans hl (hheld u hu)⟩

/-- Behind an expression that binds at least as tight, an operator lets all of its tokens go, and
waits with what waits outside. -/
theorem reads_operator {l : Level} {ks : List Kind} {e : Expr} (h : Reads l ks e)
    {xs : List Lexeme} {x : Lexeme} {tk : Token.Kind} {s : Postfix}
    (hstep : ∀ s : Postfix, s.awaiting = .operator →
      s.step x = s.binary ⟨tk, x.text, x.position⟩)
    (hprec : tk.precedence ≤ l.rank) (hxs : xs.map Lexeme.kind = ks) (hs : s.awaiting ≠ .operator)
    (hwaiting : ∀ u ∈ s.waiting.head?, u.kind.precedence < tk.precedence) : ∃ out : List Token,
      (xs ++ [x]).foldlM Postfix.step s = .ok ⟨out.reverse ++ s.emitted,
        ⟨tk, x.text, x.position⟩ :: s.waiting, s.groups, .operand⟩ ∧
      out.map Token.kind = e.postorder := by
  obtain ⟨out, held, hrun, hkinds, hheld⟩ := h xs s hxs hs fun u hu =>
    Nat.lt_of_lt_of_le (hwaiting u hu) (Nat.le_trans hprec l.rank_le_bound)
  refine ⟨out ++ held, ?_, hkinds⟩
  have hflush := @Postfix.binary_of_operator (out.reverse ++ s.emitted) held s.waiting s.groups
    ⟨tk, x.text, x.position⟩ (fun u hu => Nat.le_trans hprec (hheld u hu)) hwaiting
  rw [List.foldlM_append, hrun, Result.ok_bind, List.foldlM_cons, hstep _ rfl, hflush]
  simp

/-- Two expressions with a lexeme of kind `k` between them, which becomes the operator `tk`. -/
theorem reads_join {l l' : Level} {k : Kind} {tk : Token.Kind} {ks ls : List Kind} {a b e : Expr}
    (hstep : ∀ (x : Lexeme) (s : Postfix), x.kind = k → s.awaiting = .operator →
      s.step x = s.binary ⟨tk, x.text, x.position⟩)
    (hprec : tk.precedence = l.rank) (hbound : l.bound = l.rank) (hl : l.rank < l'.rank)
    (ha : Reads l ks a) (hb : Reads l' ls b)
    (he : e.postorder = a.postorder ++ b.postorder ++ [tk]) : Reads l (ks ++ k :: ls) e := by
  intro _ s hall hs hwaiting
  obtain ⟨xs, zs, rfl, hxs, hzs⟩ := List.map_eq_append_iff.mp hall
  obtain ⟨x, ys, rfl, hx, hys⟩ := List.map_eq_cons_iff.mp hzs
  rw [hbound, ← hprec] at hwaiting
  obtain ⟨outA, hrunA, hkindsA⟩ :=
    reads_operator ha (fun s hs => hstep x s hx hs) (Nat.le_of_eq hprec) hxs hs hwaiting
  let t : Token := ⟨tk, x.text, x.position⟩
  let s' : Postfix := ⟨outA.reverse ++ s.emitted, t :: s.waiting, s.groups, .operand⟩
  have hwaiting' : ∀ u ∈ s'.waiting.head?, u.kind.precedence < l'.bound := by
    intro u hu
    cases hu
    rw [hprec]
    exact Nat.lt_of_lt_of_le hl (Level.rank_le_bound l')
  obtain ⟨outB, heldB, hrunB, hkindsB, hheldB⟩ := hb ys s' hys (by simp [s']) hwaiting'
  refine ⟨outA ++ outB, heldB ++ [t], ?_, ?_, ?_⟩
  · have hsplit : xs ++ x :: ys = (xs ++ [x]) ++ ys := by simp
    rw [hsplit, List.foldlM_append, hrunA, Result.ok_bind, hrunB]
    simp [s']
  · rw [he, ← hkindsA, ← hkindsB]
    simp [t]
  · intro u hu
    rcases List.mem_append.mp hu with hu | hu
    · exact Nat.le_trans (Nat.le_of_lt hl) (hheldB u hu)
    · rw [List.mem_singleton.mp hu]
      exact Nat.le_of_eq hprec.symm

/-- The two sides of a dot. -/
theorem reads_dot {ks ls : List Kind} {owner attr e : Expr} (howner : Reads .access ks owner)
    (hattr : Reads .primary ls attr) (h : Expr.access owner attr = .ok e) :
    Reads .access (ks ++ .dot :: ls) e :=
  reads_join (fun _ _ hx _ => Postfix.step_dot hx) rfl rfl (by decide) howner hattr
    (Expr.postorder_access h)

theorem reads_unary {op : UnaryOp} {ks : List Kind} {e : Expr} (h : Reads .prefixed ks e) :
    Reads .prefixed (.sign op :: ks) (.unary op e) := by
  intro xs s hxs hs _
  obtain ⟨x, ys, rfl, hx, hys⟩ := List.map_eq_cons_iff.mp hxs
  let t : Token := ⟨.unary op, x.text, x.position⟩
  have hwaiting : ∀ u ∈ (s.unary t).waiting.head?, u.kind.precedence < Level.prefixed.bound := by
    intro u hu
    cases hu
    exact (by decide : unaryPrecedence < Level.prefixed.bound)
  obtain ⟨out, held, hrun, hkinds, hheld⟩ := h ys (s.unary t) hys (by simp [Postfix.unary]) hwaiting
  refine ⟨out, held ++ [t], ?_, ?_, ?_⟩
  · rw [List.foldlM_cons, Postfix.step_sign hs hx, Result.ok_bind, hrun]
    simp [Postfix.unary]
  · rw [Expr.postorder, ← hkinds]
    simp [t]
  · intro u hu
    rcases List.mem_append.mp hu with hu | hu
    · exact hheld u hu
    · rw [List.mem_singleton.mp hu]
      exact Nat.le_refl unaryPrecedence

/-- A lexeme that is an operand by itself. -/
theorem reads_operand {k : Kind} {tk : Token.Kind} {e : Expr}
    (hstep : ∀ (x : Lexeme) (s : Postfix), x.kind = k →
      s.step x = s.operand ⟨tk, x.text, x.position⟩)
    (he : e.postorder = [tk]) : Reads .primary [k] e := by
  intro xs s hxs hs _
  obtain ⟨x, ys, rfl, hx, hys⟩ := List.map_eq_cons_iff.mp hxs
  obtain rfl := List.map_eq_nil_iff.mp hys
  refine ⟨[⟨tk, x.text, x.position⟩], [], ?_, he.symm, fun u hu => nomatch hu⟩
  rw [List.foldlM_cons, hstep x s hx, Postfix.operand_of_awaiting hs]
  rfl

theorem reads_paren {ks : List Kind} {e : Expr} (h : Reads .disjunction ks e) :
    Reads .primary (.openParen :: (ks ++ [.closeParen])) e := by
  intro xs s hxs hs _
  obtain ⟨x, zs, rfl, hx, hzs⟩ := List.map_eq_cons_iff.mp hxs
  obtain ⟨ys, ws, rfl, hys, hws⟩ := List.map_eq_append_iff.mp hzs
  obtain ⟨y, _, rfl, hy, hnil⟩ := List.map_eq_cons_iff.mp hws
  obtain rfl := List.map_eq_nil_iff.mp hnil
  let s' : Postfix := ⟨s.emitted, [], ⟨.paren x.position, s.waiting⟩ :: s.groups, .operandOrClose⟩
  have hopen : s.step x = .ok s' := by
    simp [Postfix.step, hx, Postfix.openGroup_of_awaiting hs, s']
  obtain ⟨out, held, hrun, hkinds, -⟩ := h ys s' hys (by simp [s']) fun u hu => nomatch hu
  refine ⟨out ++ held, [], ?_, ?_, fun u hu => nomatch hu⟩
  · rw [List.foldlM_cons, hopen, Result.ok_bind, List.foldlM_append, hrun, Result.ok_bind,
      List.foldlM_cons]
    simp [Postfix.step, hy, Postfix.closeGroup, s']
  · rw [List.append_nil]
    exact hkinds

/-- Arguments with commas between them, read inside a call that has had some commas before. -/
theorem reads_args (args : List (List Kind × Expr)) (arg : List Kind × Expr)
    (hargs : ∀ arg' ∈ arg :: args, Reads .disjunction arg'.1 arg'.2) (name : String)
    (p : Text.Position) (waiting : List Token) (groups : List Group) (xs : List Lexeme)
    (hxs : xs.map Lexeme.kind = [.comma].intercalate ((arg :: args).map (·.1))) (commas : Nat)
    (emitted : List Token) (awaiting : Awaiting) (hawaiting : awaiting ≠ .operator) :
    ∃ out held : List Token,
      xs.foldlM Postfix.step
          ⟨emitted, [], ⟨.call name p commas, waiting⟩ :: groups, awaiting⟩ =
        .ok ⟨out.reverse ++ emitted, held,
          ⟨.call name p (commas + args.length), waiting⟩ :: groups, .operator⟩ ∧
      (out ++ held).map Token.kind = Expr.postorderAll ((arg :: args).map (·.2)) := by
  induction args generalizing arg xs commas emitted awaiting with
  | nil =>
    rw [List.map_singleton, List.intercalate_singleton] at hxs
    obtain ⟨out, held, hrun, hkinds, -⟩ := hargs arg List.mem_cons_self xs
      ⟨emitted, [], ⟨.call name p commas, waiting⟩ :: groups, awaiting⟩ hxs hawaiting
      fun u hu => nomatch hu
    refine ⟨out, held, ?_, ?_⟩
    · rw [hrun]
      simp
    · rw [hkinds]
      simp [Expr.postorderAll]
  | cons next args ih =>
    rw [List.map_cons, List.map_cons, List.intercalate_cons_cons, List.append_assoc] at hxs
    obtain ⟨xs, zs, rfl, hhead, hzs⟩ := List.map_eq_append_iff.mp hxs
    obtain ⟨x, ys, rfl, hx, hys⟩ := List.map_eq_cons_iff.mp hzs
    obtain ⟨out, held, hrun, hkinds, -⟩ := hargs arg List.mem_cons_self xs
      ⟨emitted, [], ⟨.call name p commas, waiting⟩ :: groups, awaiting⟩ hhead hawaiting
      fun u hu => nomatch hu
    have hcomma : Postfix.step ⟨out.reverse ++ emitted, held ++ [],
        ⟨.call name p commas, waiting⟩ :: groups, .operator⟩ x =
          .ok ⟨held.reverse ++ (out.reverse ++ emitted), [],
            ⟨.call name p (commas + 1), waiting⟩ :: groups, .operand⟩ := by
      simp [Postfix.step, hx, Postfix.comma]
    obtain ⟨out', held', hrun', hkinds'⟩ := ih next
      (fun arg' harg' => hargs arg' (List.mem_cons_of_mem arg harg')) ys hys (commas + 1)
      (held.reverse ++ (out.reverse ++ emitted)) .operand (by simp)
    refine ⟨out ++ held ++ out', held', ?_, ?_⟩
    · rw [List.foldlM_append, hrun, Result.ok_bind, List.foldlM_cons, hcomma, Result.ok_bind, hrun']
      simp [Nat.add_comm, Nat.add_left_comm]
    · rw [List.map_cons, Expr.postorderAll, ← hkinds, ← hkinds']
      simp

theorem reads_call {name : String} {args : List (List Kind × Expr)}
    (h : ∀ arg ∈ args, Reads .disjunction arg.1 arg.2) :
    Reads .primary (.callHead name :: ([.comma].intercalate (args.map (·.1)) ++ [.closeParen]))
      (.call name (args.map (·.2))) := by
  intro xs s hxs hs _
  obtain ⟨x, zs, rfl, hx, hzs⟩ := List.map_eq_cons_iff.mp hxs
  obtain ⟨ys, ws, rfl, hys, hws⟩ := List.map_eq_append_iff.mp hzs
  obtain ⟨y, _, rfl, hy, hnil⟩ := List.map_eq_cons_iff.mp hws
  obtain rfl := List.map_eq_nil_iff.mp hnil
  let group : Group := ⟨.call name x.position 0, s.waiting⟩
  have hopen : s.step x = .ok ⟨s.emitted, [], group :: s.groups, .operandOrClose⟩ := by
    simp [Postfix.step, hx, Postfix.openGroup_of_awaiting hs, group]
  let t : Token := ⟨.call name args.length, name, x.position⟩
  cases args with
  | nil =>
    obtain rfl := List.map_eq_nil_iff.mp hys
    refine ⟨[t], [], ?_, rfl, fun u hu => nomatch hu⟩
    rw [List.foldlM_cons, hopen]
    simp [Postfix.step, hy, Postfix.closeGroup, group, t]
  | cons arg args =>
    obtain ⟨out, held, hrun, hkinds⟩ := reads_args args arg h name x.position s.waiting s.groups ys
      hys 0 s.emitted .operandOrClose (by simp)
    refine ⟨out ++ held ++ [t], [], ?_, ?_, fun u hu => nomatch hu⟩
    · rw [List.foldlM_cons, hopen, Result.ok_bind, List.foldlM_append, hrun, Result.ok_bind,
        List.foldlM_cons]
      simp [Postfix.step, hy, Postfix.closeGroup, t]
    · rw [Expr.postorder, ← hkinds]
      simp [t]

theorem derives_reads {l : Level} {ks : List Kind} {e : Expr} (h : Derives l ks e) :
    Reads l ks e := by
  induction h with
  | loosen hl _ ih => exact reads_loosen hl ih
  | @binary l l' k op ks ls a b hop hk hl _ _ iha ihb =>
    have hstep (x : Lexeme) (s : Postfix) (hx : x.kind = k) (hs : s.awaiting = .operator) :=
      @Postfix.step_binary s x hs op (hx ▸ hk)
    exact reads_join hstep (Level.rank_of_mem_operators hop).symm
      (Level.bound_of_mem_operators hop) hl iha ihb rfl
  | unary _ ih => exact reads_unary ih
  | attr _ _ ihowner ihattr => exact reads_dot ihowner ihattr rfl
  | attrOf _ _ ihowner ihattr => exact reads_dot ihowner ihattr rfl
  | literal => exact reads_operand (fun x s hx => by simp [Postfix.step, hx]) rfl
  | name => exact reads_operand (fun x s hx => by simp [Postfix.step, hx]) rfl
  | paren _ ih => exact reads_paren ih
  | call _ ih => exact reads_call ih

/-- The lexemes of an expression become its tokens. -/
theorem derives_finish {xs : List Lexeme} {e : Expr}
    (h : Derives .disjunction (xs.map Lexeme.kind) e) : ∃ s ts,
      xs.foldlM Postfix.step .start = .ok s ∧ s.finish = .ok ts ∧
      ts.map Token.kind = e.postorder := by
  obtain ⟨out, held, hrun, hkinds, -⟩ := derives_reads h xs .start rfl (by decide)
    fun u hu => nomatch hu
  refine ⟨_, out ++ held, hrun, ?_, hkinds⟩
  simp [Postfix.finish, Postfix.start]

end AccessControl.Matcher
