import AccessControl.Matcher.Program
import AccessControl.Proofs.Matcher.Location
import Mathlib.Algebra.Order.BigOperators.Group.List
import Mathlib.Algebra.Ring.Int.Defs

namespace AccessControl.Matcher

open Text
open Lexeme (Kind munch scan)
open AccessControl.Matcher.Expr (operands operandsAll Builds)

/-- How much a token adds to the height of the stack. -/
def Token.Kind.rise : Token.Kind → Int
  | literal _ => 1
  | name _ => 1
  | unary _ => 0
  | binary _ => -1
  | dot => -1
  | call _ arity => 1 - arity

/-- The height of the stack behind tokens that start without one. -/
def stackHeight (ks : List Token.Kind) : Int :=
  (ks.map Token.Kind.rise).sum

@[simp] theorem stackHeight_nil : stackHeight [] = 0 := rfl

@[simp] theorem stackHeight_cons (k : Token.Kind) (ks : List Token.Kind) :
    stackHeight (k :: ks) = k.rise + stackHeight ks :=
  List.sum_cons

@[simp] theorem stackHeight_append (ks ls : List Token.Kind) :
    stackHeight (ks ++ ls) = stackHeight ks + stackHeight ls := by
  rw [stackHeight, List.map_append, List.sum_append]
  rfl

@[simp] theorem stackHeight_reverse (ks : List Token.Kind) :
    stackHeight ks.reverse = stackHeight ks := by
  induction ks with
  | nil => rfl
  | cons k ks ih =>
    rw [List.reverse_cons, stackHeight_append, ih, stackHeight_cons, stackHeight_cons]
    simp only [stackHeight_nil]
    omega

/-- A token takes its operands and leaves one expression. -/
theorem rise_eq (k : Token.Kind) : k.rise = 1 - operands k := by
  cases k <;> rfl

theorem stackHeight_eq (ks : List Token.Kind) :
    stackHeight ks = ks.length - operandsAll ks := by
  induction ks with
  | nil => rfl
  | cons k ks ih =>
    rw [stackHeight_cons, ih, rise_eq, operandsAll, List.length_cons]
    omega

/-- Every token finds as many operands on the stack as it takes. -/
def Supplied (ks : List Token.Kind) : Prop :=
  ∀ front k back, ks = front ++ k :: back → (operands k : Int) ≤ stackHeight front

theorem supplied_nil : Supplied [] := by
  intro front k back h
  simp at h

theorem supplied_concat {ks : List Token.Kind} {k : Token.Kind} (h : Supplied ks)
    (hk : (operands k : Int) ≤ stackHeight ks) : Supplied (ks ++ [k]) := by
  intro front k' back hsplit
  rcases List.eq_nil_or_concat back with rfl | ⟨back', k'', rfl⟩
  · obtain ⟨rfl, hlast⟩ := List.append_inj' hsplit rfl
    cases hlast
    exact hk
  · rw [List.concat_eq_append, ← List.cons_append, ← List.append_assoc] at hsplit
    exact h front k' back' (List.append_inj_left' hsplit rfl)

theorem sum_nonpos {ns : List Int} (h : ∀ n ∈ ns, n ≤ 0) : ns.sum ≤ 0 := by
  simpa using List.sum_le_card_nsmul ns 0 h

theorem stackHeight_nonpos {ks : List Token.Kind} (h : ∀ k ∈ ks, k.rise ≤ 0) :
    stackHeight ks ≤ 0 :=
  sum_nonpos (List.forall_mem_map.mpr h)

/-- Operators find their operands where one expression is left in the end. -/
theorem supplied_append {ks held : List Token.Kind} (h : Supplied ks)
    (hheld : ∀ k ∈ held, k.rise ≤ 0) (hheight : 1 ≤ stackHeight ks + stackHeight held) :
    Supplied (ks ++ held) := by
  induction held generalizing ks with
  | nil => rwa [List.append_nil]
  | cons k held ih =>
    obtain ⟨-, hrest⟩ := List.forall_mem_cons.mp hheld
    have hfalls := stackHeight_nonpos hrest
    rw [stackHeight_cons] at hheight
    have hrise := rise_eq k
    have hk : (operands k : Int) ≤ stackHeight ks := by omega
    rw [List.append_cons]
    apply ih (supplied_concat h hk) hrest
    rw [stackHeight_append, stackHeight_cons, stackHeight_nil]
    omega

/-- The arguments before the last comma. -/
def Opener.arguments : Opener → Nat
  | paren _ => 0
  | call _ _ commas => commas

/-- What the operators that wait outside a group add to the height, less the arguments that its
call has so far. -/
def Group.rise (g : Group) : Int :=
  stackHeight (g.waiting.map Token.kind) - g.opener.arguments

theorem group_rise_mk (opener : Opener) (waiting : List Token) :
    Group.rise ⟨opener, waiting⟩ = stackHeight (waiting.map Token.kind) - opener.arguments := rfl

/-- The height of the stack once all that waits is put out. -/
def Postfix.height (s : Postfix) : Int :=
  stackHeight (s.emitted.map Token.kind) + stackHeight (s.waiting.map Token.kind) +
    (s.groups.map Group.rise).sum

theorem height_mk (emitted waiting : List Token) (groups : List Group) (awaiting : Awaiting) :
    Postfix.height ⟨emitted, waiting, groups, awaiting⟩ =
      stackHeight (emitted.map Token.kind) + stackHeight (waiting.map Token.kind) +
        (groups.map Group.rise).sum := rfl

/-- It makes no difference to the height when what waits is put out. -/
theorem stackHeight_flush (held emitted : List Token) :
    stackHeight ((held.reverse ++ emitted).map Token.kind) =
      stackHeight (emitted.map Token.kind) + stackHeight (held.map Token.kind) := by
  rw [List.map_append, List.map_reverse, stackHeight_append, stackHeight_reverse, Int.add_comm]

/-- What waits takes at least one operand. -/
def Waits (ts : List Token) : Prop :=
  ∀ t ∈ ts, t.kind.rise ≤ 0

theorem stackHeight_of_waits {ts : List Token} (h : Waits ts) :
    stackHeight (ts.map Token.kind) ≤ 0 :=
  stackHeight_nonpos (List.forall_mem_map.mpr h)

theorem rise_of_waits {groups : List Group} (h : ∀ g ∈ groups, Waits g.waiting) :
    (groups.map Group.rise).sum ≤ 0 := by
  refine sum_nonpos (List.forall_mem_map.mpr fun g hg => ?_)
  have hwaits := stackHeight_of_waits (h g hg)
  rw [Group.rise]
  omega

/-- Whether an operand must come behind the lexeme: behind a dot, a sign and what joins operands. -/
def Lexeme.Kind.isOperator : Kind → Bool
  | dot => true
  | sign _ => true
  | operator _ => true
  | _ => false

/-- What a lexeme makes of a state that does not refuse it. A call whose group has just been opened
has no arguments, and any other has one more than commas. -/
inductive Advances (s : Postfix) (k : Kind) : Postfix → Prop
  | operand {t} (hk : k.isOperator = false) (ht : t.kind.rise = 1)
    (hawaiting : s.awaiting ≠ .operator) :
    Advances s k ⟨t :: s.emitted, s.waiting, s.groups, .operator⟩
  | unary {t} (hk : k.isOperator = true) (ht : t.kind.rise = 0)
    (hawaiting : s.awaiting ≠ .operator) :
    Advances s k ⟨s.emitted, t :: s.waiting, s.groups, .operand⟩
  | binary {t held waiting} (hk : k.isOperator = true) (ht : t.kind.rise = -1)
    (hawaiting : s.awaiting = .operator) (hsplit : s.waiting = held ++ waiting) :
    Advances s k ⟨held.reverse ++ s.emitted, t :: waiting, s.groups, .operand⟩
  | openGroup {opener} (hopener : opener.arguments = 0) (hawaiting : s.awaiting ≠ .operator) :
    Advances s k ⟨s.emitted, [], ⟨opener, s.waiting⟩ :: s.groups, .operandOrClose⟩
  | comma {name q commas waiting groups}
    (hgroups : s.groups = ⟨.call name q commas, waiting⟩ :: groups)
    (hawaiting : s.awaiting = .operator) :
    Advances s k ⟨s.waiting.reverse ++ s.emitted, [],
      ⟨.call name q (commas + 1), waiting⟩ :: groups, .operand⟩
  | paren {q waiting groups} (hk : k.isOperator = false)
    (hgroups : s.groups = ⟨.paren q, waiting⟩ :: groups) (hawaiting : s.awaiting = .operator) :
    Advances s k ⟨s.waiting.reverse ++ s.emitted, waiting, groups, .operator⟩
  | empty {name q commas waiting groups} (hk : k.isOperator = false)
    (hgroups : s.groups = ⟨.call name q commas, waiting⟩ :: groups)
    (hawaiting : s.awaiting = .operandOrClose) :
    Advances s k ⟨⟨.call name 0, name, q⟩ :: (s.waiting.reverse ++ s.emitted), waiting, groups,
      .operator⟩
  | call {name q commas waiting groups} (hk : k.isOperator = false)
    (hgroups : s.groups = ⟨.call name q commas, waiting⟩ :: groups)
    (hawaiting : s.awaiting = .operator) :
    Advances s k ⟨⟨.call name (commas + 1), name, q⟩ :: (s.waiting.reverse ++ s.emitted), waiting,
      groups, .operator⟩

section

variable {s s' : Postfix} {k : Kind} {t : Token} {p : Position}

theorem operand_advances (hk : k.isOperator = false) (ht : t.kind.rise = 1)
    (h : s.operand t = .ok s') : Advances s k s' := by
  unfold Postfix.operand at h
  split at h
  · cases h
  · next hawaiting =>
    cases h
    exact .operand hk ht hawaiting

theorem binary_advances (hk : k.isOperator = true) (ht : t.kind.rise = -1)
    (h : s.binary t = .ok s') : Advances s k s' := by
  unfold Postfix.binary at h
  split at h
  · next hawaiting =>
    cases h
    exact .binary hk ht hawaiting List.takeWhile_append_dropWhile.symm
  · cases h

theorem openGroup_advances {opener : Opener} {text : String} (hopener : opener.arguments = 0)
    (h : s.openGroup opener text p = .ok s') : Advances s k s' := by
  unfold Postfix.openGroup at h
  split at h
  · cases h
  · next hawaiting =>
    cases h
    exact .openGroup hopener hawaiting

theorem comma_advances (h : s.comma p = .ok s') : Advances s k s' := by
  obtain ⟨emitted, waiting, groups, awaiting⟩ := s
  cases awaiting with
  | operand | operandOrClose => cases h
  | operator =>
    rcases groups with _ | ⟨⟨_ | ⟨name, q, commas⟩, waiting'⟩, groups⟩
    · cases h
    · cases h
    · cases h
      exact .comma rfl rfl

theorem closeGroup_advances (hk : k.isOperator = false) (h : s.closeGroup p = .ok s') :
    Advances s k s' := by
  obtain ⟨emitted, waiting, groups, awaiting⟩ := s
  rcases groups with _ | ⟨⟨_ | ⟨name, q, commas⟩, waiting'⟩, groups⟩
  · cases awaiting <;> cases h
  · cases awaiting with
    | operand | operandOrClose => cases h
    | operator =>
      cases h
      exact .paren hk rfl rfl
  · cases awaiting with
    | operand => cases h
    | operandOrClose =>
      cases h
      exact .empty hk rfl rfl
    | operator =>
      cases h
      exact .call hk rfl rfl

theorem step_advances {x : Lexeme} (h : s.step x = .ok s') : Advances s x.kind s' := by
  obtain ⟨kind, text, position⟩ := x
  cases kind with
  | literal | name => exact operand_advances rfl rfl h
  | callHead | openParen => exact openGroup_advances rfl h
  | closeParen => exact closeGroup_advances rfl h
  | comma => exact comma_advances h
  | dot | operator => exact binary_advances rfl rfl h
  | sign op =>
    simp only [Postfix.step] at h
    by_cases hawaiting : s.awaiting = .operator
    · rw [if_neg (by simp [hawaiting])] at h
      cases hop : op.binary? with
      | none =>
        rw [hop] at h
        cases h
      | some op' =>
        rw [hop] at h
        exact binary_advances rfl rfl h
    · rw [if_pos (by simpa using hawaiting)] at h
      cases h
      exact .unary rfl rfl hawaiting

end

/-- The tokens put out find their operands. With all that waits they make one expression where an
operator may follow, and lack an operand where one has to. -/
structure Balanced (s : Postfix) : Prop where
  supplied : Supplied (s.emitted.reverse.map Token.kind)
  height : s.height = if s.awaiting = .operator then 1 else 0
  waiting : Waits s.waiting
  groups : ∀ g ∈ s.groups, Waits g.waiting
  opened : s.awaiting = .operandOrClose →
    s.waiting = [] ∧ ∃ g groups, s.groups = g :: groups ∧ g.opener.arguments = 0

theorem balanced_start : Balanced .start where
  supplied := supplied_nil
  height := rfl
  waiting _ h := nomatch h
  groups _ h := nomatch h
  opened h := nomatch h

section

variable {s s' : Postfix} {k : Kind} {t : Token} {held waiting : List Token} {groups : List Group}

/-- Where an operator may follow, those that wait can be put out. -/
theorem supplied_flush (hs : Balanced s) (hawaiting : s.awaiting = .operator)
    (hsplit : s.waiting = held ++ waiting) :
    Supplied ((held.reverse ++ s.emitted).reverse.map Token.kind) := by
  have hwaits : Waits (held ++ waiting) := hsplit ▸ hs.waiting
  have hheld : ∀ k ∈ held.map Token.kind, k.rise ≤ 0 :=
    List.forall_mem_map.mpr fun t ht => hwaits t (List.mem_append_left waiting ht)
  have hrest := stackHeight_of_waits fun t ht => hwaits t (List.mem_append_right held ht)
  have hgroups := rise_of_waits hs.groups
  have hheight := hs.height
  rw [if_pos hawaiting, Postfix.height, hsplit, List.map_append, stackHeight_append] at hheight
  rw [List.reverse_append, List.reverse_reverse, List.map_append]
  apply supplied_append hs.supplied hheld
  rw [List.map_reverse, stackHeight_reverse]
  omega

/-- One more token is supplied if what is put out is high enough for it. -/
theorem supplied_emit {emitted : List Token} (h : Supplied (emitted.reverse.map Token.kind))
    (hheight : (operands t.kind : Int) ≤ stackHeight (emitted.map Token.kind)) :
    Supplied ((t :: emitted).reverse.map Token.kind) := by
  rw [List.reverse_cons, List.map_append]
  apply supplied_concat h
  rw [List.map_reverse, stackHeight_reverse]
  exact hheight

theorem operand_balanced (hs : Balanced s) (ht : t.kind.rise = 1)
    (hawaiting : s.awaiting ≠ .operator) :
    Balanced ⟨t :: s.emitted, s.waiting, s.groups, .operator⟩ := by
  have hnone := rise_eq t.kind
  have hwaiting := stackHeight_of_waits hs.waiting
  have hgroups := rise_of_waits hs.groups
  have hheight := hs.height
  rw [if_neg hawaiting, Postfix.height] at hheight
  refine ⟨supplied_emit hs.supplied (by omega), ?_, hs.waiting, hs.groups, nofun⟩
  rw [if_pos rfl, height_mk, List.map_cons, stackHeight_cons, ht]
  omega

theorem unary_balanced (hs : Balanced s) (ht : t.kind.rise = 0)
    (hawaiting : s.awaiting ≠ .operator) :
    Balanced ⟨s.emitted, t :: s.waiting, s.groups, .operand⟩ := by
  have hheight := hs.height
  rw [if_neg hawaiting, Postfix.height] at hheight
  have hwaits : Waits (t :: s.waiting) := List.forall_mem_cons.mpr ⟨ht.le, hs.waiting⟩
  refine ⟨hs.supplied, ?_, hwaits, hs.groups, nofun⟩
  rw [if_neg (by simp), height_mk, List.map_cons, stackHeight_cons, ht]
  omega

theorem binary_balanced (hs : Balanced s) (ht : t.kind.rise = -1)
    (hawaiting : s.awaiting = .operator) (hsplit : s.waiting = held ++ waiting) :
    Balanced ⟨held.reverse ++ s.emitted, t :: waiting, s.groups, .operand⟩ := by
  have hheight := hs.height
  rw [if_pos hawaiting, Postfix.height, hsplit, List.map_append, stackHeight_append] at hheight
  have hwaits : Waits (t :: waiting) := by
    refine List.forall_mem_cons.mpr ⟨by omega, fun u hu => hs.waiting u ?_⟩
    rw [hsplit]
    exact List.mem_append_right held hu
  refine ⟨supplied_flush hs hawaiting hsplit, ?_, hwaits, hs.groups, nofun⟩
  rw [if_neg (by simp), height_mk, stackHeight_flush, List.map_cons, stackHeight_cons, ht]
  omega

theorem openGroup_balanced {opener : Opener} (hs : Balanced s) (hopener : opener.arguments = 0)
    (hawaiting : s.awaiting ≠ .operator) :
    Balanced ⟨s.emitted, [], ⟨opener, s.waiting⟩ :: s.groups, .operandOrClose⟩ := by
  have hheight := hs.height
  rw [if_neg hawaiting, Postfix.height] at hheight
  refine ⟨hs.supplied, ?_, nofun, ?_, fun _ => ⟨rfl, _, _, rfl, hopener⟩⟩
  · rw [if_neg (by simp), height_mk, List.map_nil, stackHeight_nil, List.map_cons, List.sum_cons,
      group_rise_mk, hopener]
    omega
  · exact List.forall_mem_cons.mpr ⟨hs.waiting, hs.groups⟩

/-- A group that ends where an operator may follow is one expression, which comes on top of the
arguments before it. -/
theorem height_group {opener : Opener} (hs : Balanced s)
    (hgroups : s.groups = ⟨opener, waiting⟩ :: groups) (hawaiting : s.awaiting = .operator) :
    stackHeight ((s.waiting.reverse ++ s.emitted).map Token.kind) +
      stackHeight (waiting.map Token.kind) + (groups.map Group.rise).sum =
        opener.arguments + 1 := by
  have hheight := hs.height
  rw [if_pos hawaiting, Postfix.height, hgroups, List.map_cons, List.sum_cons, group_rise_mk]
    at hheight
  rw [stackHeight_flush]
  omega

theorem waits_group {g : Group} (hs : Balanced s) (hgroups : s.groups = g :: groups) :
    Waits g.waiting ∧ ∀ g ∈ groups, Waits g.waiting :=
  List.forall_mem_cons.mp (hgroups ▸ hs.groups)

theorem comma_balanced {name : String} {q : Position} {commas : Nat} (hs : Balanced s)
    (hgroups : s.groups = ⟨.call name q commas, waiting⟩ :: groups)
    (hawaiting : s.awaiting = .operator) :
    Balanced ⟨s.waiting.reverse ++ s.emitted, [],
      ⟨.call name q (commas + 1), waiting⟩ :: groups, .operand⟩ := by
  have hflush := supplied_flush hs hawaiting (List.append_nil _).symm
  have hheight := height_group hs hgroups hawaiting
  refine ⟨hflush, ?_, nofun, ?_, nofun⟩
  · rw [if_neg (by simp), height_mk, List.map_nil, stackHeight_nil, List.map_cons, List.sum_cons,
      group_rise_mk]
    simp only [Opener.arguments] at hheight ⊢
    omega
  · obtain ⟨hwaiting, hrest⟩ := waits_group hs hgroups
    exact List.forall_mem_cons.mpr ⟨hwaiting, hrest⟩

theorem paren_balanced {q : Position} (hs : Balanced s)
    (hgroups : s.groups = ⟨.paren q, waiting⟩ :: groups) (hawaiting : s.awaiting = .operator) :
    Balanced ⟨s.waiting.reverse ++ s.emitted, waiting, groups, .operator⟩ := by
  have hflush := supplied_flush hs hawaiting (List.append_nil _).symm
  have hheight := height_group hs hgroups hawaiting
  obtain ⟨hwaiting, hrest⟩ := waits_group hs hgroups
  refine ⟨hflush, ?_, hwaiting, hrest, nofun⟩
  rw [if_pos rfl, height_mk, hheight]
  rfl

/-- A call takes its arguments and is one expression. -/
theorem call_balanced {emitted : List Token} {name : String} {q : Position} {arity : Nat}
    (hsupplied : Supplied (emitted.reverse.map Token.kind)) (hwaiting : Waits waiting)
    (hgroups : ∀ g ∈ groups, Waits g.waiting)
    (hheight : stackHeight (emitted.map Token.kind) + stackHeight (waiting.map Token.kind) +
      (groups.map Group.rise).sum = arity) :
    Balanced ⟨⟨.call name arity, name, q⟩ :: emitted, waiting, groups, .operator⟩ := by
  have houter := stackHeight_of_waits hwaiting
  have hrest := rise_of_waits hgroups
  have hsupply : (arity : Int) ≤ stackHeight (emitted.map Token.kind) := by omega
  refine ⟨supplied_emit hsupplied hsupply, ?_, hwaiting, hgroups, nofun⟩
  rw [if_pos rfl, height_mk, List.map_cons, stackHeight_cons, Token.Kind.rise]
  omega

theorem height_empty {opener : Opener} (hs : Balanced s)
    (hgroups : s.groups = ⟨opener, waiting⟩ :: groups) (hawaiting : s.awaiting = .operandOrClose) :
    s.waiting = [] ∧ stackHeight (s.emitted.map Token.kind) +
      stackHeight (waiting.map Token.kind) + (groups.map Group.rise).sum = 0 := by
  obtain ⟨hnil, _, _, heq, harguments⟩ := hs.opened hawaiting
  cases hgroups.symm.trans heq
  have hheight := hs.height
  rw [if_neg (by simp [hawaiting]), Postfix.height, hgroups, hnil, List.map_nil, stackHeight_nil,
    List.map_cons, List.sum_cons, group_rise_mk, harguments] at hheight
  exact ⟨hnil, by omega⟩

theorem advances_balanced (h : Advances s k s') (hs : Balanced s) : Balanced s' := by
  cases h with
  | operand _ ht hawaiting => exact operand_balanced hs ht hawaiting
  | unary _ ht hawaiting => exact unary_balanced hs ht hawaiting
  | binary _ ht hawaiting hsplit => exact binary_balanced hs ht hawaiting hsplit
  | openGroup hopener hawaiting => exact openGroup_balanced hs hopener hawaiting
  | comma hgroups hawaiting => exact comma_balanced hs hgroups hawaiting
  | paren _ hgroups hawaiting => exact paren_balanced hs hgroups hawaiting
  | empty _ hgroups hawaiting =>
    obtain ⟨hnil, hheight⟩ := height_empty hs hgroups hawaiting
    obtain ⟨hwaiting, hrest⟩ := waits_group hs hgroups
    rw [hnil]
    exact call_balanced hs.supplied hwaiting hrest hheight
  | call _ hgroups hawaiting =>
    have hflush := supplied_flush hs hawaiting (List.append_nil _).symm
    obtain ⟨hwaiting, hrest⟩ := waits_group hs hgroups
    exact call_balanced hflush hwaiting hrest (height_group hs hgroups hawaiting)

/-- Outside all groups an operator may follow what is none itself. -/
theorem advances_awaiting (h : Advances s k s') (hgroups : s'.groups = []) :
    s'.awaiting = .operator ↔ k.isOperator = false := by
  cases h with
  | operand hk | paren hk | empty hk | call hk => simp [hk]
  | unary hk | binary hk => simp [hk]
  | openGroup | comma => cases hgroups

theorem run_balanced {xs : List Lexeme} (hs : Balanced s)
    (h : xs.foldlM Postfix.step s = .ok s') : Balanced s' := by
  induction xs generalizing s with
  | nil =>
    cases h
    exact hs
  | cons x xs ih =>
    obtain ⟨s₁, hstep, hrest⟩ := Result.bind_eq_ok_iff.mp h
    exact ih (advances_balanced (step_advances hstep) hs) hrest

end

/-- The last lexeme is an operator, so that an operand is missing. -/
def EndsInOperator (source : String) : Prop :=
  ∃ ks k, Munches source.toList (ks ++ [k]) ∧ k.isOperator = true

theorem munches_nil_of_blank {cs : List Char} (h : ∀ c ∈ cs, isBlank c) : Munches cs [] := by
  induction cs with
  | nil => exact .nil
  | cons c cs ih =>
    obtain ⟨hc, hcs⟩ := List.forall_mem_cons.mp h
    exact .blank hc (ih hcs)

/-- The state at the end of the lexemes tells what the last of them is. -/
theorem run_awaiting {xs : List Lexeme} {s : Postfix} (h : xs.foldlM Postfix.step .start = .ok s)
    (hgroups : s.groups = []) : s.awaiting = .operator ↔
      ∃ front x, xs = front ++ [x] ∧ x.kind.isOperator = false := by
  rcases List.eq_nil_or_concat xs with rfl | ⟨front, x, rfl⟩
  · cases h
    simp [Postfix.start]
  · rw [List.concat_eq_append, List.foldlM_append] at h
    obtain ⟨s₁, -, h⟩ := Result.bind_eq_ok_iff.mp h
    obtain ⟨s₂, hstep, h⟩ := Result.bind_eq_ok_iff.mp h
    cases h
    rw [advances_awaiting (step_advances hstep) hgroups]
    simp

theorem finish_balanced {s : Postfix} {ts : List Token} (hs : Balanced s)
    (h : s.finish = .ok ts) : s.groups = [] ∧
      stackHeight (ts.map Token.kind) = (if s.awaiting = .operator then 1 else 0) ∧
      (s.awaiting = .operator → Supplied (ts.map Token.kind)) := by
  unfold Postfix.finish at h
  split at h
  · next hgroups =>
    cases h
    have hheight := hs.height
    rw [Postfix.height, hgroups, List.map_nil, List.sum_nil, Int.add_zero] at hheight
    refine ⟨hgroups, ?_, fun hawaiting => supplied_flush hs hawaiting (List.append_nil _).symm⟩
    rw [List.map_reverse, stackHeight_reverse, stackHeight_flush, hheight]
  · cases h
  · cases h

section

variable {source : String} {ts : List Token}

/-- An operand is missing in the end. -/
theorem ofSource_lacking (h : Token.ofSource source = .ok ts)
    (hends : (∀ c ∈ source.toList, isBlank c) ∨ EndsInOperator source) :
    stackHeight (ts.map Token.kind) = 0 := by
  obtain ⟨xs, s, hscan, hrun, hfinish⟩ := ofSource_eq_ok_iff.mp h
  have hmunches := munches_of_scan hscan
  obtain ⟨hgroups, hheight, -⟩ := finish_balanced (run_balanced balanced_start hrun) hfinish
  rw [hheight, if_neg]
  rw [run_awaiting hrun hgroups]
  rintro ⟨front, x, rfl, hx⟩
  rw [List.map_append, List.map_singleton] at hmunches
  rcases hends with hblank | ⟨ks, k, hmunches', hk⟩
  · have hnil := munches_unique hmunches (munches_nil_of_blank hblank)
    exact List.append_ne_nil_of_right_ne_nil _ (List.cons_ne_nil _ _) hnil
  · obtain ⟨-, hlast⟩ := List.append_inj' (munches_unique hmunches hmunches') rfl
    cases hlast
    exact absurd hk (by simp [hx])

theorem ofSource_of_blank (h : Token.ofSource source = .ok ts)
    (hblank : ∀ c ∈ source.toList, isBlank c) : ts = [] := by
  obtain ⟨xs, s, hscan, hrun, hfinish⟩ := ofSource_eq_ok_iff.mp h
  have hnil := munches_unique (munches_of_scan hscan) (munches_nil_of_blank hblank)
  obtain rfl := List.map_eq_nil_iff.mp hnil
  cases hrun
  cases hfinish
  rfl

theorem ofSource_complete (h : Token.ofSource source = .ok ts)
    (hblank : ¬∀ c ∈ source.toList, isBlank c) (hends : ¬EndsInOperator source) :
    Supplied (ts.map Token.kind) ∧ stackHeight (ts.map Token.kind) = 1 := by
  obtain ⟨xs, s, hscan, hrun, hfinish⟩ := ofSource_eq_ok_iff.mp h
  have hmunches := munches_of_scan hscan
  obtain ⟨hgroups, hheight, hsupplied⟩ :=
    finish_balanced (run_balanced balanced_start hrun) hfinish
  have hawaiting : s.awaiting = .operator := by
    rw [run_awaiting hrun hgroups]
    rcases List.eq_nil_or_concat xs with rfl | ⟨front, x, rfl⟩
    · exact absurd (blank_of_munches_nil hmunches) hblank
    · rw [List.concat_eq_append] at hmunches ⊢
      refine ⟨front, x, rfl, ?_⟩
      rw [List.map_append, List.map_singleton] at hmunches
      exact Bool.eq_false_iff.mpr fun hx => hends ⟨_, _, hmunches, hx⟩
  rw [if_pos hawaiting] at hheight
  exact ⟨hsupplied hawaiting, hheight⟩

end

section

variable {limit : Nat} {ts : List Token} {e : SyntaxError}

/-- The stack is as high as the count of the tokens says. -/
theorem foldlM_push_length {stack : List Expr.Node}
    (h : ts.foldlM (Expr.push limit) [] = .ok stack) :
    (stack.length : Int) = stackHeight (ts.map Token.kind) := by
  obtain ⟨stack', rfl, hbuilds⟩ := (@Expr.foldlM_push_eq_ok_iff limit ts [] stack).mp h
  have hlength := Expr.builds_length hbuilds
  simp only [List.length_nil] at hlength
  rw [stackHeight_eq, List.length_map]
  omega

/-- There is always something on the stack behind a token. -/
theorem foldlM_push_ne_nil {stack : List Expr.Node}
    (h : ts.foldlM (Expr.push limit) [] = .ok stack) (hts : ts ≠ []) : stack ≠ [] := by
  obtain ⟨front, t, rfl⟩ := (List.eq_nil_or_concat ts).resolve_left hts
  rw [List.concat_eq_append, List.foldlM_append] at h
  obtain ⟨stack₁, hfront, h⟩ := Result.bind_eq_ok_iff.mp h
  obtain ⟨stack₂, hpush, h⟩ := Result.bind_eq_ok_iff.mp h
  cases h
  obtain ⟨r, -, hpush⟩ := Result.bind_eq_ok_iff.mp hpush
  by_cases hlimit : limit < r.1.height
  · simp [hlimit] at hpush
  · simp only [hlimit, if_false] at hpush
    cases hpush
    exact List.cons_ne_nil _ _

/-- Tokens that find their operands and come to one expression are built but for wrong dots and too
much height. -/
theorem ofPostfix_of_supplied (hsupplied : Supplied (ts.map Token.kind))
    (hheight : stackHeight (ts.map Token.kind) = 1) (h : Expr.ofPostfix limit ts = .error e) :
    ∃ t ∈ ts, Refuses limit t e := by
  rw [Expr.ofPostfix] at h
  cases hfold : ts.foldlM (Expr.push limit) [] with
  | error e' =>
    rw [hfold] at h
    cases h
    obtain ⟨front, t, rest, stack, rfl, hfront, hpush⟩ := Result.foldlM_eq_error hfold
    refine ⟨t, by simp, (push_error hpush).resolve_left fun hstarved => ?_⟩
    have hfound := hsupplied (front.map Token.kind) t.kind (rest.map Token.kind) (by simp)
    have hlength := foldlM_push_length hfront
    omega
  | ok stack =>
    have hlength := foldlM_push_length hfold
    rw [hheight] at hlength
    obtain ⟨n, rfl⟩ : ∃ n, stack = [n] := List.length_eq_one_iff.mp (by omega)
    rw [hfold] at h
    cases h

theorem ofPostfix_lacking (hheight : stackHeight (ts.map Token.kind) = 0)
    (h : Expr.ofPostfix limit ts = .error e) (token : String) (p : Position) (count : Nat) :
    e ≠ .unexpectedToken token p (.leftover count) := by
  rintro rfl
  rw [Expr.ofPostfix] at h
  cases hfold : ts.foldlM (Expr.push limit) [] with
  | error e' =>
    rw [hfold] at h
    cases h
    obtain ⟨front, t, rest, stack, rfl, hfront, hpush⟩ := Result.foldlM_eq_error hfold
    rcases push_error hpush with ⟨-, heq⟩ | hrefuses
    · cases heq
    · cases isMiscount_of_refuses hrefuses
  | ok stack =>
    have hlength := foldlM_push_length hfold
    rw [hheight] at hlength
    obtain rfl : stack = [] := List.length_eq_zero_iff.mp (by omega)
    have hts : ts = [] := by
      by_contra hne
      exact foldlM_push_ne_nil hfold hne rfl
    rw [hfold, hts] at h
    cases h

end

section

variable {source : String} {limit : Nat} {e : SyntaxError}

/-- No expressions are left over, and operands lack only behind an operator at the end. -/
theorem parse_error (h : Expr.parse limit source = .error e) :
    (∀ token p count, e ≠ .unexpectedToken token p (.leftover count)) ∧
    ((∃ token p expected found, e = .arityMismatch token p expected found) →
      EndsInOperator source) := by
  have hother (h : e.isMiscount = false) :
      (∀ token p count, e ≠ .unexpectedToken token p (.leftover count)) ∧
      ((∃ token p expected found, e = .arityMismatch token p expected found) →
        EndsInOperator source) := by
    constructor
    · rintro token p count rfl
      cases h
    · rintro ⟨token, p, expected, found, rfl⟩
      cases h
  cases hsource : Token.ofSource source with
  | error e' =>
    rw [Expr.parse, hsource] at h
    cases h
    exact hother (ofSource_error hsource)
  | ok ts =>
    rw [Expr.parse, hsource, Result.ok_bind] at h
    by_cases hends : EndsInOperator source
    · exact ⟨ofPostfix_lacking (ofSource_lacking hsource (.inr hends)) h, fun _ => hends⟩
    · by_cases hblank : ∀ c ∈ source.toList, isBlank c
      · rw [ofSource_of_blank hsource hblank] at h
        cases h
        exact hother rfl
      · obtain ⟨hsupplied, hheight⟩ := ofSource_complete hsource hblank hends
        obtain ⟨t, -, hrefuses⟩ := ofPostfix_of_supplied hsupplied hheight h
        exact hother (isMiscount_of_refuses hrefuses)

/-- Where a source neither is blank nor ends in an operator, each of its tokens finds its operands
and one expression is left, so that it is refused for a wrong dot or for its height only. Any other
source leaves none, and never is there more than one. -/
theorem postfix_balanced (source : String) :
    (∀ ts, Token.ofSource source = .ok ts →
      ((∀ c ∈ source.toList, isBlank c) ∨ EndsInOperator source →
        stackHeight (ts.map Token.kind) = 0) ∧
      (¬((∀ c ∈ source.toList, isBlank c) ∨ EndsInOperator source) →
        Supplied (ts.map Token.kind) ∧ stackHeight (ts.map Token.kind) = 1 ∧
        ∀ limit e, Expr.ofPostfix limit ts = .error e → ∃ t ∈ ts, Refuses limit t e)) ∧
    ∀ limit e, Program.compile limit source = .error e →
      (∀ token p count, e ≠ .unexpectedToken token p (.leftover count)) ∧
      ((∃ token p expected found, e = .arityMismatch token p expected found) →
        EndsInOperator source) := by
  refine ⟨fun ts h => ⟨ofSource_lacking h, fun hends => ?_⟩, fun limit e h => ?_⟩
  · obtain ⟨hblank, hoperator⟩ := not_or.mp hends
    obtain ⟨hsupplied, hheight⟩ := ofSource_complete h hblank hoperator
    exact ⟨hsupplied, hheight, fun limit e => ofPostfix_of_supplied hsupplied hheight⟩
  · exact parse_error (parse_of_compile_error h)

/-- A call and a dot each find their operands, and the operator at the end does not. -/
theorem postfix_balanced_call :
    (Supplied [.name "a", .name "b", .dot, .call "f" 1] ∧
      stackHeight [.name "a", .name "b", .dot, .call "f" 1] = 1) ∧
    stackHeight [.name "a", .binary .and] = 0 ∧ EndsInOperator "a &&" := by
  have hcall : Token.ofSource "f(a.b)" = .ok [⟨.name "a", "a", ⟨1, 3⟩⟩, ⟨.name "b", "b", ⟨1, 5⟩⟩,
      ⟨.dot, ".", ⟨1, 4⟩⟩, ⟨.call "f" 1, "f", ⟨1, 1⟩⟩] := by with_unfolding_all rfl
  have hlone : Token.ofSource "a &&" =
      .ok [⟨.name "a", "a", ⟨1, 1⟩⟩, ⟨.binary .and, "&&", ⟨1, 3⟩⟩] := by with_unfolding_all rfl
  have herror : Program.compile 2 "a &&" = .error (.arityMismatch "&&" ⟨1, 3⟩ 2 1) := by
    with_unfolding_all rfl
  have hends := ((postfix_balanced "a &&").2 2 _ herror).2 ⟨_, _, _, _, rfl⟩
  have hscan : scan .start "f(a.b)".toList = ([⟨.callHead "f", "f", ⟨1, 1⟩⟩,
      ⟨.name "a", "a", ⟨1, 3⟩⟩, ⟨.dot, ".", ⟨1, 4⟩⟩, ⟨.name "b", "b", ⟨1, 5⟩⟩,
      ⟨.closeParen, ")", ⟨1, 6⟩⟩], none) := by with_unfolding_all rfl
  have hcomplete : ¬((∀ c ∈ "f(a.b)".toList, isBlank c) ∨ EndsInOperator "f(a.b)") := by
    rintro (hblank | ⟨ks, k, hmunches, hk⟩)
    · exact absurd (hblank 'f' (by decide)) (by decide)
    · have hlast := congrArg List.getLast? (munches_unique (munches_of_scan hscan) hmunches)
      rw [List.getLast?_concat] at hlast
      cases hlast
      cases hk
  obtain ⟨hsupplied, hheight, -⟩ := ((postfix_balanced "f(a.b)").1 _ hcall).2 hcomplete
  exact ⟨⟨hsupplied, hheight⟩, ((postfix_balanced "a &&").1 _ hlone).1 (.inr hends), hends⟩

end

end AccessControl.Matcher
