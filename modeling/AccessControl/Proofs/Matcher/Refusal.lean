import AccessControl.Matcher.Program
import AccessControl.Proofs.Matcher.Parsing

namespace AccessControl.Matcher

open Text
open Lexeme (munch scan)
open AccessControl.Matcher.Expr (operands)

section

variable {limit : Nat} {e : SyntaxError}

/-- Why a token that finds its operands makes no expression: it is a dot between the wrong
expressions, or what it makes is too high. -/
def Refuses (limit : Nat) (t : Token) (e : SyntaxError) : Prop :=
  (t.kind = .dot ∧ (e = .unexpectedToken t.citation t.position .attributeOwner ∨
    e = .unexpectedToken t.citation t.position .attributeName)) ∨
  e = .tooDeep t.citation t.position limit

theorem access_error {owner attr : Expr} {reason : Reason}
    (h : Expr.access owner attr = .error reason) :
    reason = .attributeOwner ∨ reason = .attributeName := by
  unfold Expr.access at h
  split at h
  · cases h
  · cases h
  · cases h
    exact .inl rfl
  · cases h
    exact .inr rfl

theorem node_error {t : Token} {stack : List Expr.Node} (h : Expr.node t stack = .error e) :
    (stack.length < operands t.kind ∧
      e = .arityMismatch t.citation t.position (operands t.kind) stack.length) ∨
    Refuses limit t e := by
  obtain ⟨kind, text, position⟩ := t
  cases kind with
  | literal | name => cases h
  | dot =>
    rcases stack with _ | ⟨b, _ | ⟨a, stack⟩⟩
    · cases h
      exact .inl ⟨by simp [operands], rfl⟩
    · cases h
      exact .inl ⟨by simp [operands], rfl⟩
    · cases haccess : Expr.access a.expr b.expr with
      | ok e' => simp [Expr.node, haccess] at h
      | error reason =>
        simp only [Expr.node, haccess] at h
        cases h
        rcases access_error haccess with rfl | rfl
        · exact .inr (.inl ⟨rfl, .inl rfl⟩)
        · exact .inr (.inl ⟨rfl, .inr rfl⟩)
  | unary op =>
    rcases stack with _ | ⟨a, stack⟩
    · cases h
      exact .inl ⟨by simp [operands], rfl⟩
    · cases h
  | binary op =>
    rcases stack with _ | ⟨b, _ | ⟨a, stack⟩⟩
    · cases h
      exact .inl ⟨by simp [operands], rfl⟩
    · cases h
      exact .inl ⟨by simp [operands], rfl⟩
    · cases h
  | call name arity =>
    simp only [Expr.node] at h
    split at h
    · next hlt =>
      cases h
      exact .inl ⟨hlt, rfl⟩
    · cases h

/-- A token is refused for want of operands, or for what it makes of them. -/
theorem push_error {t : Token} {stack : List Expr.Node} (h : Expr.push limit stack t = .error e) :
    (stack.length < operands t.kind ∧
      e = .arityMismatch t.citation t.position (operands t.kind) stack.length) ∨
    Refuses limit t e := by
  rw [Expr.push] at h
  cases hnode : Expr.node t stack with
  | error e' =>
    rw [hnode] at h
    cases h
    exact node_error hnode
  | ok r =>
    rw [hnode, Result.ok_bind] at h
    by_cases hlimit : limit < r.1.height
    · simp only [hlimit, if_true] at h
      cases h
      exact .inr (.inr rfl)
    · simp only [hlimit, if_false] at h
      cases h

end

/-- Whether an error is about how many expressions there are. -/
def SyntaxError.isMiscount : SyntaxError → Bool
  | unexpectedToken _ _ (.leftover _) => true
  | arityMismatch .. => true
  | _ => false

section

variable {source : String} {s : Postfix} {p : Position} {c : Char} {cs : List Char}
  {e : SyntaxError}

theorem isMiscount_of_refuses {limit : Nat} {t : Token} (h : Refuses limit t e) :
    e.isMiscount = false := by
  rcases h with ⟨-, rfl | rfl⟩ | rfl <;> rfl

theorem munch_error (h : munch p c cs = .error e) : e.isMiscount = false := by
  unfold munch at h
  split at h
  · next hc =>
    obtain ⟨ds, fraction, rest, rfl, hends⟩ := exists_number_split cs
    rw [munchNumber_of_split hc hends] at h
    split at h <;> cases h
    rfl
  · split at h
    · unfold Lexeme.munchString at h
      split at h <;> cases h
      rfl
    · split at h
      · cases h
      · unfold Lexeme.munchSymbol at h
        split at h <;> cases h
        split <;> rfl

theorem scan_error {xs : List Lexeme} (h : scan p cs = (xs, some e)) : e.isMiscount = false := by
  fun_induction scan p cs generalizing xs with
  | case1 => cases h
  | case2 p c cs hc ih => exact ih h
  | case3 p c cs hc e' hmunch =>
    cases h
    exact munch_error hmunch
  | case4 p c cs hc m hmunch lexemes fault hscan ih =>
    cases h
    exact ih hscan

theorem operand_error {t : Token} (h : s.operand t = .error e) : e.isMiscount = false := by
  unfold Postfix.operand at h
  split at h <;> cases h
  rfl

theorem binary_error {t : Token} (h : s.binary t = .error e) : e.isMiscount = false := by
  unfold Postfix.binary at h
  split at h <;> cases h
  rfl

theorem openGroup_error {opener : Opener} {text : String}
    (h : s.openGroup opener text p = .error e) : e.isMiscount = false := by
  unfold Postfix.openGroup at h
  split at h <;> cases h
  rfl

theorem step_error {x : Lexeme} (h : s.step x = .error e) : e.isMiscount = false := by
  obtain ⟨kind, text, position⟩ := x
  cases kind with
  | literal | name => exact operand_error h
  | callHead | openParen => exact openGroup_error h
  | closeParen | comma =>
    obtain ⟨emitted, waiting, groups, awaiting⟩ := s
    rcases groups with _ | ⟨⟨_ | _, _⟩, _⟩ <;> cases awaiting <;> cases h <;> rfl
  | dot | operator => exact binary_error h
  | sign op =>
    simp only [Postfix.step] at h
    split at h
    · cases h
    · split at h
      · exact binary_error h
      · cases h
        rfl

theorem ofSource_error (h : Token.ofSource source = .error e) : e.isMiscount = false := by
  obtain ⟨xs, fault, hscan⟩ : ∃ xs fault, scan .start source.toList = (xs, fault) := ⟨_, _, rfl⟩
  rw [Token.ofSource, hscan] at h
  cases hrun : xs.foldlM Postfix.step .start with
  | error e' =>
    simp only [hrun] at h
    cases h
    obtain ⟨_, x, _, s, -, -, hstep⟩ := Result.foldlM_eq_error hrun
    exact step_error hstep
  | ok s =>
    simp only [hrun] at h
    cases fault with
    | some e' =>
      cases h
      exact scan_error hscan
    | none =>
      obtain ⟨emitted, waiting, groups, awaiting⟩ := s
      rcases groups with _ | ⟨⟨_ | _, _⟩, _⟩ <;> cases h <;> rfl

end

end AccessControl.Matcher
