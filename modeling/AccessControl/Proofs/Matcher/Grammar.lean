import AccessControl.Matcher.Lexeme
import AccessControl.Proofs.Matcher.Postorder

namespace AccessControl.Matcher

open Lexeme (Kind)

/-- What the grammar tells apart, from the loosest to the tightest. -/
inductive Level
  | disjunction
  | conjunction
  | comparison
  | sum
  | product
  | prefixed
  | access
  | primary

namespace Level

def rank : Level → Nat
  | disjunction => 1
  | conjunction => 2
  | comparison => 3
  | sum => 4
  | product => 5
  | prefixed => 6
  | access => 7
  | primary => 8

/-- The operators that join an expression of the level and a tighter one. -/
def operators : Level → List BinaryOp
  | disjunction => [.or]
  | conjunction => [.and]
  | comparison => [.lt, .le, .gt, .ge, .eq, .ne]
  | sum => [.add, .sub]
  | product => [.mul, .div]
  | prefixed => []
  | access => []
  | primary => []

theorem rank_of_mem_operators {l : Level} {op : BinaryOp} (h : op ∈ l.operators) :
    l.rank = op.precedence := by
  cases l <;> cases op <;> simp [operators] at h <;> rfl

theorem exists_mem_operators (op : BinaryOp) : ∃ l : Level, op ∈ l.operators := by
  cases op
  case or => exact ⟨disjunction, by simp [operators]⟩
  case and => exact ⟨conjunction, by simp [operators]⟩
  case add | sub => exact ⟨sum, by simp [operators]⟩
  case mul | div => exact ⟨product, by simp [operators]⟩
  all_goals exact ⟨comparison, by simp [operators]⟩

end Level

/-- The operator that a lexeme stands for between two operands. -/
def Lexeme.Kind.binary? : Kind → Option BinaryOp
  | operator op => some op
  | sign op => op.binary?
  | _ => none

/-- Lexemes spell an expression of a level. Binary operators and the dot associate to the left; on
either side of a dot, parentheses make no difference. -/
inductive Derives : Level → List Kind → Expr → Prop
  | loosen {l l' : Level} {ks e} (hl : l.rank ≤ l'.rank) (h : Derives l' ks e) : Derives l ks e
  | binary {l l' : Level} {k op ks ls a b} (hop : op ∈ l.operators) (hk : k.binary? = some op)
    (hl : l.rank < l'.rank) (ha : Derives l ks a) (hb : Derives l' ls b) :
    Derives l (ks ++ k :: ls) (.binary op a b)
  | unary {op ks e} (h : Derives .prefixed ks e) :
    Derives .prefixed (.sign op :: ks) (.unary op e)
  | attr {ks ls key a} (howner : Derives .access ks (.var key))
    (hattr : Derives .primary ls (.var a)) :
    Derives .access (ks ++ .dot :: ls) (.attr key [a])
  | attrOf {ks ls key path a} (howner : Derives .access ks (.attr key path))
    (hattr : Derives .primary ls (.var a)) :
    Derives .access (ks ++ .dot :: ls) (.attr key (path ++ [a]))
  | literal {l} : Derives .primary [.literal l] (.literal l)
  | name {name} : Derives .primary [.name name] (.var name)
  | paren {ks e} (h : Derives .disjunction ks e) :
    Derives .primary (.openParen :: (ks ++ [.closeParen])) e
  | call {name} {args : List (List Kind × Expr)}
    (h : ∀ arg ∈ args, Derives .disjunction arg.1 arg.2) :
    Derives .primary (.callHead name :: ([.comma].intercalate (args.map (·.1)) ++ [.closeParen]))
      (.call name (args.map (·.2)))

theorem derives_proper {l : Level} {ks : List Kind} {e : Expr} (h : Derives l ks e) : e.Proper := by
  induction h with
  | loosen _ _ ih => exact ih
  | binary _ _ _ _ _ iha ihb => exact ⟨iha, ihb⟩
  | unary _ ih => exact ih
  | attr => exact List.cons_ne_nil _ _
  | attrOf => exact List.append_ne_nil_of_right_ne_nil _ (List.cons_ne_nil _ _)
  | literal => trivial
  | name => trivial
  | paren _ ih => exact ih
  | call _ ih =>
    refine Expr.properAll_iff.mpr fun e he => ?_
    obtain ⟨arg, harg, rfl⟩ := List.mem_map.mp he
    exact ih arg harg

/-- A bare name is a primary expression, at whatever level it stands. -/
theorem derives_primary_of_var {l : Level} {ks : List Kind} {e : Expr} {name : String}
    (h : Derives l ks e) (he : e = .var name) : Derives .primary ks e := by
  induction h with
  | loosen _ _ ih => exact ih he
  | name => exact .name
  | paren h => exact .paren h
  | binary | unary | attr | attrOf | literal | call => cases he

/-- The expression that a dot makes of its two sides. -/
theorem derives_access {ks ls : List Kind} {owner attr e : Expr} {l : Level}
    (howner : Derives .access ks owner) (hattr : Derives l ls attr)
    (h : Expr.access owner attr = .ok e) : Derives .access (ks ++ .dot :: ls) e := by
  obtain ⟨a, rfl, ⟨key, rfl, rfl⟩ | ⟨key, path, rfl, rfl⟩⟩ := Expr.access_eq_ok_iff.mp h
  · exact .attr howner (derives_primary_of_var hattr rfl)
  · exact .attrOf howner (derives_primary_of_var hattr rfl)

end AccessControl.Matcher
