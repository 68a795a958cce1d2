import AccessControl.Matcher.Program
import AccessControl.Proofs.Decimal.Magnitude
import AccessControl.Proofs.Matcher.Truncation
import AccessControl.Proofs.Sequence

namespace AccessControl.Matcher

open Lexeme (Kind)

namespace Expr

mutual

/-- Numbers compare as doubles, all else has to be the same. -/
def beq : Expr → Expr → Bool
  | .literal l, .literal l' => l == l'
  | .var name, .var name' => name == name'
  | .attr key path, .attr key' path' => key == key' && path == path'
  | .unary op e, .unary op' e' => op == op' && e.beq e'
  | .binary op a b, .binary op' a' b' => op == op' && (a.beq a' && b.beq b')
  | .call name args, .call name' args' => name == name' && beqAll args args'
  | _, _ => false

def beqAll : List Expr → List Expr → Bool
  | [], [] => true
  | e :: es, e' :: es' => e.beq e' && beqAll es es'
  | _, _ => false

end

instance : BEq Expr where
  beq := beq

theorem beqAll_iff {es es' : List Expr} : beqAll es es' ↔ List.Forall₂ (· == ·) es es' := by
  induction es generalizing es' with
  | nil => cases es' <;> simp [beqAll]
  | cons e es ih =>
    cases es' with
    | nil => simp [beqAll]
    | cons e' es' =>
      rw [beqAll, Bool.and_eq_true, ih, List.forall₂_cons]
      rfl

end Expr

/-- Puts the expression that an instruction computes in the place of its operands, of which the last
is on top of the stack. -/
def Instruction.restore (stack : List Expr) : Instruction → List Expr
  | push l => .literal l :: stack
  | fetch name => .var name :: stack
  | fetchPath key path => .attr key path :: stack
  | unary op => match stack with
    | e :: rest => .unary op e :: rest
    | _ => []
  | binary op => match stack with
    | b :: a :: rest => .binary op a b :: rest
    | _ => []
  | call name arity => .call name (stack.take arity).reverse :: stack.drop arity

/-- The expressions that are on the stack behind some instructions. -/
def restore (stack : List Expr) (is : List Instruction) : List Expr :=
  is.foldl Instruction.restore stack

theorem restore_append (stack : List Expr) (is js : List Instruction) :
    restore stack (is ++ js) = restore (restore stack is) js :=
  List.foldl_append

mutual

/-- Whatever the stack holds, the code of an expression puts this expression on top. -/
theorem restore_code (e : Expr) (stack : List Expr) : restore stack e.code = e :: stack := by
  cases e with
  | literal | var | attr => rfl
  | unary op a =>
    rw [Expr.code, restore_append, restore_code a]
    rfl
  | binary op a b =>
    rw [Expr.code, restore_append, restore_append, restore_code a, restore_code b]
    rfl
  | call name args =>
    have htake : (args.reverse ++ stack).take args.length = args.reverse := by
      rw [← List.length_reverse, List.take_left]
    have hdrop : (args.reverse ++ stack).drop args.length = stack := by
      rw [← List.length_reverse, List.drop_left]
    rw [Expr.code, restore_append, restore_codeAll args]
    change Expr.call name _ :: _ = _
    rw [htake, hdrop, List.reverse_reverse]

theorem restore_codeAll (es stack : List Expr) :
    restore stack (Expr.codeAll es) = es.reverse ++ stack := by
  cases es with
  | nil => rfl
  | cons e es =>
    rw [Expr.codeAll, restore_append, restore_code e, restore_codeAll es, List.reverse_cons,
      List.append_assoc, List.singleton_append]

end

/-- Instructions are the code of at most one expression. -/
theorem code_injective : Function.Injective Expr.code := by
  intro e e' h
  have hrestore := congrArg (restore []) h
  rw [restore_code, restore_code] at hrestore
  exact (List.cons.inj hrestore).1

section

variable {is is' : List Instruction} {stack stack' : List Expr}

/-- Of equal operands, equal instructions make equal expressions. -/
theorem restore_step_congr {i i' : Instruction} (hi : i == i')
    (hstack : List.Forall₂ (· == ·) stack stack') :
    List.Forall₂ (· == ·) (i.restore stack) (i'.restore stack') := by
  cases i with
  | push l =>
    cases i' with
    | push => exact .cons hi hstack
    | _ => cases hi
  | fetch name =>
    cases i' with
    | fetch => exact .cons hi hstack
    | _ => cases hi
  | fetchPath key path =>
    cases i' with
    | fetchPath => exact .cons hi hstack
    | _ => cases hi
  | unary op =>
    cases i' with
    | unary =>
      cases hstack with
      | nil => exact .nil
      | cons he hrest => exact .cons (Bool.and_eq_true_iff.mpr ⟨hi, he⟩) hrest
    | _ => cases hi
  | binary op =>
    cases i' with
    | binary =>
      rcases hstack with _ | ⟨hb, _ | ⟨ha, hrest⟩⟩
      · exact .nil
      · exact .nil
      · have hab := Bool.and_eq_true_iff.mpr ⟨ha, hb⟩
        exact .cons (Bool.and_eq_true_iff.mpr ⟨hi, hab⟩) hrest
    | _ => cases hi
  | call name arity =>
    cases i' with
    | call =>
      obtain ⟨hname, harity⟩ := Bool.and_eq_true_iff.mp hi
      obtain rfl := eq_of_beq harity
      have hargs := List.rel_reverse (List.forall₂_take arity hstack)
      have hcall := Bool.and_eq_true_iff.mpr ⟨hname, Expr.beqAll_iff.mpr hargs⟩
      exact .cons hcall (List.forall₂_drop arity hstack)
    | _ => cases hi

theorem restore_congr (his : List.Forall₂ (· == ·) is is')
    (hstack : List.Forall₂ (· == ·) stack stack') :
    List.Forall₂ (· == ·) (restore stack is) (restore stack' is') := by
  induction his generalizing stack stack' with
  | nil => exact hstack
  | cons hi _ ih => exact ih (restore_step_congr hi hstack)

end

mutual

theorem code_congr {e e' : Expr} (h : e == e') : List.Forall₂ (· == ·) e.code e'.code := by
  cases e with
  | literal l =>
    cases e' with
    | literal => exact .cons h .nil
    | _ => cases h
  | var name =>
    cases e' with
    | var => exact .cons h .nil
    | _ => cases h
  | attr key path =>
    cases e' with
    | attr => exact .cons h .nil
    | _ => cases h
  | unary op a =>
    cases e' with
    | unary =>
      obtain ⟨hop, ha⟩ := Bool.and_eq_true_iff.mp h
      exact List.rel_append (code_congr ha) (.cons hop .nil)
    | _ => cases h
  | binary op a b =>
    cases e' with
    | binary =>
      obtain ⟨hop, hab⟩ := Bool.and_eq_true_iff.mp h
      obtain ⟨ha, hb⟩ := Bool.and_eq_true_iff.mp hab
      exact List.rel_append (List.rel_append (code_congr ha) (code_congr hb)) (.cons hop .nil)
    | _ => cases h
  | call name args =>
    cases e' with
    | call name' args' =>
      obtain ⟨hname, hargs⟩ := Bool.and_eq_true_iff.mp h
      have hlen := (Expr.beqAll_iff.mp hargs).length_eq
      have hcall : Instruction.call name args.length == Instruction.call name' args'.length :=
        Bool.and_eq_true_iff.mpr ⟨hname, beq_iff_eq.mpr hlen⟩
      exact List.rel_append (codeAll_congr hargs) (.cons hcall .nil)
    | _ => cases h

theorem codeAll_congr {es es' : List Expr} (h : Expr.beqAll es es') :
    List.Forall₂ (· == ·) (Expr.codeAll es) (Expr.codeAll es') := by
  cases es with
  | nil =>
    cases es' with
    | nil => exact .nil
    | cons => cases h
  | cons e es =>
    cases es' with
    | nil => cases h
    | cons e' es' =>
      obtain ⟨he, hes⟩ := Bool.and_eq_true_iff.mp h
      exact List.rel_append (code_congr he) (codeAll_congr hes)

end

theorem code_beq_iff {e e' : Expr} : e.code == e'.code ↔ e == e' := by
  rw [Sequence.beq_iff_forall₂]
  constructor
  · intro h
    have hrestore := restore_congr h .nil
    rw [restore_code, restore_code] at hrestore
    exact (List.forall₂_cons.mp hrestore).1
  · exact code_congr

/-- A number is neither NaN nor negative. -/
def Literal.IsPlain : Literal → Prop
  | number x => Decimal.IsMagnitude x
  | string _ => True

theorem literal_beq_iff_eq {l l' : Literal} (hl : l.IsPlain) (hl' : l'.IsPlain) :
    l == l' ↔ l = l' := by
  cases l with
  | number x =>
    cases l' with
    | number y => exact (Decimal.beq_iff_eq_of_isMagnitude hl hl').trans (by simp)
    | string => exact ⟨fun h => (nomatch h), fun h => nomatch h⟩
  | string s =>
    cases l' with
    | number => exact ⟨fun h => (nomatch h), fun h => nomatch h⟩
    | string t => exact (beq_iff_eq (a := s)).trans (by simp)

theorem instruction_beq_iff_eq {i i' : Instruction} (hi : ∀ l, i = .push l → l.IsPlain)
    (hi' : ∀ l, i' = .push l → l.IsPlain) : i == i' ↔ i = i' := by
  have hdiffer {i i' : Instruction} (hbeq : (i == i') = false) (hne : i ≠ i') :
      i == i' ↔ i = i' := by
    simp [hbeq, hne]
  cases i with
  | push l =>
    cases i' with
    | push l' => exact (literal_beq_iff_eq (hi l rfl) (hi' l' rfl)).trans (by simp)
    | _ => exact hdiffer rfl (by simp)
  | fetch name =>
    cases i' with
    | fetch name' => exact (beq_iff_eq (a := name)).trans (by simp)
    | _ => exact hdiffer rfl (by simp)
  | fetchPath key path =>
    cases i' with
    | fetchPath key' path' => exact Bool.and_eq_true_iff.trans (by simp)
    | _ => exact hdiffer rfl (by simp)
  | unary op =>
    cases i' with
    | unary op' => exact (beq_iff_eq (a := op)).trans (by simp)
    | _ => exact hdiffer rfl (by simp)
  | binary op =>
    cases i' with
    | binary op' => exact (beq_iff_eq (a := op)).trans (by simp)
    | _ => exact hdiffer rfl (by simp)
  | call name arity =>
    cases i' with
    | call name' arity' => exact Bool.and_eq_true_iff.trans (by simp)
    | _ => exact hdiffer rfl (by simp)

/-- Where all literals are plain, equal instructions are the same. -/
theorem instructions_beq_iff_eq {is is' : List Instruction} (h : ∀ l, .push l ∈ is → l.IsPlain)
    (h' : ∀ l, .push l ∈ is' → l.IsPlain) : is == is' ↔ is = is' := by
  induction is generalizing is' with
  | nil => cases is' <;> simp
  | cons i is ih =>
    cases is' with
    | nil => simp
    | cons i' is' =>
      have hhead := instruction_beq_iff_eq (fun l hl => h l (hl ▸ List.mem_cons_self))
        fun l hl => h' l (hl ▸ List.mem_cons_self)
      have hrest := ih (fun l hl => h l (List.mem_cons_of_mem i hl))
        fun l hl => h' l (List.mem_cons_of_mem i' hl)
      rw [List.cons_beq_cons, Bool.and_eq_true, hhead, hrest, List.cons.injEq]

theorem codeAll_eq_flatMap (es : List Expr) : Expr.codeAll es = es.flatMap Expr.code := by
  induction es with
  | nil => rfl
  | cons e es ih => rw [Expr.codeAll, ih, List.flatMap_cons]

/-- The code pushes only literals that stand in the source. -/
theorem literal_mem_of_derives {level : Level} {ks : List Kind} {e : Expr} (h : Derives level ks e)
    {l : Literal} (hl : .push l ∈ e.code) : .literal l ∈ ks := by
  induction h with
  | loosen _ _ ih => exact ih hl
  | binary _ _ _ _ _ iha ihb =>
    simp only [Expr.code, List.mem_append, List.mem_singleton, reduceCtorEq, or_false] at hl
    rcases hl with ha | hb
    · exact List.mem_append_left _ (iha ha)
    · exact List.mem_append_right _ (List.mem_cons_of_mem _ (ihb hb))
  | unary _ ih =>
    simp only [Expr.code, List.mem_append, List.mem_singleton, reduceCtorEq, or_false] at hl
    exact List.mem_cons_of_mem _ (ih hl)
  | attr | attrOf | name => simp [Expr.code] at hl
  | literal =>
    obtain rfl : l = _ := by simpa [Expr.code] using hl
    exact List.mem_singleton_self _
  | paren _ ih => exact List.mem_cons_of_mem _ (List.mem_append_left _ (ih hl))
  | @call name args _ ih =>
    simp only [Expr.code, codeAll_eq_flatMap, List.mem_append, List.mem_singleton, reduceCtorEq,
      or_false, List.mem_flatMap, List.mem_map] at hl
    obtain ⟨e, ⟨arg, harg, rfl⟩, he⟩ := hl
    have hkinds := Sequence.mem_intercalate [.comma]
      (List.mem_map_of_mem (f := (·.1)) harg) (ih arg harg he)
    exact List.mem_cons_of_mem _ (List.mem_append_left _ hkinds)

theorem isPlain_of_spelt {l : Literal} {word : List Char} (h : Spelt (.literal l) word) :
    l.IsPlain := by
  cases h with
  | number => exact Decimal.isMagnitude_ofPlaces _ _
  | string => trivial
  | symbol h => cases h

theorem isPlain_of_munches {cs : List Char} {ks : List Kind} (h : Munches cs ks) {l : Literal}
    (hl : .literal l ∈ ks) : l.IsPlain := by
  induction h with
  | nil => cases hl
  | blank _ _ ih => exact ih hl
  | lexeme hk _ ih =>
    rcases List.mem_cons.mp hl with rfl | hl
    · exact isPlain_of_spelt hk.spelt
    · exact ih hl

/-- Programs of sources are equal if and only if they are of the same expression. -/
theorem code_beq_iff_eq {ks ks' : List Kind} {cs cs' : List Char} {e e' : Expr}
    (hmunches : Munches cs ks) (hderives : Derives .disjunction ks e)
    (hmunches' : Munches cs' ks') (hderives' : Derives .disjunction ks' e') :
    e.code == e'.code ↔ e = e' := by
  have hplain := instructions_beq_iff_eq
    (fun l hl => isPlain_of_munches hmunches (literal_mem_of_derives hderives hl))
    fun l hl => isPlain_of_munches hmunches' (literal_mem_of_derives hderives' hl)
  exact hplain.trans code_injective.eq_iff

/-- Programs are equal if and only if they were made of equal expressions, and no two expressions
have the same code. Programs of sources are equal if and only if the sources are parsed to the same
expression; and that is to say that the lexemes of both derive it, whatever blanks there are between
them and whatever parentheses among them. -/
theorem code_determines_tree :
    (∀ e e' : Expr, e.code == e'.code ↔ e == e') ∧
    (∀ e e' : Expr, e.code = e'.code → e = e') ∧
    ∀ limit limit' source source' p q,
      Program.compile limit source = .ok p → Program.compile limit' source' = .ok q →
      (p == q ↔ Expr.parse limit source = Expr.parse limit' source') ∧
      (p == q ↔ ∃ ks ks' e, Munches source.toList ks ∧ Munches source'.toList ks' ∧
        Derives .disjunction ks e ∧ Derives .disjunction ks' e) := by
  refine ⟨fun e e' => code_beq_iff, fun e e' h => code_injective h, ?_⟩
  intro limit limit' source source' p q hp hq
  obtain ⟨e, hparse, hcode⟩ := Result.bind_eq_ok_iff.mp hp
  obtain ⟨e', hparse', hcode'⟩ := Result.bind_eq_ok_iff.mp hq
  cases hcode
  cases hcode'
  obtain ⟨ks, hmunches, hderives, -⟩ := derives_of_parse hparse
  obtain ⟨ks', hmunches', hderives', -⟩ := derives_of_parse hparse'
  have hsame : (⟨source, e.code⟩ : Program) == ⟨source', e'.code⟩ ↔ e = e' :=
    code_beq_iff_eq hmunches hderives hmunches' hderives'
  constructor
  · rw [hsame, hparse, hparse', Except.ok.injEq]
  · rw [hsame]
    constructor
    · rintro rfl
      exact ⟨ks, ks', e, hmunches, hmunches', hderives, hderives'⟩
    · rintro ⟨ls, ls', e₀, hls, hls', hderives₀, hderives₀'⟩
      obtain rfl := parse_unique (parse_of_derives hls hderives₀ (Nat.le_refl _)) hparse
      exact parse_unique (parse_of_derives hls' hderives₀' (Nat.le_refl _)) hparse'

/-- Neither blanks nor parentheses that change nothing are seen in a program. -/
theorem code_determines_tree_spaced : ∃ p q, Program.compile 2 "a&&b.c" = .ok p ∧
    Program.compile 3 " ( a ) && ((b) . c)" = .ok q ∧ p == q := by
  let code : List Instruction := [.fetch "a", .fetchPath "b" ["c"], .binary .and]
  let e : Expr := .binary .and (.var "a") (.attr "b" ["c"])
  have hp : Program.compile 2 "a&&b.c" = .ok ⟨"a&&b.c", code⟩ := by with_unfolding_all rfl
  have hq : Program.compile 3 " ( a ) && ((b) . c)" = .ok ⟨" ( a ) && ((b) . c)", code⟩ := by
    with_unfolding_all rfl
  have hparse : Expr.parse 2 "a&&b.c" = .ok e := by with_unfolding_all rfl
  have hparse' : Expr.parse 3 " ( a ) && ((b) . c)" = .ok e := by with_unfolding_all rfl
  obtain ⟨hsame, -⟩ := code_determines_tree.2.2 2 3 _ _ _ _ hp hq
  exact ⟨_, _, hp, hq, hsame.mpr (hparse.trans hparse'.symm)⟩

end AccessControl.Matcher
