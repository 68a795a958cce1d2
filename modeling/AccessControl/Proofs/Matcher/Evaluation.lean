import AccessControl.Matcher.Machine
import AccessControl.Proofs.Result
import Mathlib.Data.List.Induction

namespace AccessControl.Matcher

/-- The value of a name and of the attributes behind it, the last of which comes first here. An
error cites everything before the attribute that is missing. -/
def Scope.resolve (s : Scope) (name : String) : List String → Except Failure Value
  | [] => s.fetch name
  | attr :: owner => do
    let v ← s.resolve name owner
    match v.field? attr with
    | some w => .ok w
    | none => .error (.undefinedAttribute (".".intercalate (name :: owner.reverse)) attr)

mutual

/-- Both operands of every operator have a value before it is applied, and all arguments of a call
before its function is looked up. -/
def Expr.eval (s : Scope) : Expr → Traced Failure Value
  | .literal l => pure l.value
  | .var name => .ofExcept (s.fetch name)
  | .attr key path => .ofExcept (s.resolve key path.reverse)
  | .unary op e => do
    let v ← e.eval s
    .ofExcept (op.apply v)
  | .binary op a b => do
    let u ← a.eval s
    let v ← b.eval s
    .ofExcept (op.apply u v)
  | .call name args => do
    let vs ← Expr.evalAll s args
    match s.functions.get? ⟨name, args.length⟩ with
    | some f => .invoke ⟨name, vs⟩ (f.apply name vs)
    | none => throw (.undefinedFunction name args.length)

/-- From left to right. -/
def Expr.evalAll (s : Scope) : List Expr → Traced Failure (List Value)
  | [] => pure []
  | e :: es => do
    let v ← e.eval s
    let vs ← Expr.evalAll s es
    return v :: vs

end

theorem follow_snoc (walked : String) (v : Value) (path : List String) (attr : String) :
    Scope.follow walked v (path ++ [attr]) = (do
      let w ← Scope.follow walked v path
      match w.field? attr with
      | some x => .ok x
      | none => .error (.undefinedAttribute (".".intercalate (walked :: path)) attr)) := by
  induction path generalizing walked v with
  | nil =>
    rw [List.nil_append, Scope.follow, Scope.follow, Result.ok_bind]
    cases v.field? attr <;> rfl
  | cons a path ih =>
    cases h : v.field? a with
    | none => simp [Scope.follow, h]
    | some w => simpa [Scope.follow, h] using ih (walked ++ "." ++ a) w

/-- Walking a path forwards finds what looking up its owner first finds. -/
theorem fetchPath_eq_resolve (s : Scope) (name : String) (path : List String) :
    s.fetchPath name path = s.resolve name path.reverse := by
  induction path using List.reverseRecOn with
  | nil =>
    change (s.fetch name >>= fun v => .ok v) = s.fetch name
    cases s.fetch name <;> rfl
  | append_singleton path attr ih =>
    have hsnoc (v : Value) := follow_snoc name v path attr
    simp only [Scope.fetchPath] at ih
    simp only [Scope.fetchPath, List.reverse_append, List.reverse_singleton, List.singleton_append,
      Scope.resolve, ← ih, List.reverse_reverse, hsnoc, bind_assoc]

theorem evalAll_length {s : Scope} {es : List Expr} {vs : List Value}
    (h : (Expr.evalAll s es).result = .ok vs) : vs.length = es.length := by
  induction es generalizing vs with
  | nil =>
    rw [Expr.evalAll] at h
    cases h
    rfl
  | cons e es ih =>
    rw [Expr.evalAll] at h
    obtain ⟨v, -, h⟩ := Traced.result_bind_eq_ok_iff.mp h
    obtain ⟨ws, hws, h⟩ := Traced.result_bind_eq_ok_iff.mp h
    cases h
    simp [ih hws]

/-- The arguments lie on the stack in reverse, the last on top. -/
theorem step_call (s : Scope) (pc : Nat) (name : String) (vs stack : List Value) :
    (Instruction.call name vs.length).step s pc (vs.reverse ++ stack) = (do
      let v ← s.functions.call name vs
      return v :: stack) := by
  have hlen : ¬(vs.reverse ++ stack).length < vs.length := by simp
  have htake : (vs.reverse ++ stack).take vs.length = vs.reverse := by
    rw [← List.length_reverse, List.take_left]
  have hdrop : (vs.reverse ++ stack).drop vs.length = stack := by
    rw [← List.length_reverse, List.drop_left]
  rw [Instruction.step, if_neg hlen, htake, hdrop, List.reverse_reverse]

mutual

/-- Whatever lies below on the stack and whatever code follows, the code of an expression leaves its
value on the stack, or ends the run with its error. -/
theorem run_code_append (s : Scope) (e : Expr) (pc : Nat) (stack : List Value)
    (rest : List Instruction) :
    run s pc stack (e.code ++ rest) =
      e.eval s >>= fun v => run s (pc + e.code.length) (v :: stack) rest := by
  cases e with
  | literal l => simp [Expr.code, Expr.eval, run, Instruction.step]
  | var name => simp [Expr.code, Expr.eval, run, Instruction.step]
  | attr key path => simp [Expr.code, Expr.eval, run, Instruction.step, fetchPath_eq_resolve]
  | unary op a =>
    have ha := run_code_append s a pc stack (.unary op :: rest)
    simp only [Expr.code, List.append_assoc, List.singleton_append, ha, Expr.eval, bind_assoc]
    simp [run, Instruction.step, Nat.add_assoc]
  | binary op a b =>
    have ha := run_code_append s a pc stack (b.code ++ .binary op :: rest)
    have hb (u : Value) :=
      run_code_append s b (pc + a.code.length) (u :: stack) (.binary op :: rest)
    simp only [Expr.code, List.append_assoc, List.singleton_append, ha, hb, Expr.eval, bind_assoc]
    simp [run, Instruction.step, Nat.add_assoc]
  | call name args =>
    have hargs := run_codeAll_append s args pc stack (.call name args.length :: rest)
    simp only [Expr.code, List.append_assoc, List.singleton_append, hargs, Expr.eval, bind_assoc]
    apply Traced.bind_congr_of_ok
    intro vs hvs
    have hlen := evalAll_length hvs
    -- Only now, with a value for each argument, is the function looked up.
    rw [run, ← hlen, step_call, FunctionTable.call]
    cases s.functions.get? ⟨name, vs.length⟩ <;> simp [Nat.add_assoc]

theorem run_codeAll_append (s : Scope) (es : List Expr) (pc : Nat) (stack : List Value)
    (rest : List Instruction) :
    run s pc stack (Expr.codeAll es ++ rest) =
      Expr.evalAll s es >>= fun vs =>
        run s (pc + (Expr.codeAll es).length) (vs.reverse ++ stack) rest := by
  cases es with
  | nil => simp [Expr.codeAll, Expr.evalAll]
  | cons e es =>
    have he := run_code_append s e pc stack (Expr.codeAll es ++ rest)
    have hes (v : Value) := run_codeAll_append s es (pc + e.code.length) (v :: stack) rest
    simp only [Expr.codeAll, List.append_assoc, he, hes, Expr.evalAll, bind_assoc]
    simp [Nat.add_assoc]

end

theorem eval_code (source : String) (e : Expr) (s : Scope) :
    Program.eval ⟨source, e.code⟩ s = e.eval s := by
  have hrun := run_code_append s e 0 [] []
  rw [List.append_nil] at hrun
  simp [Program.eval, hrun, run]

/-- A stack underflow is only reported where the call made last went to a function of the
application and was answered so. -/
def UnderflowsInHostOnly {α : Type} (functions : FunctionTable) (x : Traced Failure α) : Prop :=
  ∀ n, x.result = .error (.stackUnderflow n) → ∃ call f,
    x.calls.getLast? = some call ∧
    functions.get? ⟨call.name, call.args.length⟩ = some (.function f) ∧
    f call.args = .error (.stackUnderflow n)

section

variable {functions : FunctionTable} {α β : Type}

theorem underflowsInHostOnly_of_ne {x : Traced Failure α}
    (h : ∀ n, x.result ≠ .error (.stackUnderflow n)) : UnderflowsInHostOnly functions x :=
  fun n hn => absurd hn (h n)

theorem underflowsInHostOnly_bind {x : Traced Failure α} {f : α → Traced Failure β}
    (hx : UnderflowsInHostOnly functions x)
    (hf : ∀ a, x.result = .ok a → UnderflowsInHostOnly functions (f a)) :
    UnderflowsInHostOnly functions (x >>= f) := by
  intro n hn
  cases h : x.result with
  | error e =>
    rw [Traced.bind_of_error h] at hn ⊢
    cases hn
    exact hx n h
  | ok a =>
    rw [Traced.bind_of_ok h] at hn ⊢
    obtain ⟨call, g, hlast, hg⟩ := hf a h n hn
    exact ⟨call, g, by simp [List.getLast?_append, hlast], hg⟩

end

theorem unary_apply_ne_underflow (op : UnaryOp) (v : Value) (n : Nat) :
    op.apply v ≠ .error (.stackUnderflow n) := by
  unfold UnaryOp.apply
  split <;> simp

theorem binary_apply_ne_underflow (op : BinaryOp) (u v : Value) (n : Nat) :
    op.apply u v ≠ .error (.stackUnderflow n) := by
  unfold BinaryOp.apply
  split
  case h_2 => split <;> simp
  all_goals simp

theorem fetch_ne_underflow (s : Scope) (name : String) (n : Nat) :
    s.fetch name ≠ .error (.stackUnderflow n) := by
  unfold Scope.fetch
  split <;> simp

theorem resolve_ne_underflow (s : Scope) (name : String) (path : List String) (n : Nat) :
    s.resolve name path ≠ .error (.stackUnderflow n) := by
  induction path with
  | nil => exact fetch_ne_underflow s name n
  | cons attr owner ih =>
    rw [Scope.resolve]
    cases h : s.resolve name owner with
    | error e =>
      rw [h] at ih
      exact ih
    | ok v =>
      rw [Result.ok_bind]
      split <;> simp

/-- Only functions of the application answer in their own words. -/
theorem binding_apply_underflow {b : Binding} {name : String} {args : List Value} {n : Nat}
    (h : b.apply name args = .error (.stackUnderflow n)) :
    ∃ f, b = .function f ∧ f args = .error (.stackUnderflow n) := by
  cases b with
  | function f => exact ⟨f, rfl, h⟩
  | role linked =>
    rw [Binding.apply] at h
    split at h <;> simp at h
  | predicate p =>
    rw [Binding.apply] at h
    unfold Builtin.Predicate.apply at h
    split at h
    · next value pattern =>
      cases p
      case regexMatch =>
        rw [Builtin.Predicate.holds] at h
        split at h <;> simp [Except.map] at h
      all_goals simp [Builtin.Predicate.holds, Except.map] at h
    · simp at h

mutual

theorem eval_underflowsInHostOnly (s : Scope) (e : Expr) :
    UnderflowsInHostOnly s.functions (e.eval s) := by
  cases e with
  | literal l => exact underflowsInHostOnly_of_ne fun n h => by simp [Expr.eval] at h
  | var name => exact underflowsInHostOnly_of_ne (fetch_ne_underflow s name)
  | attr key path => exact underflowsInHostOnly_of_ne (resolve_ne_underflow s key path.reverse)
  | unary op a =>
    rw [Expr.eval]
    refine underflowsInHostOnly_bind (eval_underflowsInHostOnly s a) fun v _ => ?_
    exact underflowsInHostOnly_of_ne (unary_apply_ne_underflow op v)
  | binary op a b =>
    rw [Expr.eval]
    refine underflowsInHostOnly_bind (eval_underflowsInHostOnly s a) fun u _ => ?_
    refine underflowsInHostOnly_bind (eval_underflowsInHostOnly s b) fun v _ => ?_
    exact underflowsInHostOnly_of_ne (binary_apply_ne_underflow op u v)
  | call name args =>
    rw [Expr.eval]
    refine underflowsInHostOnly_bind (evalAll_underflowsInHostOnly s args) fun vs hvs => ?_
    rw [← evalAll_length hvs]
    cases hb : s.functions.get? ⟨name, vs.length⟩ with
    | none => exact underflowsInHostOnly_of_ne fun n h => by simp at h
    | some b =>
      intro n hn
      obtain ⟨f, rfl, hf⟩ := binding_apply_underflow hn
      exact ⟨⟨name, vs⟩, f, rfl, hb, hf⟩

theorem evalAll_underflowsInHostOnly (s : Scope) (es : List Expr) :
    UnderflowsInHostOnly s.functions (Expr.evalAll s es) := by
  cases es with
  | nil => exact underflowsInHostOnly_of_ne fun n h => by simp [Expr.evalAll] at h
  | cons e es =>
    rw [Expr.evalAll]
    refine underflowsInHostOnly_bind (eval_underflowsInHostOnly s e) fun v _ => ?_
    refine underflowsInHostOnly_bind (evalAll_underflowsInHostOnly s es) fun vs _ => ?_
    exact underflowsInHostOnly_of_ne fun n h => by simp at h

end

/-- Running the code of an expression is evaluating the expression: the result is the same, and so
are the function calls made on the way. The machine itself never runs out of operands. -/
theorem eval_code_refines_tree (source : String) (e : Expr) (s : Scope) :
    Program.eval ⟨source, e.code⟩ s = e.eval s ∧
      UnderflowsInHostOnly s.functions (Program.eval ⟨source, e.code⟩ s) := by
  have heval := eval_code source e s
  refine ⟨heval, ?_⟩
  rw [heval]
  exact eval_underflowsInHostOnly s e

/-- That a function is missing shows only when its arguments have values. -/
example : ((Expr.call "f" [.var "x"]).eval ⟨[], []⟩).result = .error (.undefinedVariable "x") := rfl

end AccessControl.Matcher
