import AccessControl.Matcher.Machine
import AccessControl.Proofs.Matcher.Postorder
import AccessControl.Proofs.Result

namespace AccessControl.Matcher

/-- In the scope `s'` the instruction does to the replacements of values what it does in `s` to the
values. -/
def Instruction.Mirrors (f : Value → Value) (s s' : Scope) : Instruction → Prop
  | push l => f l.value = l.value
  | fetch name => s'.fetch name = (s.fetch name).map f
  | fetchPath name path => s'.fetchPath name path = (s.fetchPath name path).map f
  | unary op => ∀ v, op.apply (f v) = (op.apply v).map f
  | binary op => ∀ u v, op.apply (f u) (f v) = (op.apply u v).map f
  | call name arity => ∀ args : List Value, args.length = arity →
    s'.functions.call name (args.map f) = f <$> s.functions.call name args

/-- The replacement keeps what decides on a request: types, and truth values themselves. -/
structure KeepsTruth (f : Value → Value) : Prop where
  type : ∀ v, (f v).type = v.type
  bool : ∀ b, f (.bool b) = .bool b

theorem keepsTruth_id : KeepsTruth id :=
  ⟨fun _ => rfl, fun _ => rfl⟩

section

variable {f : Value → Value} {s s' : Scope}

theorem ofExcept_map_bind (r : Except Failure Value) (stack : List Value) :
    (do let v ← Traced.ofExcept (r.map f); return v :: stack.map f : Traced Failure (List Value)) =
      List.map f <$> (do let v ← Traced.ofExcept r; return v :: stack) := by
  cases r <;> rfl

theorem step_mirrors {i : Instruction} (h : i.Mirrors f s s') (pc : Nat) (stack : List Value) :
    i.step s' pc (stack.map f) = List.map f <$> i.step s pc stack := by
  cases i with
  | push l =>
    have hvalue : f l.value = l.value := h
    simp [Instruction.step, hvalue]
  | fetch name =>
    have hfetch : s'.fetch name = (s.fetch name).map f := h
    rw [Instruction.step, Instruction.step, hfetch, ofExcept_map_bind]
  | fetchPath name path =>
    have hfetch : s'.fetchPath name path = (s.fetchPath name path).map f := h
    rw [Instruction.step, Instruction.step, hfetch, ofExcept_map_bind]
  | unary op =>
    cases stack with
    | nil => rfl
    | cons a rest =>
      simp only [List.map_cons, Instruction.step]
      rw [h a, ofExcept_map_bind]
  | binary op =>
    cases stack with
    | nil => rfl
    | cons b rest =>
      cases rest with
      | nil => rfl
      | cons a rest =>
        simp only [List.map_cons, Instruction.step]
        rw [h a b, ofExcept_map_bind]
  | call name arity =>
    simp only [Instruction.step, List.length_map]
    by_cases hlen : stack.length < arity
    · rw [if_pos hlen, if_pos hlen]
      rfl
    · have hargs : (stack.take arity).reverse.length = arity := by simp; omega
      have hcall := h _ hargs
      rw [if_neg hlen, if_neg hlen, ← List.map_take, ← List.map_reverse, hcall, ← List.map_drop]
      simp

theorem run_mirrors {is : List Instruction} (h : ∀ i ∈ is, i.Mirrors f s s') (pc : Nat)
    (stack : List Value) : run s' pc (stack.map f) is = List.map f <$> run s pc stack is := by
  induction is generalizing pc stack with
  | nil => rfl
  | cons i is ih =>
    obtain ⟨hi, his⟩ := List.forall_mem_cons.mp h
    have hrest := ih his (pc + 1)
    rw [run, run, step_mirrors hi, bind_map_left, map_bind]
    exact congrArg _ (funext hrest)

variable {p : Program}

theorem eval_mirrors (h : ∀ i ∈ p.instructions, i.Mirrors f s s') :
    p.eval s' = f <$> p.eval s := by
  have hrun := run_mirrors h 0 []
  rw [List.map_nil] at hrun
  rw [Program.eval, Program.eval, hrun, bind_map_left, map_bind]
  refine congrArg _ (funext fun stack => ?_)
  match stack with
  | [] => rfl
  | [v] => simp
  | _ :: _ :: _ => rfl

/-- Scopes that are mirrored by every instruction of a matcher give it the same answer, with the
same error where there is none. -/
theorem holds_mirrors (hf : KeepsTruth f) (h : ∀ i ∈ p.instructions, i.Mirrors f s s') :
    p.holds s' = p.holds s := by
  rw [Program.holds, Program.holds, eval_mirrors h, bind_map_left]
  refine congrArg _ (funext fun v => ?_)
  have htype := hf.type v
  cases v with
  | bool b => rw [hf.bool]
  | number | string | map =>
    split
    · next hv =>
      rw [hv] at htype
      cases htype
    · rw [htype]

end

/-- The scopes do not differ in what the instruction reads: a variable, an attribute of one, or a
function. -/
def Instruction.AgreesOn (s s' : Scope) : Instruction → Prop
  | fetch name | fetchPath name [] => s'.get? name = s.get? name
  | fetchPath name (attr :: _) =>
    (s'.get? name).map (·.field? attr) = (s.get? name).map (·.field? attr)
  | call name arity => s'.functions.get? ⟨name, arity⟩ = s.functions.get? ⟨name, arity⟩
  | _ => True

section

variable {s s' : Scope}

/-- Of a variable, a path sees no more than the attribute that it asks for first. -/
theorem fetchPath_congr {name attr : String} (path : List String)
    (h : (s'.get? name).map (·.field? attr) = (s.get? name).map (·.field? attr)) :
    s'.fetchPath name (attr :: path) = s.fetchPath name (attr :: path) := by
  rw [Scope.fetchPath, Scope.fetchPath, Scope.fetch, Scope.fetch]
  cases hv : s.get? name with
  | none =>
    rw [hv, Option.map_none, Option.map_eq_none_iff] at h
    rw [h]
  | some v =>
    rw [hv, Option.map_some, Option.map_eq_some_iff] at h
    obtain ⟨w, hw, hfield⟩ := h
    simp only [hw, Result.ok_bind, Scope.follow, hfield]

/-- An instruction that reads the same does the same. -/
theorem mirrors_of_agreesOn {i : Instruction} (h : i.AgreesOn s s') : i.Mirrors id s s' := by
  have hid {r : Except Failure Value} : r.map id = r := by cases r <;> rfl
  have hfetch {name : String} (h : s'.get? name = s.get? name) : s'.fetch name = s.fetch name := by
    rw [Scope.fetch, Scope.fetch, h]
  cases i with
  | push l => rfl
  | fetch name => exact (hfetch h).trans hid.symm
  | fetchPath name path =>
    cases path with
    | nil =>
      have hpath : s'.fetchPath name [] = s.fetchPath name [] := by
        rw [Scope.fetchPath, Scope.fetchPath, hfetch h]
      exact hpath.trans hid.symm
    | cons attr path => exact (fetchPath_congr path h).trans hid.symm
  | unary op => exact fun v => hid.symm
  | binary op => exact fun u v => hid.symm
  | call name arity =>
    rintro args rfl
    have hfunction : s'.functions.get? ⟨name, args.length⟩ =
      s.functions.get? ⟨name, args.length⟩ := h
    rw [List.map_id, id_map, FunctionTable.call, FunctionTable.call, hfunction]

end

mutual

/-- The code of an expression goes from a variable to some attribute, if it uses a path. -/
theorem path_ne_nil_of_mem_code {e : Expr} (he : e.Proper) {name : String} {path : List String}
    (h : .fetchPath name path ∈ e.code) : path ≠ [] := by
  cases e with
  | literal l => simp [Expr.code] at h
  | var x => simp [Expr.code] at h
  | attr key p =>
    simp only [Expr.code, List.mem_singleton, Instruction.fetchPath.injEq] at h
    exact h.2 ▸ he
  | unary op a =>
    simp only [Expr.code, List.mem_append, List.mem_singleton, reduceCtorEq, or_false] at h
    exact path_ne_nil_of_mem_code (e := a) he h
  | binary op a b =>
    simp only [Expr.code, List.mem_append, List.mem_singleton, reduceCtorEq, or_false] at h
    exact h.elim (path_ne_nil_of_mem_code he.1) (path_ne_nil_of_mem_code he.2)
  | call f args =>
    simp only [Expr.code, List.mem_append, List.mem_singleton, reduceCtorEq, or_false] at h
    exact path_ne_nil_of_mem_codeAll he h

theorem path_ne_nil_of_mem_codeAll {es : List Expr} (hes : Expr.ProperAll es) {name : String}
    {path : List String} (h : .fetchPath name path ∈ Expr.codeAll es) : path ≠ [] := by
  cases es with
  | nil => simp [Expr.codeAll] at h
  | cons e es =>
    rw [Expr.codeAll, List.mem_append] at h
    exact h.elim (path_ne_nil_of_mem_code hes.1) (path_ne_nil_of_mem_codeAll hes.2)

end

end AccessControl.Matcher
