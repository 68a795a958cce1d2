import AccessControl.Matcher.Value

namespace AccessControl.Matcher

structure Invocation where
  name : String
  args : List Value

/-- The calls are kept, in order, whether or not there is a result. -/
structure Traced (ε α : Type) where
  result : Except ε α
  calls : List Invocation

namespace Traced

variable {ε ε' α β : Type}

def ofExcept (result : Except ε α) : Traced ε α :=
  ⟨result, []⟩

/-- The first error ends the computation. -/
def bind (x : Traced ε α) (f : α → Traced ε β) : Traced ε β :=
  match x.result with
  | .error e => ⟨.error e, x.calls⟩
  | .ok a => ⟨(f a).result, x.calls ++ (f a).calls⟩

instance : Monad (Traced ε) where
  pure a := ofExcept (.ok a)
  bind := bind

instance : MonadExceptOf ε (Traced ε) where
  throw e := ofExcept (.error e)
  tryCatch x f := match x.result with
    | .error e => ⟨(f e).result, x.calls ++ (f e).calls⟩
    | .ok _ => x

def mapError (f : ε → ε') (x : Traced ε α) : Traced ε' α :=
  ⟨x.result.mapError f, x.calls⟩

/-- Makes a call whose result is `result`. -/
def invoke (call : Invocation) (result : Except ε α) : Traced ε α :=
  ⟨result, [call]⟩

@[simp] theorem result_pure (a : α) : (pure a : Traced ε α).result = .ok a := rfl

@[simp] theorem calls_pure (a : α) : (pure a : Traced ε α).calls = [] := rfl

@[simp] theorem result_throw (e : ε) : (throw e : Traced ε α).result = .error e := rfl

@[simp] theorem calls_throw (e : ε) : (throw e : Traced ε α).calls = [] := rfl

@[simp] theorem result_ofExcept (r : Except ε α) : (ofExcept r).result = r := rfl

@[simp] theorem ok_bind (a : α) (f : α → Traced ε β) : ofExcept (.ok a) >>= f = f a := by
  change bind _ f = f a
  simp [bind, ofExcept]

theorem bind_of_error {x : Traced ε α} {e : ε} (h : x.result = .error e) (f : α → Traced ε β) :
    x >>= f = ⟨.error e, x.calls⟩ := by
  change bind x f = _
  simp [bind, h]

theorem bind_of_ok {x : Traced ε α} {a : α} (h : x.result = .ok a) (f : α → Traced ε β) :
    x >>= f = ⟨(f a).result, x.calls ++ (f a).calls⟩ := by
  change bind x f = _
  simp [bind, h]

theorem result_bind (x : Traced ε α) (f : α → Traced ε β) :
    (x >>= f).result = x.result >>= fun a => (f a).result := by
  cases h : x.result with
  | error e => rw [bind_of_error h]; rfl
  | ok a => rw [bind_of_ok h]; rfl

/-- A sequence has a result if both of its parts do. -/
theorem result_bind_eq_ok_iff {x : Traced ε α} {f : α → Traced ε β} {b : β} :
    (x >>= f).result = .ok b ↔ ∃ a, x.result = .ok a ∧ (f a).result = .ok b := by
  cases h : x.result with
  | error e => simp [bind_of_error h]
  | ok a => simp [bind_of_ok h]

/-- A sequence fails if one of its parts does. -/
theorem result_bind_eq_error_iff {x : Traced ε α} {f : α → Traced ε β} {e : ε} :
    (x >>= f).result = .error e ↔
      x.result = .error e ∨ ∃ a, x.result = .ok a ∧ (f a).result = .error e := by
  cases h : x.result with
  | error e => simp [bind_of_error h]
  | ok a => simp [bind_of_ok h]

theorem eq_ok_of_toOption {x : Traced ε α} {a : α} (h : x.result.toOption = some a)
    (hcalls : x.calls.isEmpty) : x = ⟨.ok a, []⟩ := by
  obtain ⟨result, calls⟩ := x
  cases result with
  | error e => cases h
  | ok b =>
    cases h
    exact congrArg (Traced.mk _) (List.isEmpty_iff.mp hcalls)

theorem bind_congr_of_ok {x : Traced ε α} {f g : α → Traced ε β}
    (h : ∀ a, x.result = .ok a → f a = g a) : x >>= f = x >>= g := by
  cases hx : x.result with
  | error e => rw [bind_of_error hx, bind_of_error hx]
  | ok a => rw [bind_of_ok hx, bind_of_ok hx, h a hx]

instance : LawfulMonad (Traced ε) := LawfulMonad.mk' (Traced ε)
  (by
    intro α x
    obtain ⟨result, calls⟩ := x
    cases result with
    | error e => rfl
    | ok a => exact congrArg (Traced.mk _) (List.append_nil calls))
  (by
    intro α β a f
    exact ok_bind a f)
  (by
    intro α β γ x f g
    cases hx : x.result with
    | error e => simp [bind_of_error hx, bind_of_error]
    | ok a =>
      cases hf : (f a).result with
      | error e => simp [bind_of_ok hx, bind_of_error, hf]
      | ok b => simp [bind_of_ok hx, bind_of_ok, hf])

@[simp] theorem result_map (f : α → β) (x : Traced ε α) : (f <$> x).result = x.result.map f := by
  rw [map_eq_pure_bind]
  cases h : x.result with
  | error e => rw [bind_of_error h]; rfl
  | ok a => rw [bind_of_ok h]; rfl

end Traced

end AccessControl.Matcher
