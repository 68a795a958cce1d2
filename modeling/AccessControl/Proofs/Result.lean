namespace AccessControl.Result

variable {ε α β γ : Type}

@[simp] theorem ok_bind (a : α) (f : α → Except ε β) : Except.ok a >>= f = f a := rfl

@[simp] theorem error_bind (e : ε) (f : α → Except ε β) :
    Except.error e >>= f = Except.error e := rfl

@[simp] theorem throw_eq (e : ε) : (throw e : Except ε α) = .error e := rfl

@[simp] theorem pure_eq (a : α) : (pure a : Except ε α) = .ok a := rfl

theorem map_bind (x : Except ε α) (f : α → Except ε β) (g : β → γ) :
    (x >>= f).map g = x >>= fun a => (f a).map g := by
  cases x <;> rfl

/-- A sequence succeeds if both of its parts do. -/
theorem bind_eq_ok_iff {x : Except ε α} {f : α → Except ε β} {b : β} :
    x >>= f = .ok b ↔ ∃ a, x = .ok a ∧ f a = .ok b := by
  cases x <;> simp

theorem mapError_eq_ok_iff {x : Except ε α} {f : ε → β} {a : α} :
    x.mapError f = .ok a ↔ x = .ok a := by
  cases x with
  | error e => exact ⟨fun h => (nomatch h), fun h => nomatch h⟩
  | ok b => exact ⟨fun h => Except.ok.inj h ▸ rfl, fun h => Except.ok.inj h ▸ rfl⟩

theorem map_eq_error_iff {x : Except ε α} {f : α → β} {e : ε} :
    x.map f = .error e ↔ x = .error e := by
  cases x with
  | error e' => exact ⟨fun h => Except.error.inj h ▸ rfl, fun h => Except.error.inj h ▸ rfl⟩
  | ok a => exact ⟨fun h => (nomatch h), fun h => nomatch h⟩

theorem eq_ok_of_toOption {x : Except ε α} {a : α} (h : x.toOption = some a) : x = .ok a := by
  cases x with
  | error e => cases h
  | ok b =>
    cases h
    rfl

/-- Elements taken in turn come to the error of the first that has one. -/
theorem mapM_eq_error_iff {f : α → Except ε β} {as : List α} {e : ε} :
    as.mapM f = .error e ↔ ∃ front a rest, as = front ++ a :: rest ∧
      (∀ b ∈ front, ∃ c, f b = .ok c) ∧ f a = .error e := by
  induction as with
  | nil => simp
  | cons a as ih =>
    rw [List.mapM_cons]
    cases ha : f a with
    | error e' =>
      rw [error_bind]
      constructor
      · intro h
        cases h
        exact ⟨[], a, as, rfl, by simp, ha⟩
      · rintro ⟨front, a', rest, heq, hfront, ha'⟩
        cases front with
        | nil =>
          cases heq
          cases ha.symm.trans ha'
          rfl
        | cons b front =>
          cases heq
          obtain ⟨c, hc⟩ := hfront a List.mem_cons_self
          exact nomatch ha.symm.trans hc
    | ok c =>
      have htail : (as.mapM f >>= fun cs => pure (c :: cs)) = .error e ↔ as.mapM f = .error e := by
        cases as.mapM f <;> simp
      rw [ok_bind, htail, ih]
      constructor
      · rintro ⟨front, a', rest, rfl, hfront, ha'⟩
        exact ⟨a :: front, a', rest, rfl, List.forall_mem_cons.mpr ⟨⟨c, ha⟩, hfront⟩, ha'⟩
      · rintro ⟨front, a', rest, heq, hfront, ha'⟩
        cases front with
        | nil =>
          cases heq
          exact nomatch ha.symm.trans ha'
        | cons b front =>
          cases heq
          exact ⟨front, a', rest, rfl, (List.forall_mem_cons.mp hfront).2, ha'⟩

/-- Steps taken in turn come to the error of the first that has one. -/
theorem foldlM_eq_error {f : β → α → Except ε β} {b : β} {as : List α} {e : ε}
    (h : as.foldlM f b = .error e) : ∃ front a rest b', as = front ++ a :: rest ∧
      front.foldlM f b = .ok b' ∧ f b' a = .error e := by
  induction as generalizing b with
  | nil => cases h
  | cons a as ih =>
    rw [List.foldlM_cons] at h
    cases ha : f b a with
    | error e' =>
      rw [ha] at h
      cases h
      exact ⟨[], a, as, b, rfl, rfl, ha⟩
    | ok b₁ =>
      rw [ha, ok_bind] at h
      obtain ⟨front, a', rest, b', rfl, hfront, ha'⟩ := ih h
      refine ⟨a :: front, a', rest, b', rfl, ?_, ha'⟩
      rw [List.foldlM_cons, ha, ok_bind, hfront]

end AccessControl.Result
