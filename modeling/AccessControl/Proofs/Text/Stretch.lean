namespace AccessControl.Text

variable {α : Type} {p : α → Bool} {xs ys : List α}

theorem notMem_of_forall {x : α} (hxs : ∀ y ∈ xs, p y) (hx : p x = false) : x ∉ xs := by
  intro hmem
  rw [hxs x hmem] at hx
  cases hx

theorem stop_cons {x : α} (hx : p x = false) (xs : List α) :
    ∀ y ∈ (x :: xs).head?, p y = false := by
  intro y hy
  cases hy
  exact hx

theorem takeWhile_append_stop (hxs : ∀ x ∈ xs, p x) (hys : ∀ y ∈ ys.head?, p y = false) :
    (xs ++ ys).takeWhile p = xs ∧ (xs ++ ys).dropWhile p = ys := by
  rw [List.takeWhile_append_of_pos hxs, List.dropWhile_append_of_pos hxs]
  cases ys with
  | nil => simp
  | cons y ys =>
    have hy := hys y rfl
    simp [hy]

theorem append_stop_unique {xs' ys' : List α} (hxs : ∀ x ∈ xs, p x)
    (hys : ∀ y ∈ ys.head?, p y = false) (hxs' : ∀ x ∈ xs', p x)
    (hys' : ∀ y ∈ ys'.head?, p y = false) (h : xs ++ ys = xs' ++ ys') : xs = xs' ∧ ys = ys' := by
  have hsplit := takeWhile_append_stop hxs hys
  rw [h] at hsplit
  have hsplit' := takeWhile_append_stop hxs' hys'
  exact ⟨hsplit.1.symm.trans hsplit'.1, hsplit.2.symm.trans hsplit'.2⟩

/-- A stretch of characters of one class is no longer than the longest there is. -/
theorem length_le_of_append_stop {xs' ys' : List α} (hxs : ∀ x ∈ xs, p x)
    (hxs' : ∀ x ∈ xs', p x) (hys' : ∀ y ∈ ys'.head?, p y = false) (h : xs ++ ys = xs' ++ ys') :
    xs.length ≤ xs'.length := by
  have htake : (xs ++ ys).takeWhile p = xs ++ ys.takeWhile p := List.takeWhile_append_of_pos hxs
  rw [h, (takeWhile_append_stop hxs' hys').1] at htake
  have hlen := congrArg List.length htake
  rw [List.length_append] at hlen
  omega

/-- Every text starts with such a stretch. -/
theorem exists_append_stop (p : α → Bool) (cs : List α) :
    ∃ xs ys, cs = xs ++ ys ∧ (∀ x ∈ xs, p x) ∧ ∀ y ∈ ys.head?, p y = false := by
  induction cs with
  | nil => exact ⟨[], [], rfl, (fun _ h => nomatch h), fun _ h => nomatch h⟩
  | cons c cs ih =>
    cases hc : p c with
    | false =>
      refine ⟨[], c :: cs, rfl, (fun _ h => nomatch h), fun y hy => ?_⟩
      cases hy
      exact hc
    | true =>
      obtain ⟨xs, ys, rfl, hxs, hys⟩ := ih
      exact ⟨c :: xs, ys, rfl, List.forall_mem_cons.mpr ⟨hc, hxs⟩, hys⟩

end AccessControl.Text
