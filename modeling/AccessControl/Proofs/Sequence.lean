import Mathlib.Data.List.Forall2

namespace AccessControl.Sequence

variable {α β : Type} {R : α → β → Prop}

/-- What is related to two lists together is two lists together. -/
theorem exists_append_of_forall₂ {xs xs' : List α} {ys : List β}
    (h : List.Forall₂ R (xs ++ xs') ys) : ∃ front back,
      ys = front ++ back ∧ List.Forall₂ R xs front ∧ List.Forall₂ R xs' back := by
  induction xs generalizing ys with
  | nil => exact ⟨[], ys, rfl, .nil, h⟩
  | cons x xs ih =>
    cases h with
    | cons hx hrest =>
      obtain ⟨front, back, rfl, hfront, hback⟩ := ih hrest
      exact ⟨_ :: front, back, rfl, .cons hx hfront, hback⟩

theorem exists_mem_of_forall₂ {xs : List α} {ys : List β} (h : List.Forall₂ R xs ys) {y : β}
    (hy : y ∈ ys) : ∃ x ∈ xs, R x y := by
  induction h with
  | nil => cases hy
  | cons hxy _ ih =>
    rcases List.mem_cons.mp hy with rfl | hy
    · exact ⟨_, List.mem_cons_self, hxy⟩
    · obtain ⟨x, hx, hR⟩ := ih hy
      exact ⟨x, List.mem_cons_of_mem _ hx, hR⟩

/-- Lists compare element by element. -/
theorem beq_iff_forall₂ [BEq α] {xs ys : List α} :
    xs == ys ↔ List.Forall₂ (fun x y => (x == y) = true) xs ys := by
  induction xs generalizing ys with
  | nil => cases ys <;> simp
  | cons x xs ih => cases ys <;> simp [ih]

theorem mem_intercalate (sep : List α) {xs : List α} {xss : List (List α)} {a : α} (h : xs ∈ xss)
    (ha : a ∈ xs) : a ∈ sep.intercalate xss := by
  obtain ⟨i, hi⟩ := List.mem_iff_getElem?.mp h
  rw [← @List.getElem?_intersperse_two_mul _ _ sep] at hi
  exact List.mem_flatten.mpr ⟨xs, List.mem_of_getElem? hi, ha⟩

theorem notMem_of_mem_splitOn [BEq α] [LawfulBEq α] {sep : α} {xs piece : List α}
    (h : piece ∈ xs.splitOn sep) : sep ∉ piece := by
  induction xs generalizing piece with
  | nil =>
    rw [List.splitOn_nil, List.mem_singleton] at h
    simp [h]
  | cons x xs ih =>
    obtain ⟨first, rest, hsplit⟩ := List.exists_cons_of_ne_nil (List.splitOn_ne_nil sep xs)
    rw [hsplit, List.forall_mem_cons] at ih
    rw [List.splitOn_cons_eq_if_modifyHead, hsplit] at h
    split at h
    · rcases List.mem_cons.mp h with rfl | h
      · exact List.not_mem_nil
      · rcases List.mem_cons.mp h with rfl | h
        · exact ih.1
        · exact ih.2 _ h
    · next hx =>
      rcases List.mem_cons.mp h with rfl | h
      · exact List.not_mem_cons_of_ne_of_not_mem (fun heq => hx (beq_iff_eq.mpr heq.symm)) ih.1
      · exact ih.2 _ h

/-- In front of the last lists each list has the separator behind it. -/
theorem intercalate_append {sep : List α} {xss yss : List (List α)} (hne : yss ≠ []) :
    sep.intercalate (xss ++ yss) = xss.flatMap (· ++ sep) ++ sep.intercalate yss := by
  induction xss with
  | nil => rfl
  | cons xs xss ih =>
    have hrest := List.append_ne_nil_of_right_ne_nil xss hne
    rw [List.cons_append, List.intercalate_cons_of_ne_nil hrest, ih, List.flatMap_cons]
    simp only [List.append_assoc]

/-- What ends a list is in whatever part stands at its end. -/
theorem mem_of_append_eq_concat {front back init : List α} {a : α}
    (h : front ++ back = init ++ [a]) (hback : back ≠ []) : a ∈ back := by
  have hlast := congrArg List.getLast? h
  rw [List.getLast?_append_of_ne_nil front hback, List.getLast?_concat] at hlast
  exact List.mem_of_getLast? hlast

/-- Where a filtered list is split, so is the list. -/
theorem exists_append_of_filter_eq {p : α → Bool} {xs front back : List α} {x : α}
    (h : xs.filter p = front ++ x :: back) :
    ∃ front' back', xs = front' ++ x :: back' ∧ front'.filter p = front := by
  obtain ⟨ys, zs, rfl, hfront, hzs⟩ := List.filter_eq_append_iff.mp h
  obtain ⟨skipped, rest, rfl, hskipped, -, -⟩ := List.filter_eq_cons_iff.mp hzs
  refine ⟨ys ++ skipped, rest, by simp, ?_⟩
  rw [List.filter_append, hfront, List.filter_eq_nil_iff.mpr hskipped, List.append_nil]

theorem lookup_eq_some_iff_of_nodup [BEq α] [LawfulBEq α] {entries : List (α × β)}
    (h : (entries.map (·.1)).Nodup) {a : α} {b : β} :
    entries.lookup a = some b ↔ (a, b) ∈ entries := by
  rw [List.lookup_eq_some_iff]
  constructor
  · rintro ⟨front, back, rfl, -⟩
    exact List.mem_append_right front List.mem_cons_self
  · intro hmem
    obtain ⟨front, back, rfl⟩ := List.append_of_mem hmem
    refine ⟨front, back, rfl, fun entry hentry => bne_iff_ne.mpr ?_⟩
    rw [List.map_append, List.map_cons, List.nodup_append] at h
    exact (h.2.2 entry.1 (List.mem_map_of_mem hentry) a List.mem_cons_self).symm

theorem mem_take_iff {xs : List α} {x : α} {n : Nat} :
    x ∈ xs.take n ↔ ∃ front back, xs = front ++ x :: back ∧ front.length < n := by
  constructor
  · intro hmem
    obtain ⟨front, back, htake⟩ := List.append_of_mem hmem
    refine ⟨front, back ++ xs.drop n, ?_, ?_⟩
    · rw [← List.cons_append, ← List.append_assoc, ← htake, List.take_append_drop]
    · have hlen := List.length_take_le n xs
      rw [htake, List.length_append, List.length_cons] at hlen
      omega
  · rintro ⟨front, back, rfl, hlen⟩
    obtain ⟨m, rfl⟩ := Nat.exists_eq_add_of_lt hlen
    rw [Nat.add_assoc, List.take_length_add_append, List.take_succ_cons]
    exact List.mem_append_right front List.mem_cons_self

/-- Where no key occurs twice, only one element is lost with a key. -/
theorem take_filter_take [BEq β] [LawfulBEq β] {key : α → β} {xs : List α}
    (h : (xs.map key).Nodup) (k : β) (n : Nat) :
    ((xs.take (n + 1)).filter (key · != k)).take n = (xs.filter (key · != k)).take n := by
  induction xs generalizing n with
  | nil => rfl
  | cons x xs ih =>
    obtain ⟨hx, hxs⟩ := List.nodup_cons.mp h
    by_cases hk : key x = k
    · subst hk
      have hall : ∀ y ∈ xs, key y != key x := fun y hy =>
        bne_iff_ne.mpr fun heq => hx (heq ▸ List.mem_map_of_mem hy)
      have htake : ∀ y ∈ xs.take n, key y != key x := fun y hy => hall y (List.mem_of_mem_take hy)
      rw [List.take_succ_cons, List.filter_cons_of_neg (by simp), List.filter_cons_of_neg (by simp),
        List.filter_eq_self.mpr hall, List.filter_eq_self.mpr htake, List.take_take, Nat.min_self]
    · have hkeep : (key x != k) = true := bne_iff_ne.mpr hk
      simp only [List.take_succ_cons, List.filter_cons, hkeep, if_true]
      cases n with
      | zero => rfl
      | succ n => rw [List.take_succ_cons, List.take_succ_cons, ih hxs]

/-- Where no key occurs twice, what is found is what there is. -/
theorem find?_eq_some_iff_of_nodup [BEq β] [LawfulBEq β] {key : α → β} {xs : List α}
    (h : (xs.map key).Nodup) {k : β} {x : α} :
    xs.find? (key · == k) = some x ↔ x ∈ xs ∧ key x = k := by
  constructor
  · exact fun hfind => ⟨List.mem_of_find?_eq_some hfind, by simpa using List.find?_some hfind⟩
  · rintro ⟨hmem, rfl⟩
    obtain ⟨front, back, rfl⟩ := List.append_of_mem hmem
    rw [List.map_append, List.map_cons, List.nodup_append] at h
    have hfront : front.find? (key · == key x) = none := by
      rw [List.find?_eq_none]
      intro y hy
      simpa using h.2.2 (key y) (List.mem_map_of_mem hy) (key x) List.mem_cons_self
    rw [List.find?_append, hfront]
    simp

section

variable [BEq α] [LawfulBEq α] {a : α} {keys : List α} {xs : List β}

/-- What a key has depends on nothing but the values at its places. -/
theorem lookup_zip_congr {ys : List β} (hlen : ys.length = xs.length)
    (h : ∀ i : Nat, keys[i]? = some a → ys[i]? = xs[i]?) :
    (keys.zip ys).reverse.lookup a = (keys.zip xs).reverse.lookup a := by
  induction keys generalizing xs ys with
  | nil => rfl
  | cons key keys ih =>
    cases xs with
    | nil =>
      obtain rfl := List.length_eq_zero_iff.mp hlen
      rfl
    | cons x xs =>
      obtain ⟨y, ys, rfl⟩ := List.exists_cons_of_length_eq_add_one hlen
      have hrest := ih (Nat.succ.inj hlen) fun i hi => h (i + 1) hi
      rw [List.zip_cons_cons, List.zip_cons_cons, List.reverse_cons, List.reverse_cons,
        List.lookup_append, List.lookup_append, hrest]
      cases hkey : a == key with
      | false => simp [List.lookup_cons, hkey]
      | true =>
        have hhead := h 0 (by rw [eq_of_beq hkey]; rfl)
        simp only [List.getElem?_cons_zero, Option.some.injEq] at hhead
        rw [hhead]

theorem lookup_zip_of_notMem (h : a ∉ keys) : (keys.zip xs).reverse.lookup a = none := by
  rw [List.lookup_eq_none_iff]
  rintro ⟨key, x⟩ hmem
  have hkey := (List.of_mem_zip (List.mem_reverse.mp hmem)).1
  simpa using fun heq : a = key => h (heq ▸ hkey)

/-- Where no key occurs twice, each has the value at its own place. -/
theorem lookup_zip_of_nodup (h : keys.Nodup) {i : Nat} {x : β} (hkey : keys[i]? = some a)
    (hx : xs[i]? = some x) : (keys.zip xs).reverse.lookup a = some x := by
  induction keys generalizing xs i with
  | nil => cases hkey
  | cons key keys ih =>
    cases xs with
    | nil => cases hx
    | cons y xs =>
      obtain ⟨hnotMem, hnodup⟩ := List.nodup_cons.mp h
      rw [List.zip_cons_cons, List.reverse_cons, List.lookup_append]
      cases i with
      | zero =>
        cases hkey
        cases hx
        simp [lookup_zip_of_notMem hnotMem]
      | succ i =>
        rw [ih hnodup hkey hx]
        rfl

end

end AccessControl.Sequence
