import AccessControl.Proofs.Text.Stretch
import AccessControl.Text.Blank
import Mathlib.Data.List.TakeWhile

namespace AccessControl.Text

variable {cs gap : List Char}

theorem isBlank_of_mem_space : ∀ c ∈ [' '], isBlank c :=
  List.forall_mem_singleton.mpr (by decide)

theorem trimLeft_blank_append (hgap : ∀ c ∈ gap, isBlank c) (cs : List Char) :
    trimLeft (gap ++ cs) = trimLeft cs :=
  List.dropWhile_append_of_pos hgap

theorem trimLeft_eq_self (h : ∀ c ∈ cs.head?, isBlank c = false) : trimLeft cs = cs := by
  cases cs with
  | nil => rfl
  | cons c cs =>
    have hc := h c rfl
    simp [trimLeft, hc]

theorem trimRight_append_blank (hgap : ∀ c ∈ gap, isBlank c) (cs : List Char) :
    trimRight (cs ++ gap) = trimRight cs := by
  have hreverse : ∀ c ∈ gap.reverse, isBlank c := fun c hc => hgap c (List.mem_reverse.mp hc)
  rw [trimRight, List.reverse_append, List.dropWhile_append_of_pos hreverse]
  rfl

theorem trimRight_eq_nil (hgap : ∀ c ∈ gap, isBlank c) : trimRight gap = [] :=
  trimRight_append_blank hgap []

/-- What stands before a character that is not blank stays. -/
theorem trimRight_append_cons {c : Char} (hc : isBlank c = false) (xs ys : List Char) :
    trimRight (xs ++ c :: ys) = xs ++ c :: trimRight ys := by
  have hstop : ((xs ++ c :: ys).reverse).dropWhile isBlank =
      (ys.reverse.dropWhile isBlank) ++ c :: xs.reverse := by
    rw [List.reverse_append, List.reverse_cons, List.append_assoc, List.dropWhile_append]
    split
    · next hempty => simp [List.isEmpty_iff.mp hempty, hc]
    · rfl
  rw [trimRight, hstop]
  simp [trimRight]

theorem exists_trimRight_append (cs : List Char) :
    ∃ gap, cs = trimRight cs ++ gap ∧ ∀ c ∈ gap, isBlank c := by
  refine ⟨(cs.reverse.takeWhile isBlank).reverse, ?_, fun c hc => ?_⟩
  · rw [trimRight, ← List.reverse_append, List.takeWhile_append_dropWhile, List.reverse_reverse]
  · exact List.mem_takeWhile_imp (List.mem_reverse.mp hc)

theorem trimRight_getLast (cs : List Char) : ∀ c ∈ (trimRight cs).getLast?, isBlank c = false := by
  intro c hc
  rw [trimRight, List.getLast?_reverse] at hc
  have hhead := List.head?_dropWhile_not isBlank cs.reverse
  rw [hc] at hhead
  simpa using hhead

theorem trimRight_eq_self (h : ∀ c ∈ cs.getLast?, isBlank c = false) : trimRight cs = cs := by
  rw [← List.head?_reverse] at h
  have hreverse := congrArg List.reverse (trimLeft_eq_self h)
  rwa [List.reverse_reverse] at hreverse

theorem trim_blank_append (hgap : ∀ c ∈ gap, isBlank c) (cs : List Char) :
    trim (gap ++ cs) = trim cs :=
  congrArg trimRight (trimLeft_blank_append hgap cs)

theorem trim_append_blank (hgap : ∀ c ∈ gap, isBlank c) (cs : List Char) :
    trim (cs ++ gap) = trim cs := by
  obtain ⟨front, rest, rfl, hfront, hrest⟩ := exists_append_stop isBlank cs
  rw [List.append_assoc, trim_blank_append hfront, trim_blank_append hfront]
  cases rest with
  | nil =>
    have hnone := trim_blank_append hgap []
    rwa [List.append_nil] at hnone
  | cons c rest =>
    have hlong : trimLeft (c :: rest ++ gap) = c :: rest ++ gap := trimLeft_eq_self hrest
    rw [trim, trim, trimLeft_eq_self hrest, hlong]
    exact trimRight_append_blank hgap (c :: rest)

theorem trim_trimRight (cs : List Char) : trim (trimRight cs) = trim cs := by
  obtain ⟨gap, hcs, hgap⟩ := exists_trimRight_append cs
  have htrim := trim_append_blank hgap (trimRight cs)
  rw [← hcs] at htrim
  exact htrim.symm

/-- A text that neither starts nor ends in a blank stays as it is. -/
theorem trim_eq_self (hhead : ∀ c ∈ cs.head?, isBlank c = false)
    (hlast : ∀ c ∈ cs.getLast?, isBlank c = false) : trim cs = cs := by
  rw [trim, trimLeft_eq_self hhead, trimRight_eq_self hlast]

theorem exists_trim_append (cs : List Char) : ∃ front back, cs = front ++ (trim cs ++ back) ∧
    (∀ c ∈ front, isBlank c) ∧ ∀ c ∈ back, isBlank c := by
  obtain ⟨back, hback, hblank⟩ := exists_trimRight_append (trimLeft cs)
  refine ⟨cs.takeWhile isBlank, back, ?_, fun c hc => List.mem_takeWhile_imp hc, hblank⟩
  rw [trim, ← hback]
  exact (List.takeWhile_append_dropWhile).symm

theorem trim_head (cs : List Char) : ∀ c ∈ (trim cs).head?, isBlank c = false := by
  intro c hc
  obtain ⟨gap, hgap, -⟩ := exists_trimRight_append (trimLeft cs)
  have hleft : c ∈ (trimLeft cs).head? := by
    obtain ⟨rest, hrest⟩ := List.head?_eq_some_iff.mp hc
    rw [hgap, ← trim, hrest]
    rfl
  have hhead := List.head?_dropWhile_not isBlank cs
  rw [← trimLeft, hleft] at hhead
  simpa using hhead

theorem mem_of_mem_trim {cs : List Char} {c : Char} (h : c ∈ trim cs) : c ∈ cs := by
  obtain ⟨front, back, hsplit, -, -⟩ := exists_trim_append cs
  rw [hsplit]
  simp [h]

end AccessControl.Text
