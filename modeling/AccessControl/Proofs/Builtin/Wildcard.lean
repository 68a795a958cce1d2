import AccessControl.Builtin.Glob
import AccessControl.Proofs.Sequence

namespace AccessControl.Builtin

/-- A text that is written as a pattern is, but for some run of characters in the place of each
star. -/
inductive Fits : List Char → List Char → Prop
  | nil : Fits [] []
  | star (run : List Char) {pattern text} (h : Fits pattern text) :
    Fits ('*' :: pattern) (run ++ text)
  | char {c pattern text} (hc : c ≠ '*') (h : Fits pattern text) : Fits (c :: pattern) (c :: text)

section

variable {pattern text word : List Char}

theorem fits_star_iff :
    Fits ('*' :: pattern) text ↔ ∃ run rest, text = run ++ rest ∧ Fits pattern rest := by
  constructor
  · intro h
    cases h with
    | star run h => exact ⟨run, _, rfl, h⟩
    | char hc _ => exact absurd rfl hc
  · rintro ⟨run, rest, rfl, h⟩
    exact .star run h

theorem fits_cons_iff {c : Char} (hc : c ≠ '*') :
    Fits (c :: pattern) text ↔ ∃ rest, text = c :: rest ∧ Fits pattern rest := by
  constructor
  · intro h
    cases h with
    | star => exact absurd rfl hc
    | char _ h => exact ⟨_, rfl, h⟩
  · rintro ⟨rest, rfl, h⟩
    exact .char hc h

theorem fits_nil_iff : Fits [] text ↔ text = [] := by
  constructor
  · intro h
    cases h
    rfl
  · rintro rfl
    exact .nil

theorem fits_append_iff {pattern' : List Char} : Fits (pattern ++ pattern') text ↔
    ∃ front rest, text = front ++ rest ∧ Fits pattern front ∧ Fits pattern' rest := by
  induction pattern generalizing text with
  | nil =>
    simp only [List.nil_append, fits_nil_iff]
    constructor
    · intro h
      exact ⟨[], text, rfl, rfl, h⟩
    · rintro ⟨_, _, rfl, rfl, h⟩
      exact h
  | cons c pattern ih =>
    rw [List.cons_append]
    by_cases hc : c = '*'
    · subst hc
      simp only [fits_star_iff, ih]
      constructor
      · rintro ⟨run, _, rfl, front, rest, rfl, h, h'⟩
        exact ⟨run ++ front, rest, (List.append_assoc ..).symm, ⟨run, front, rfl, h⟩, h'⟩
      · rintro ⟨_, rest, rfl, ⟨run, front, rfl, h⟩, h'⟩
        exact ⟨run, front ++ rest, List.append_assoc .., front, rest, rfl, h, h'⟩
    · simp only [fits_cons_iff hc, ih]
      constructor
      · rintro ⟨_, rfl, front, rest, rfl, h, h'⟩
        exact ⟨c :: front, rest, rfl, ⟨front, rfl, h⟩, h'⟩
      · rintro ⟨_, rest, rfl, ⟨front, rfl, h⟩, h'⟩
        exact ⟨front ++ rest, rfl, front, rest, rfl, h, h'⟩

/-- Without stars there is nothing to replace. -/
theorem fits_word_iff (hword : '*' ∉ word) : Fits word text ↔ text = word := by
  induction word generalizing text with
  | nil => exact fits_nil_iff
  | cons c word ih =>
    have hc : c ≠ '*' := Ne.symm (List.ne_of_not_mem_cons hword)
    simp [fits_cons_iff hc, ih (List.not_mem_of_not_mem_cons hword)]

theorem fits_word_append_iff (hword : '*' ∉ word) :
    Fits (word ++ pattern) text ↔ ∃ rest, text = word ++ rest ∧ Fits pattern rest := by
  simp only [fits_append_iff, fits_word_iff hword]
  constructor
  · rintro ⟨_, rest, rfl, rfl, h⟩
    exact ⟨rest, rfl, h⟩
  · rintro ⟨rest, rfl, h⟩
    exact ⟨word, rest, rfl, rfl, h⟩

theorem fits_star_star_iff : Fits ('*' :: '*' :: pattern) text ↔ Fits ('*' :: pattern) text := by
  simp only [fits_star_iff]
  constructor
  · rintro ⟨run, _, rfl, run', rest, rfl, h⟩
    exact ⟨run ++ run', rest, (List.append_assoc ..).symm, h⟩
  · rintro ⟨run, rest, rfl, h⟩
    exact ⟨run, rest, rfl, [], rest, rfl, h⟩

end

namespace Glob

section

variable {word cs rest : List Char}

theorem exists_of_afterFirst? (h : afterFirst? word cs = some rest) :
    ∃ front, cs = front ++ (word ++ rest) := by
  induction cs with
  | nil =>
    cases word with
    | nil =>
      cases h
      exact ⟨[], rfl⟩
    | cons c word => cases h
  | cons c cs ih =>
    rw [afterFirst?] at h
    split at h
    · next hprefix =>
      obtain ⟨tail, htail⟩ := List.isPrefixOf_iff_prefix.mp hprefix
      cases h
      exact ⟨[], by rw [← htail, List.drop_left, List.nil_append]⟩
    · obtain ⟨front, rfl⟩ := ih h
      exact ⟨c :: front, rfl⟩

/-- What follows any occurrence is a part of what follows the first. -/
theorem exists_afterFirst? (front word rest : List Char) :
    ∃ skipped, afterFirst? word (front ++ (word ++ rest)) = some (skipped ++ rest) := by
  induction front with
  | nil =>
    refine ⟨[], ?_⟩
    rw [List.nil_append, List.nil_append]
    cases h : word ++ rest with
    | nil =>
      obtain ⟨rfl, rfl⟩ := List.append_eq_nil_iff.mp h
      rfl
    | cons c cs =>
      have hprefix : word.isPrefixOf (c :: cs) = true :=
        List.isPrefixOf_iff_prefix.mpr ⟨rest, h⟩
      rw [afterFirst?, if_pos hprefix, ← h, List.drop_left]
  | cons c front ih =>
    rw [List.cons_append, afterFirst?]
    split
    · -- The word occurs earlier, so what is dropped for it lies before `rest`.
      refine ⟨(c :: front ++ word).drop word.length, ?_⟩
      have hlen : word.length ≤ (c :: front ++ word).length := by
        rw [List.length_append]
        exact Nat.le_add_left _ _
      rw [← List.drop_append_of_le_length hlen, List.append_assoc, List.cons_append]
    · exact ih

end

/-- The words stand one after another, any runs of characters before each and nothing behind the
last. -/
def Ordered : List (List Char) → List Char → Prop
  | [], cs => cs = []
  | word :: words, cs => ∃ run rest, cs = run ++ (word ++ rest) ∧ Ordered words rest

section

variable {word cs : List Char} {words : List (List Char)}

theorem ordered_append (h : Ordered (word :: words) cs) (run : List Char) :
    Ordered (word :: words) (run ++ cs) := by
  obtain ⟨run', rest, rfl, h⟩ := h
  exact ⟨run ++ run', rest, (List.append_assoc ..).symm, h⟩

/-- No way of placing the words is lost when the next of them is taken where it occurs first. -/
theorem ordered_cons_iff (hwords : words ≠ []) : Ordered (word :: words) cs ↔
    ∃ rest, afterFirst? word cs = some rest ∧ Ordered words rest := by
  constructor
  · rintro ⟨run, rest, rfl, h⟩
    obtain ⟨skipped, hfirst⟩ := exists_afterFirst? run word rest
    obtain ⟨next, words, rfl⟩ := List.exists_cons_of_ne_nil hwords
    exact ⟨skipped ++ rest, hfirst, ordered_append h skipped⟩
  · rintro ⟨rest, hfirst, h⟩
    obtain ⟨run, rfl⟩ := exists_of_afterFirst? hfirst
    exact ⟨run, rest, rfl, h⟩

theorem inOrder_iff (words : List (List Char)) (cs : List Char) :
    inOrder words cs = true ↔ Ordered words cs := by
  induction words generalizing cs with
  | nil => simp [inOrder, Ordered]
  | cons word words ih =>
    cases words with
    | nil =>
      rw [inOrder, List.isSuffixOf_iff_suffix]
      constructor
      · rintro ⟨run, rfl⟩
        exact ⟨run, [], by simp, rfl⟩
      · rintro ⟨run, rest, rfl, rfl⟩
        exact ⟨run, by simp⟩
    | cons next words =>
      have hne := List.cons_ne_nil next words
      rw [inOrder.eq_3 _ _ _ hne, ordered_cons_iff hne]
      cases afterFirst? word cs with
      | none => simp
      | some rest => simp [ih]

/-- The stars of a pattern lie between its words. -/
theorem fits_intercalate_iff (hstar : ∀ w ∈ word :: words, '*' ∉ w) :
    Fits (['*'].intercalate (word :: words)) cs ↔
      ∃ rest, cs = word ++ rest ∧ Ordered words rest := by
  have hword := hstar word List.mem_cons_self
  induction words generalizing word cs with
  | nil => simp [fits_word_iff hword, Ordered]
  | cons next words ih =>
    have hrest : ∀ w ∈ next :: words, '*' ∉ w := fun w hw => hstar w (List.mem_cons_of_mem word hw)
    have hnext {tail : List Char} := @ih next tail hrest (hrest next List.mem_cons_self)
    rw [List.intercalate_cons_cons, List.append_assoc, List.singleton_append,
      fits_word_append_iff hword]
    simp only [fits_star_iff, hnext, Ordered]
    constructor
    · rintro ⟨rest, rfl, run, _, rfl, rest', rfl, h⟩
      exact ⟨_, rfl, run, rest', rfl, h⟩
    · rintro ⟨_, rfl, run, rest', rfl, h⟩
      exact ⟨_, rfl, run, _, rfl, rest', rfl, h⟩

end

theorem nameFits_iff {pattern name : List Char} :
    nameFits pattern name = true ↔ Fits pattern name := by
  have hstar : ∀ w ∈ pattern.splitOn '*', '*' ∉ w := fun w hw => Sequence.notMem_of_mem_splitOn hw
  obtain ⟨first, words, hsplit⟩ := List.exists_cons_of_ne_nil (List.splitOn_ne_nil '*' pattern)
  rw [hsplit] at hstar
  have hfits := @fits_intercalate_iff first name words hstar
  rw [← hsplit, List.intercalate_splitOn] at hfits
  rw [hfits, nameFits, hsplit]
  cases words with
  | nil =>
    rw [beq_iff_eq]
    constructor
    · rintro rfl
      exact ⟨[], by simp, rfl⟩
    · rintro ⟨rest, rfl, rfl⟩
      simp
  | cons word words =>
    simp only [Bool.and_eq_true, inOrder_iff, List.isPrefixOf_iff_prefix]
    constructor
    · rintro ⟨⟨rest, rfl⟩, h⟩
      rw [List.drop_left] at h
      exact ⟨rest, rfl, h⟩
    · rintro ⟨rest, rfl, h⟩
      rw [List.drop_left]
      exact ⟨⟨rest, rfl⟩, h⟩

/-- A name fits a pattern if runs of characters in the place of the stars, each chosen by itself,
make it of the pattern. To take a word where it occurs first leaves room for all words that could
follow it elsewhere; what the pattern has before its first star and behind its last one do not
overlap in the name; and a star next to another one makes no difference. -/
theorem nameFits_exact (pattern name : List Char) :
    (nameFits pattern name = true ↔ Fits pattern name) ∧
    (∀ word words front rest, name = front ++ (word ++ rest) → words ≠ [] →
      inOrder words rest = true →
      ∃ rest', afterFirst? word name = some rest' ∧ inOrder words rest' = true) ∧
    (∀ front middle back, '*' ∉ front → '*' ∉ back → pattern = front ++ '*' :: (middle ++ back) →
      nameFits pattern name = true → ∃ run, name = front ++ (run ++ back)) ∧
    ∀ front back, pattern = front ++ '*' :: '*' :: back →
      nameFits pattern name = nameFits (front ++ '*' :: back) name := by
  refine ⟨nameFits_iff, fun word words front rest hname hwords hrest => ?_,
    fun front middle back hfront hback hpattern hfits => ?_, fun front back hpattern => ?_⟩
  · have hordered : Ordered (word :: words) name :=
      ⟨front, rest, hname, (inOrder_iff words rest).mp hrest⟩
    obtain ⟨rest', hfirst, h⟩ := (ordered_cons_iff hwords).mp hordered
    exact ⟨rest', hfirst, (inOrder_iff words rest').mpr h⟩
  · rw [nameFits_iff, hpattern, fits_word_append_iff hfront] at hfits
    obtain ⟨tail, rfl, htail⟩ := hfits
    obtain ⟨run, rest, rfl, hrest⟩ := fits_star_iff.mp htail
    obtain ⟨run', last, rfl, -, hlast⟩ := fits_append_iff.mp hrest
    rw [(fits_word_iff hback).mp hlast]
    exact ⟨run ++ run', by rw [List.append_assoc]⟩
  · rw [Bool.eq_iff_iff, nameFits_iff, nameFits_iff, hpattern]
    simp only [fits_append_iff, fits_star_star_iff]

/-- The two words of a pattern need room for each of them. -/
example : nameFits "a*a".toList "a".toList = false ∧
    nameFits "a**b*bc".toList "abbc".toList = true := by decide

end Glob

end AccessControl.Builtin
