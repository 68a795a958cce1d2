import AccessControl.Builtin.Predicate
import AccessControl.Proofs.Builtin.Wildcard
import AccessControl.Proofs.Text.Stretch

namespace AccessControl.Builtin

open Text

/-- A pattern without what stands behind its first star. -/
def upToStar (pattern : List Char) : List Char :=
  pattern.takeWhile (· != '*') ++ (pattern.dropWhile (· != '*')).take 1

/-- What stands behind the first star of a pattern. -/
def behindStar (pattern : List Char) : List Char :=
  (pattern.dropWhile (· != '*')).tail

section

variable {value pattern word rest : List Char}

theorem star_or_not (pattern : List Char) : '*' ∉ pattern ∨
    ∃ word rest, '*' ∉ word ∧ pattern = word ++ '*' :: rest := by
  by_cases h : '*' ∈ pattern
  · obtain ⟨word, rest, heq, hword⟩ := List.eq_append_cons_of_mem h
    exact .inr ⟨word, rest, hword, heq⟩
  · exact .inl h

theorem forall_ne_star (hword : '*' ∉ word) : ∀ c ∈ word, (c != '*') = true := by
  intro c hc
  exact bne_iff_ne.mpr (ne_of_mem_of_not_mem hc hword)

theorem findIdx?_word (hword : '*' ∉ word) : word.findIdx? (· == '*') = none := by
  apply List.findIdx?_eq_none_iff.mpr
  intro c hc
  exact beq_false_of_ne (ne_of_mem_of_not_mem hc hword)

theorem split_at_star (hword : '*' ∉ word) (rest : List Char) :
    (word ++ '*' :: rest).takeWhile (· != '*') = word ∧
      (word ++ '*' :: rest).dropWhile (· != '*') = '*' :: rest :=
  takeWhile_append_stop (forall_ne_star hword) (stop_cons (by decide) rest)

theorem split_without_star (hword : '*' ∉ word) :
    word.takeWhile (· != '*') = word ∧ word.dropWhile (· != '*') = [] := by
  have hsplit := @takeWhile_append_stop _ _ word [] (forall_ne_star hword) (by simp)
  rwa [List.append_nil] at hsplit

theorem keyMatch_word (hword : '*' ∉ word) : keyMatch value word = true ↔ value = word := by
  simp [keyMatch, (split_without_star hword).1]

theorem keyMatch_star (hword : '*' ∉ word) :
    keyMatch value (word ++ '*' :: rest) = true ↔ word <+: value := by
  simp [keyMatch, (split_at_star hword rest).1]

/-- A text that starts with another one starts with its bytes. -/
theorem firstBytes?_append (word rest : List Char) :
    firstBytes? (word ++ rest) (byteLength word) = some word := by
  induction word with
  | nil => simp [firstBytes?, byteLength]
  | cons c word ih =>
    have hpos := c.utf8Size_pos
    obtain ⟨n, hn⟩ : ∃ n, byteLength (c :: word) = n + 1 :=
      Nat.exists_eq_succ_of_ne_zero (by rw [byteLength]; omega)
    have hle : c.utf8Size ≤ n + 1 := by
      rw [← hn, byteLength]
      omega
    have hrest : n + 1 - c.utf8Size = byteLength word := by
      rw [← hn, byteLength]
      omega
    rw [hn, List.cons_append, firstBytes?, if_pos hle, hrest, ih]
    rfl

/-- What the first bytes of a text spell is what it starts with. -/
theorem prefix_of_firstBytes? {n : Nat} (h : firstBytes? value n = some word) : word <+: value := by
  induction value generalizing n word with
  | nil =>
    cases n with
    | zero =>
      cases h
      exact List.nil_prefix
    | succ n => cases h
  | cons c value ih =>
    cases n with
    | zero =>
      cases h
      exact List.nil_prefix
    | succ n =>
      rw [firstBytes?] at h
      split at h
      · obtain ⟨front, hfront, rfl⟩ := Option.map_eq_some_iff.mp h
        exact List.cons_prefix_cons.mpr ⟨rfl, ih hfront⟩
      · cases h

theorem firstBytes?_eq_some_iff :
    firstBytes? value (byteLength word) = some word ↔ word <+: value := by
  constructor
  · exact prefix_of_firstBytes?
  · intro h
    obtain ⟨rest, rfl⟩ := h
    exact firstBytes?_append word rest

/-- It makes no difference whether the place of the star is one of characters or of bytes. -/
theorem keyMatchByBytes_eq (value pattern : List Char) :
    keyMatchByBytes value pattern = keyMatch value pattern := by
  rw [Bool.eq_iff_iff]
  obtain hword | ⟨word, rest, hword, rfl⟩ := star_or_not pattern
  · rw [keyMatch_word hword, keyMatchByBytes, findIdx?_word hword, beq_iff_eq]
  · have hsome : (word ++ '*' :: rest).findIdx? (· == '*') = some word.length := by
      simp [List.findIdx?_append, List.findIdx?_cons, findIdx?_word hword]
    rw [keyMatch_star hword, keyMatchByBytes, hsome]
    simp only [List.take_left, firstBytes?_append, beq_iff_eq]
    exact firstBytes?_eq_some_iff

theorem fits_empty_iff : Fits pattern [] ↔ ∀ c ∈ pattern, c = '*' := by
  induction pattern with
  | nil => simp [fits_nil_iff]
  | cons c pattern ih =>
    by_cases hc : c = '*'
    · subst hc
      rw [fits_star_iff, List.forall_mem_cons, ← ih]
      constructor
      · intro h
        obtain ⟨run, rest, heq, h⟩ := h
        obtain ⟨-, rfl⟩ := List.append_eq_nil_iff.mp heq.symm
        exact ⟨rfl, h⟩
      · intro h
        exact ⟨[], [], rfl, h.2⟩
    · simp [fits_cons_iff hc, hc]

theorem fits_upToStar_iff (hword : '*' ∉ word) :
    Fits (upToStar (word ++ '*' :: rest)) value ↔ word <+: value := by
  have hup : upToStar (word ++ '*' :: rest) = word ++ ['*'] := by
    rw [upToStar, (split_at_star hword rest).1, (split_at_star hword rest).2]
    rfl
  rw [hup, fits_word_append_iff hword]
  simp only [fits_star_iff, fits_nil_iff]
  constructor
  · intro h
    obtain ⟨run, rfl, -⟩ := h
    exact List.prefix_append word run
  · intro h
    obtain ⟨run, rfl⟩ := h
    exact ⟨run, rfl, run, [], by simp, rfl⟩

theorem keyMatch_iff_fits : keyMatch value pattern = true ↔ Fits (upToStar pattern) value := by
  obtain hword | ⟨word, rest, hword, rfl⟩ := star_or_not pattern
  · have hup : upToStar pattern = pattern := by
      rw [upToStar, (split_without_star hword).1, (split_without_star hword).2]
      simp
    rw [keyMatch_word hword, hup, fits_word_iff hword]
  · rw [keyMatch_star hword, fits_upToStar_iff hword]

/-- A key that fits the whole pattern is accepted. -/
theorem keyMatch_of_fits (h : Fits pattern value) : keyMatch value pattern = true := by
  obtain hword | ⟨word, rest, hword, rfl⟩ := star_or_not pattern
  · rw [keyMatch_word hword]
    exact (fits_word_iff hword).mp h
  · rw [keyMatch_star hword]
    obtain ⟨tail, rfl, -⟩ := (fits_word_append_iff hword).mp h
    exact List.prefix_append word tail

/-- The word before the first star is accepted, and fits only if nothing but stars stands behind. -/
theorem keyMatch_complete_iff (pattern : List Char) :
    (∀ value, keyMatch value pattern = true → Fits pattern value) ↔
      ∀ c ∈ behindStar pattern, c = '*' := by
  obtain hword | ⟨word, rest, hword, rfl⟩ := star_or_not pattern
  · have hbehind : behindStar pattern = [] := by
      rw [behindStar, (split_without_star hword).2]
      rfl
    simp [hbehind, keyMatch_word hword, fits_word_iff hword]
  · have hbehind : behindStar (word ++ '*' :: rest) = rest := by
      rw [behindStar, (split_at_star hword rest).2]
      rfl
    rw [hbehind, ← fits_empty_iff]
    simp only [keyMatch_star hword, fits_word_append_iff hword]
    constructor
    · intro h
      obtain ⟨tail, htail, hfits⟩ := h word (List.prefix_refl word)
      have hnil : tail = [] := by simpa using htail
      rw [hnil, fits_empty_iff] at hfits
      rw [fits_empty_iff]
      exact (List.forall_mem_cons.mp hfits).2
    · intro h value hprefix
      obtain ⟨run, rfl⟩ := hprefix
      have hrun := Fits.star run h
      rw [List.append_nil] at hrun
      exact ⟨run, rfl, hrun⟩

end

/-- A key match, which looks at the bytes before the first star of the pattern, holds of the keys
that are written as the pattern is up to there, with any run of characters in the place of the star
and all behind it. These are all keys that fit the whole pattern. They are no others only for a
pattern with nothing but stars behind the first. -/
theorem keyMatch_exact (value pattern : String) :
    Predicate.keyMatch.apply [.string value, .string pattern] =
      .ok (.bool (keyMatchByBytes value.toList pattern.toList)) ∧
    (keyMatchByBytes value.toList pattern.toList = true ↔
      Fits (upToStar pattern.toList) value.toList) ∧
    (Fits pattern.toList value.toList → keyMatchByBytes value.toList pattern.toList = true) ∧
    ((∀ key, keyMatchByBytes key pattern.toList = true ↔ Fits pattern.toList key) ↔
      ∀ c ∈ behindStar pattern.toList, c = '*') := by
  simp only [keyMatchByBytes_eq]
  refine ⟨rfl, keyMatch_iff_fits, keyMatch_of_fits, ?_⟩
  rw [← keyMatch_complete_iff]
  constructor
  · intro h key hkey
    exact (h key).mp hkey
  · intro h key
    exact ⟨h key, keyMatch_of_fits⟩

/-- What stands behind a star need not occur in the key. -/
theorem keyMatch_overlooks_suffix :
    Predicate.keyMatch.apply [.string "/foo/x", .string "/foo/*/bar"] = .ok (.bool true) ∧
      ¬Fits "/foo/*/bar".toList "/foo/x".toList := by
  refine ⟨by cbv, ?_⟩
  rw [← Glob.nameFits_iff]
  decide

end AccessControl.Builtin
