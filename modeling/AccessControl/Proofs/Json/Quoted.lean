import AccessControl.Json.Printer
import AccessControl.Json.Token
import Mathlib.Data.List.Forall2

namespace AccessControl.Json

theorem hexDigit?_hexDigit {n : Nat} (h : n < 16) : hexDigit? (hexDigit n) = some n := by
  have hall : ∀ n < 16, hexDigit? (hexDigit n) = some n := by decide
  exact hall n h

theorem hexQuad?_escape {n : Nat} (h : n < 0x20) :
    hexQuad? '0' '0' (hexDigit (n / 16)) (hexDigit (n % 16)) = some n := by
  have hzero : hexDigit? '0' = some 0 := by decide
  have hhigh := @hexDigit?_hexDigit (n / 16) (by omega)
  have hlow := @hexDigit?_hexDigit (n % 16) (by omega)
  simp only [hexQuad?, hzero, hhigh, hlow, Option.bind_eq_bind, Option.bind_some, Option.pure_def,
    Option.some.injEq]
  omega

/-- A character is escaped by a letter or by its number, or stands as it is. -/
theorem escapeChar_cases (c : Char) :
    (∃ e, e ≠ 'u' ∧ simpleEscape? e = some c ∧ escapeChar c = ['\\', e]) ∨
    (c.toNat < 0x20 ∧
      escapeChar c = ['\\', 'u', '0', '0', hexDigit (c.toNat / 16), hexDigit (c.toNat % 16)]) ∨
    (c ≠ '"' ∧ c ≠ '\\' ∧ ¬c.toNat < 0x20 ∧ escapeChar c = [c]) := by
  unfold escapeChar
  split
  · exact .inl ⟨'"', by decide, rfl, rfl⟩
  · exact .inl ⟨'\\', by decide, rfl, rfl⟩
  · exact .inl ⟨'b', by decide, rfl, rfl⟩
  · exact .inl ⟨'f', by decide, rfl, rfl⟩
  · exact .inl ⟨'n', by decide, rfl, rfl⟩
  · exact .inl ⟨'r', by decide, rfl, rfl⟩
  · exact .inl ⟨'t', by decide, rfl, rfl⟩
  · next hquote hbackslash _ _ _ _ _ =>
    split
    · next h => exact .inr (.inl ⟨h, rfl⟩)
    · next h => exact .inr (.inr ⟨hquote, hbackslash, h, rfl⟩)

/-- The ways to write a character: as it is, and a control character by its number. -/
inductive StandsFor : Piece → Char → Prop
  | char (c : Char) : StandsFor (.char c) c
  | unit {c : Char} (h : c.toNat < 0x20) : StandsFor (.unit c.toNat) c

/-- One piece more, which takes up `n` characters. -/
def prepend (p : Piece) (n : Nat) (r : List Piece × Nat) : List Piece × Nat :=
  (p :: r.1, r.2 + n)

theorem pieces?_plain {c : Char} (hquote : c ≠ '"') (hbackslash : c ≠ '\\')
    (h : ¬c.toNat < 0x20) (cs : List Char) :
    pieces? (c :: cs) = (pieces? cs).map (prepend (.char c) 1) := by
  rw [pieces?.eq_def]
  split
  · next heq => cases heq
  · next heq => exact absurd (List.cons.inj heq).1 hquote
  · next heq => exact absurd (List.cons.inj heq).1 hbackslash
  · next heq => exact absurd (List.cons.inj heq).1 hbackslash
  · next heq =>
    obtain ⟨rfl, rfl⟩ := List.cons.inj heq
    rw [if_neg h]
    cases pieces? cs <;> rfl

theorem pieces?_letter {e c : Char} (hu : e ≠ 'u') (h : simpleEscape? e = some c)
    (cs : List Char) :
    pieces? ('\\' :: e :: cs) = (pieces? cs).map (prepend (.char c) 2) := by
  cases hcs : pieces? cs <;> simp [pieces?, hu, h, hcs, prepend]

theorem pieces?_number {n : Nat} (h : n < 0x20) (cs : List Char) :
    pieces? ('\\' :: 'u' :: '0' :: '0' :: hexDigit (n / 16) :: hexDigit (n % 16) :: cs) =
      (pieces? cs).map (prepend (.unit n) 6) := by
  cases hcs : pieces? cs <;> simp [pieces?, hexQuad?_escape h, hcs, prepend]

theorem pieces?_escapeChar (c : Char) : ∃ p, StandsFor p c ∧ ∀ cs,
    pieces? (escapeChar c ++ cs) = (pieces? cs).map (prepend p (escapeChar c).length) := by
  obtain ⟨e, hu, he, hescape⟩ | ⟨h, hescape⟩ | ⟨hquote, hbackslash, h, hescape⟩ :=
    escapeChar_cases c
  · exact ⟨.char c, .char c, fun cs => by simpa [hescape] using pieces?_letter hu he cs⟩
  · exact ⟨.unit c.toNat, .unit h, fun cs => by simpa [hescape] using pieces?_number h cs⟩
  · exact ⟨.char c, .char c, fun cs => by
      simpa [hescape] using pieces?_plain hquote hbackslash h cs⟩

/-- Up to the closing quote, the pieces are those of the characters in order. -/
theorem pieces?_flatMap (s rest : List Char) : ∃ ps, List.Forall₂ StandsFor ps s ∧
    pieces? (s.flatMap escapeChar ++ '"' :: rest) =
      some (ps, (s.flatMap escapeChar ++ ['"']).length) := by
  induction s with
  | nil => exact ⟨[], .nil, rfl⟩
  | cons c s ih =>
    obtain ⟨p, hp, hread⟩ := pieces?_escapeChar c
    obtain ⟨ps, hps, hrest⟩ := ih
    refine ⟨p :: ps, .cons hp hps, ?_⟩
    rw [List.flatMap_cons, List.append_assoc, hread, hrest]
    simp only [Option.map_some, prepend, List.length_append]
    congr 2
    omega

/-- The number of a control character is no half of a pair, whatever follows. -/
theorem characters?_control {n : Nat} (h : n < 0x20) (ps : List Piece) :
    characters? (.unit n :: ps) = (characters? ps).map (Char.ofNat n :: ·) := by
  have hhigh : isHighSurrogate n = false := by
    simp only [isHighSurrogate, Bool.and_eq_false_iff, decide_eq_false_iff_not]
    omega
  have hlow : isLowSurrogate n = false := by
    simp only [isLowSurrogate, Bool.and_eq_false_iff, decide_eq_false_iff_not]
    omega
  cases ps with
  | nil => simp [characters?, hhigh, hlow]
  | cons p ps => cases p <;> simp [characters?, hhigh, hlow]

theorem characters?_of_standsFor {ps : List Piece} {s : List Char}
    (h : List.Forall₂ StandsFor ps s) : characters? ps = some s := by
  induction h with
  | nil => rfl
  | cons hp _ ih =>
    cases hp with
    | char => rw [characters?, ih, Option.map_some]
    | unit h => rw [characters?_control h, ih, Option.map_some, Char.ofNat_toNat]

/-- What is behind the opening quote reads as the string, up to the closing one. -/
theorem pieces?_quote (s : String) (rest : List Char) : ∃ ps,
    pieces? (s.toList.flatMap escapeChar ++ '"' :: rest) =
      some (ps, (s.toList.flatMap escapeChar ++ ['"']).length) ∧
    (characters? ps).map String.ofList = some s := by
  obtain ⟨ps, hps, hread⟩ := pieces?_flatMap s.toList rest
  refine ⟨ps, hread, ?_⟩
  rw [characters?_of_standsFor hps, Option.map_some, String.ofList_toList]

end AccessControl.Json
