import AccessControl.Text.Blank
import AccessControl.Text.Symbol

namespace AccessControl.Text

theorem isDigit_iff {c : Char} : c.isDigit ↔ 48 ≤ c.toNat ∧ c.toNat ≤ 57 := by
  simp [Char.isDigit, UInt32.le_iff_toNat_le]

theorem isUpper_iff {c : Char} : c.isUpper ↔ 65 ≤ c.toNat ∧ c.toNat ≤ 90 :=
  decide_eq_true_iff

theorem isLower_iff {c : Char} : c.isLower ↔ 97 ≤ c.toNat ∧ c.toNat ≤ 122 :=
  Bool.and_eq_true_iff.trans (and_congr decide_eq_true_iff decide_eq_true_iff)

theorem isAlpha_iff {c : Char} :
    c.isAlpha ↔ 65 ≤ c.toNat ∧ c.toNat ≤ 90 ∨ 97 ≤ c.toNat ∧ c.toNat ≤ 122 :=
  Bool.or_eq_true_iff.trans (or_congr isUpper_iff isLower_iff)

theorem eq_iff_toNat {c d : Char} : c = d ↔ c.toNat = d.toNat := by
  rw [Char.ext_iff, ← UInt32.toNat_inj]
  rfl

theorem isSymbolStart_iff {c : Char} : isSymbolStart c ↔
    65 ≤ c.toNat ∧ c.toNat ≤ 90 ∨ 97 ≤ c.toNat ∧ c.toNat ≤ 122 ∨ c.toNat = 95 := by
  rw [isSymbolStart, Bool.or_eq_true, beq_iff_eq, isAlpha_iff, eq_iff_toNat, or_assoc]
  rfl

theorem isSymbolPart_iff {c : Char} : isSymbolPart c ↔ isSymbolStart c ∨ c.isDigit := by
  simp only [isSymbolPart, isSymbolStart, Char.isAlphanum, Bool.or_eq_true]
  exact or_right_comm

theorem isSymbolPart_of_isSymbol {word : List Char} (h : isSymbol word) :
    ∀ c ∈ word, isSymbolPart c := by
  cases word with
  | nil => cases h
  | cons c part =>
    obtain ⟨hc, hpart⟩ : isSymbolStart c ∧ ∀ d ∈ part, isSymbolPart d := by
      simpa [isSymbol] using h
    exact List.forall_mem_cons.mpr ⟨isSymbolPart_of_isSymbolStart hc, hpart⟩

theorem isBlank_eq_false {c : Char} (h : 33 ≤ c.toNat) (h' : c.toNat < 127) :
    isBlank c = false := by
  have hall : ∀ n < 127, 33 ≤ n → whiteSpace.contains n = false := by decide
  exact hall _ h' h

theorem isBlank_eq_false_of_isSymbolPart {c : Char} (h : isSymbolPart c) : isBlank c = false := by
  rw [isSymbolPart_iff, isSymbolStart_iff, isDigit_iff] at h
  apply isBlank_eq_false <;> omega

theorem isSymbolPart_eq_false_of_isBlank {c : Char} (h : isBlank c) : isSymbolPart c = false := by
  refine Bool.eq_false_iff.mpr fun hpart => ?_
  rw [isBlank_eq_false_of_isSymbolPart hpart] at h
  cases h

theorem isDigit_eq_false_of_isSymbolStart {c : Char} (h : isSymbolStart c) : c.isDigit = false := by
  rw [isSymbolStart_iff] at h
  have hnot : ¬c.isDigit := by
    rw [isDigit_iff]
    omega
  simpa using hnot

theorem toLower_of_isDigit {c : Char} (hc : c.isDigit) : c.toLower = c := by
  have hdigit : c.toNat ≤ 57 := (isDigit_iff.mp hc).2
  have hnot : ¬(c.val ≥ 'A'.val ∧ c.val ≤ 'Z'.val) := by
    rintro ⟨hle, -⟩
    have hupper : 65 ≤ c.toNat := UInt32.le_iff_toNat_le.mp hle
    omega
  exact dif_neg hnot

end AccessControl.Text
