import AccessControl.Decimal.Reader
import Mathlib

-- Batteries proves the facts on bit patterns used here; only the whole of Mathlib imports them.

namespace AccessControl.Decimal

open Float.Model UnpackedFloat

/-- Zero, a positive number or infinity, by its bit pattern. -/
def IsMagnitude (x : Float) : Prop :=
  x.toBits.toNat ≤ infinityBits

instance (x : Float) : Decidable (IsMagnitude x) :=
  inferInstanceAs (Decidable (x.toBits.toNat ≤ infinityBits))

/-- In the pattern of a NaN all bits of the exponent are set, and some of the fraction. -/
theorem isNaNBits_eq_false {b : BitVec Format.binary64.numBits} (h : b.toNat ≤ infinityBits) :
    isNaNBits b = false := by
  rw [isNaNBits, unpackExponent_def, unpackMantissa_def, decide_eq_false_iff_not]
  rintro ⟨hexponent, hfraction⟩
  have hexponent := congrArg BitVec.toNat hexponent
  have hfraction := mt BitVec.eq_of_toNat_eq hfraction
  simp [BitVec.extractLsb'_toNat, Nat.shiftRight_eq_div_pow, Format.binary64]
    at hexponent hfraction
  rw [infinityBits] at h
  omega

theorem toBits_ofBits {b : UInt64} (h : b.toNat ≤ infinityBits) : (Float.ofBits b).toBits = b := by
  have hpack := @pack_unpack Format.binary64 b.toBitVec (by decide)
  rw [isNaNBits_eq_false h] at hpack
  exact UInt64.toBitVec_inj.mp hpack

theorem isMagnitude_ofBits {n : Nat} (h : n ≤ infinityBits) :
    IsMagnitude (Float.ofBits n.toUInt64) := by
  have hn : n.toUInt64.toNat = n := by
    rw [Nat.toUInt64_eq, UInt64.toNat_ofNat_of_lt']
    exact Nat.lt_of_le_of_lt h (by decide)
  rw [IsMagnitude, toBits_ofBits (by rwa [hn]), hn]
  exact h

theorem IsMagnitude.ne_nan {x : Float} (h : IsMagnitude x) : x ≠ Float.nan := by
  rintro rfl
  exact absurd h (by decide)

theorem IsMagnitude.ne_neg_zero {x : Float} (h : IsMagnitude x) : x ≠ -0 := by
  rintro rfl
  exact absurd h (by decide)

/-- Without NaN and negative zero, what compares as equal is the same. -/
theorem beq_iff_eq_of_isMagnitude {x y : Float} (hx : IsMagnitude x) (hy : IsMagnitude y) :
    x == y ↔ x = y := by
  rw [Float.beq_iff_ne_nan_and_eq]
  constructor
  · rintro ⟨-, -, rfl | ⟨-, hneg⟩ | ⟨hneg, -⟩⟩
    · rfl
    · exact absurd hneg hy.ne_neg_zero
    · exact absurd hneg hx.ne_neg_zero
  · intro h
    exact ⟨hx.ne_nan, hy.ne_nan, .inl h⟩

theorem isMagnitude_nearest (num den : Nat) : IsMagnitude (nearest num den) := by
  apply isMagnitude_ofBits
  rw [nearestBits]
  split
  · exact Nat.zero_le _
  · exact Nat.min_le_left _ _

theorem isMagnitude_scaled (m : Nat) (e : Int) : IsMagnitude (scaled m e) := by
  simp only [scaled]
  split
  · exact isMagnitude_nearest 0 1
  · split
    · exact isMagnitude_ofBits (Nat.le_refl _)
    · split
      · exact isMagnitude_nearest _ 1
      · exact isMagnitude_nearest m _

theorem isMagnitude_ofPlaces (whole fraction : List Char) : IsMagnitude (ofPlaces whole fraction) :=
  isMagnitude_scaled _ _

end AccessControl.Decimal
