import Chip8.Binary64
import Mathlib

/-!
# Finite numbers

A finite number can be taken apart, and products and quotients of finite numbers
are finite when they are small enough.  The sizes are those of the format: a
significand below `2 ^ 53` and an exponent of at most `971`.  Rounding may carry
into one more bit, so the exact result has to stay one power of two below the
largest number.

* `isFinite_iff`: the finite numbers are those that have a counterpart.
* `fits_roundWithAccuracy`: what rounding leaves is finite.
* `isFinite_mul`, `isFinite_div`: products with small numbers and quotients by
  large ones.
* `not_isFinite_div`: a quotient is not finite if its dividend is not.
-/

namespace Chip8.Binary64

open Float.Model Float.Model.UnpackedFloat

variable {x y : Float} {m : Nat} {e : Int}

/-! ### Conversions -/

theorem toNat_unpackExponent (b : BitVec 64) :
    (@unpackExponent Format.binary64 b).toNat = b.toNat / 2 ^ 52 % 2 ^ 11 := by
  simp only [unpackExponent, BitVec.toNat_cast, BitVec.extractLsb_toNat,
    Nat.shiftRight_eq_div_pow]

theorem unpackExponent_eq_iff (b : BitVec 64) :
    @unpackExponent Format.binary64 b = -1#_ ↔ b.toNat / 2 ^ 52 % 2 ^ 11 = 2047 := by
  rw [← toNat_unpackExponent, ← BitVec.toNat_inj]
  rfl

theorem isFinite_unpack_iff (b : BitVec 64) :
    (UnpackedFloat.unpack Format.binary64 b).isFinite = true ↔
      @unpackExponent Format.binary64 b ≠ -1#_ := by
  simp only [UnpackedFloat.unpack]
  by_cases h : @unpackExponent Format.binary64 b = -1#_
  · simp only [h, if_true, ne_eq, not_true, iff_false]
    split <;> simp [UnpackedFloat.isFinite]
  · simp only [h, if_false, ne_eq, not_false_iff, iff_true]
    split
    · split <;> rfl
    · rfl

theorem isFinite_iff : x.isFinite = true ↔ ∃ d, decode x = .ok d := by
  have hbits : x.isFinite = true ↔ x.toBits.toNat / twoPow 52 % twoPow 11 ≠ 2047 :=
    (isFinite_unpack_iff x.toBits.toBitVec).trans (not_congr (unpackExponent_eq_iff _))
  rw [hbits, decode, decodeBits]
  constructor
  · intro h
    rw [if_neg h]
    split
    · exact ⟨_, rfl⟩
    · exact ⟨_, rfl⟩
  · rintro ⟨d, hd⟩ h
    rw [if_pos h] at hd
    split at hd <;> cases hd

/-! ### Rounding -/

def Fits : UnpackedFloat → Prop
  | .zero _ => True
  | .finite _ m e _ => m < 2 ^ 53 ∧ e ≤ 971
  | _ => False

theorem isFinite_pack {u : UnpackedFloat} (h : Fits u) :
    (Float.ofModel (Float.Model.pack u)).isFinite = true := by
  refine (isFinite_unpack_iff _).mpr ?_
  change unpackExponent (UnpackedFloat.pack Format.binary64 u) ≠ _
  cases u with
  | infinity _ => cases h
  | notANumber => cases h
  | zero s =>
    rw [UnpackedFloat.pack, packedZero, unpackExponent_packComponents]
    decide
  | finite s m e hm =>
    obtain ⟨-, he⟩ := h
    have hbias : Format.binary64.exponentBias = 1023 := rfl
    simp only [UnpackedFloat.pack, hbias]
    rw [if_neg (by omega)]
    split
    · rw [unpackExponent_packComponents, Ne, ← BitVec.toNat_inj, BitVec.toNat_ofNat]
      change (e + 1023 + 52).toNat % 2 ^ 11 ≠ 2047
      omega
    · rw [unpackExponent_packComponents]
      decide

theorem fits_unpack (h : x.isFinite = true) : Fits x.toModel.unpack := by
  have hexp := (isFinite_unpack_iff x.toBits.toBitVec).mp h
  have hlt : (@unpackExponent Format.binary64 x.toBits.toBitVec).toNat < 2 ^ 11 :=
    BitVec.isLt _
  have hbias : Format.binary64.exponentBias = 1023 := rfl
  change Fits (UnpackedFloat.unpack Format.binary64 x.toBits.toBitVec)
  simp only [UnpackedFloat.unpack, hbias]
  rw [if_neg hexp]
  rw [Ne, ← BitVec.toNat_inj] at hexp
  change ¬_ = 2047 at hexp
  split
  · next hz =>
    rw [hz]
    split
    · trivial
    · exact ⟨Nat.lt_trans (BitVec.isLt _) (by decide), by decide⟩
  · refine ⟨BitVec.isLt _, ?_⟩
    change (_ : Int) - (1023 + 52) ≤ 971
    omega

theorem mantissa_shiftRight (em : ExtendedMantissa) (k : Nat) :
    (em >>> k).mantissa = em.mantissa / 2 ^ k := by
  induction k with
  | zero => simp [HShiftRight.hShiftRight, Nat.repeat]
  | succ k ih =>
    change (em >>> k).mantissa / 2 = _
    rw [ih, Nat.div_div_eq_div_mul, Nat.pow_succ]

theorem roundedMantissa_le (em : ExtendedMantissa) : em.roundedMantissa ≤ em.mantissa + 1 := by
  rcases em with ⟨m, _ | _, _ | _⟩ <;>
    simp only [ExtendedMantissa.roundedMantissa, ExtendedMantissa.accuracy,
      Accuracy.roundToNearestEven]
  all_goals omega

def shiftAmount (m : Nat) (e : Int) : Nat :=
  (max (m.log2 + e - 52) (-1074) - e).toNat

theorem targetExponent_eq (m : Nat) (e : Int) :
    Format.binary64.targetExponent (totalExponent m e) = max (m.log2 + e - 52) (-1074) := by
  simp only [Format.targetExponent, totalExponent, Format.mantissaBits, Format.minExponent]
  omega

theorem mantissa_shiftToTargetExponent (m : Nat) (e : Int) (a : Accuracy) :
    (shiftToTargetExponent Format.binary64 m e a).1.mantissa = m / 2 ^ shiftAmount m e := by
  simp only [shiftToTargetExponent, shiftToExponent, targetExponent_eq, mantissa_shiftRight]
  rcases a with _ | _ | _ | _ <;> rfl

theorem exponent_shiftToTargetExponent (m : Nat) (e : Int) (a : Accuracy) :
    (shiftToTargetExponent Format.binary64 m e a).2 = e + shiftAmount m e := by
  simp only [shiftToTargetExponent, shiftToExponent, targetExponent_eq, shiftAmount]

theorem shifted_lt (m : Nat) (e : Int) : m / 2 ^ shiftAmount m e < 2 ^ 53 := by
  rw [Nat.div_lt_iff_lt_mul (Nat.two_pow_pos _), ← Nat.pow_add]
  refine Nat.lt_of_lt_of_le Nat.lt_log2_self (Nat.pow_le_pow_right Nat.two_pos ?_)
  rw [shiftAmount]
  omega

theorem log2_le_of_le {k : Nat} (h : m ≤ 2 ^ k) : m.log2 ≤ k := by
  rcases Nat.eq_zero_or_pos m with rfl | hm
  · simp
  · have := Nat.log2_self_le (Nat.pos_iff_ne_zero.mp hm)
    exact (Nat.pow_le_pow_iff_right Nat.one_lt_two).mp (Nat.le_trans this h)

/-- Rounding leaves a number that is far enough below the largest one finite. -/
theorem fits_roundWithAccuracy {s : Sign} {a : Accuracy} (he : e ≤ 971)
    (hm : m.log2 + e ≤ 1022) : Fits (roundWithAccuracy Format.binary64 s m e a) := by
  have hle := roundedMantissa_le (shiftToTargetExponent Format.binary64 m e a).1
  have hexp := exponent_shiftToTargetExponent m e a
  have hshifted := shifted_lt m e
  rw [mantissa_shiftToTargetExponent] at hle
  simp only [roundWithAccuracy]
  generalize shiftToTargetExponent Format.binary64 m e a = first at *
  obtain ⟨em, e₁⟩ := first
  dsimp only at hle hexp ⊢
  generalize em.roundedMantissa = r at *
  -- a shift leaves room for the carry; without one the significand is as short as it was
  have hcarry : r.log2 + e₁ ≤ 1023 := by
    rcases Nat.eq_zero_or_pos (shiftAmount m e) with hk | hk
    · rw [hk, Nat.pow_zero, Nat.div_one] at hle
      have := log2_le_of_le (Nat.le_trans hle (Nat.lt_log2_self (n := m)))
      omega
    · have := log2_le_of_le (Nat.le_trans hle hshifted)
      rw [shiftAmount] at hk hexp
      omega
  have hlast := mantissa_shiftToTargetExponent r e₁ .exact ▸ shifted_lt r e₁
  have hexp₂ := exponent_shiftToTargetExponent r e₁ .exact
  split
  · trivial
  · refine ⟨hlast, ?_⟩
    rw [hexp₂]
    rw [shiftAmount] at hexp ⊢
    omega

/-! ### Products and quotients -/

theorem unpack_cases (h : x.isFinite = true) :
    (∃ s, x.toModel.unpack = .zero s) ∨
      ∃ s m e hm, x.toModel.unpack = .finite s m e hm ∧ m.log2 ≤ 52 ∧ e ≤ 971 := by
  have hfits := fits_unpack h
  cases hu : x.toModel.unpack with
  | infinity _ => exact (hu ▸ hfits).elim
  | notANumber => exact (hu ▸ hfits).elim
  | zero s => exact .inl ⟨s, rfl⟩
  | finite s m e hm =>
    rw [hu] at hfits
    refine .inr ⟨s, m, e, hm, rfl, ?_, hfits.2⟩
    have := (Nat.log2_lt (Nat.pos_iff_ne_zero.mp hm)).mpr hfits.1
    omega

theorem log2_mul_le (m n : Nat) : (m * n).log2 ≤ m.log2 + n.log2 + 2 := by
  refine log2_le_of_le ?_
  calc m * n ≤ 2 ^ (m.log2 + 1) * 2 ^ (n.log2 + 1) :=
        Nat.mul_le_mul (Nat.le_of_lt Nat.lt_log2_self) (Nat.le_of_lt Nat.lt_log2_self)
    _ = 2 ^ (m.log2 + n.log2 + 2) := by
        rw [← Nat.pow_add]
        congr 1
        omega

theorem log2_div_le {n : Nat} (hn : 0 < n) (m : Nat) : (m / n).log2 ≤ m.log2 + 1 - n.log2 := by
  refine log2_le_of_le (Nat.le_of_lt_succ ?_)
  rw [Nat.div_lt_iff_lt_mul hn]
  have hnlog := Nat.log2_self_le (Nat.pos_iff_ne_zero.mp hn)
  calc m < 2 ^ (m.log2 + 1) := Nat.lt_log2_self
    _ ≤ 2 ^ (m.log2 + 1 - n.log2) * 2 ^ n.log2 := by
        rw [← Nat.pow_add]
        exact Nat.pow_le_pow_right Nat.two_pos (by omega)
    _ ≤ 2 ^ (m.log2 + 1 - n.log2) * n := Nat.mul_le_mul_left _ hnlog
    _ ≤ _ := Nat.mul_le_mul_right _ (Nat.le_succ _)

theorem log2_shiftLeft_le (m k : Nat) : (m <<< k).log2 ≤ m.log2 + k + 1 := by
  refine log2_le_of_le ?_
  rw [Nat.shiftLeft_eq, show m.log2 + k + 1 = m.log2 + 1 + k by omega, Nat.pow_add]
  exact Nat.mul_le_mul_right _ (Nat.le_of_lt Nat.lt_log2_self)

theorem isFinite_mul {s : Sign} {hm : 0 < m} (h : x.isFinite = true)
    (hy : y.toModel.unpack = .finite s m e hm) (hlog : m.log2 ≤ 52) (he : e ≤ -55) :
    (x * y).isFinite = true := by
  refine isFinite_pack ?_
  rw [hy]
  rcases unpack_cases h with ⟨s₁, hx⟩ | ⟨s₁, m₁, e₁, hm₁, hx, hlog₁, he₁⟩
  · rw [hx]
    trivial
  · rw [hx]
    have hprod := log2_mul_le m₁ m
    exact fits_roundWithAccuracy (by omega) (by omega)

theorem isFinite_div {s : Sign} {hm : 0 < m} (h : x.isFinite = true)
    (hy : y.toModel.unpack = .finite s m e hm) (hlog : m.log2 = 52) (he : -49 ≤ e) :
    (x / y).isFinite = true := by
  refine isFinite_pack ?_
  rw [hy]
  rcases unpack_cases h with ⟨s₁, hx⟩ | ⟨s₁, m₁, e₁, hm₁, hx, hlog₁, he₁⟩
  · rw [hx]
    trivial
  · rw [hx]
    simp only [UnpackedFloat.div, divCore, Format.targetExponent, totalExponent,
      Format.mantissaBits, Format.minExponent]
    generalize ht : min (e₁ - e) _ = t
    have hquot := log2_div_le hm (m₁ <<< (e₁ - e - t).toNat)
    have hshift := log2_shiftLeft_le m₁ (e₁ - e - t).toNat
    exact fits_roundWithAccuracy (by omega) (by omega)

theorem not_isFinite_div {s : Sign} {hm : 0 < m} (h : x.isFinite = false)
    (hy : y.toModel.unpack = .finite s m e hm) : (x / y).isFinite = false := by
  have hx : x.toModel.unpack.isFinite = false := h
  change (Float.ofModel (Float.Model.pack
    (UnpackedFloat.div Format.binary64 x.toModel.unpack y.toModel.unpack))).isFinite = false
  rw [hy]
  cases hu : x.toModel.unpack with
  | infinity s₁ =>
    simp only [UnpackedFloat.div]
    cases s₁ / s <;> decide
  | notANumber =>
    simp only [UnpackedFloat.div]
    decide
  | zero s₁ =>
    rw [hu] at hx
    cases hx
  | finite s₁ m₁ e₁ hm₁ =>
    rw [hu] at hx
    cases hx

end Chip8.Binary64
