import Chip8.Text.Hex
import Chip8.Text.Numeral

/-!
# Hexadecimal text is read back

The digits that show a number in base sixteen write this number, however many zeros
stand in front of them.  A number that fits is shown by as many characters as asked
for.

* `hexNumber?_hexChars`: the number is read back.
* `length_hexChars`: how many characters there are.
* `isSome_digitValue?_of_mem_hexChars`: all of them are digits.
-/

namespace Chip8.Text

/-- The number that digits in base sixteen write, the most significant first. -/
def hexNumber? (digits : List Char) : Option Nat :=
  digits.foldlM (fun n c => (digitValue? 16 c).map fun d => n * 16 + d) 0

variable {n k width : Nat} {c : Char}

theorem digitValue?_hexDigit (h : n < 16) : digitValue? 16 (hexDigit n) = some n := by
  revert n
  decide

theorem hexNumber?_append_hexDigit {digits : List Char} (hdigits : hexNumber? digits = some n)
    (hk : k < 16) : hexNumber? (digits ++ [hexDigit k]) = some (n * 16 + k) := by
  rw [hexNumber?] at hdigits
  rw [hexNumber?, List.foldlM_append, hdigits]
  simp [digitValue?_hexDigit hk]

/-- **The digits of a number write it.** -/
theorem hexNumber?_hexDigits (n : Nat) : hexNumber? (hexDigits n) = some n := by
  induction n using hexDigits.induct with
  | case1 n hlt =>
    rw [hexDigits, if_pos hlt]
    simp [hexNumber?, digitValue?_hexDigit hlt]
  | case2 n hge ih =>
    have hlow : n % 16 < 16 := Nat.mod_lt n (by omega)
    rw [hexDigits, if_neg hge, hexNumber?_append_hexDigit ih hlow]
    congr 1
    omega

theorem hexNumber?_zeroFill (width : Nat) (digits : List Char) :
    hexNumber? (zeroFill width digits) = hexNumber? digits := by
  rw [zeroFill]
  induction width - digits.length with
  | zero => rfl
  | succ k ih => exact ih

theorem hexChars_natCast (width n : Nat) : hexChars width n = zeroFill width (hexDigits n) := by
  rw [hexChars, if_neg (by omega), Int.natAbs_natCast]

/-- **A number that is shown in base sixteen is read back.** -/
theorem hexNumber?_hexChars (width n : Nat) : hexNumber? (hexChars width n) = some n := by
  rw [hexChars_natCast, hexNumber?_zeroFill, hexNumber?_hexDigits]

theorem length_hexDigits_le (hk : 0 < k) (h : n < Nat.pow 16 k) : (hexDigits n).length ≤ k := by
  induction n using hexDigits.induct generalizing k with
  | case1 n hlt =>
    rw [hexDigits, if_pos hlt]
    exact hk
  | case2 n hge ih =>
    obtain ⟨k, rfl⟩ : ∃ j, k = j + 1 := ⟨k - 1, by omega⟩
    have hlt : n < Nat.pow 16 k * 16 := h
    have hpos : 0 < k := by
      rcases Nat.eq_zero_or_pos k with rfl | hpos
      · exact absurd hlt hge
      · exact hpos
    have hdiv : n / 16 < Nat.pow 16 k := by omega
    rw [hexDigits, if_neg hge, List.length_append]
    exact Nat.succ_le_succ (ih hpos hdiv)

theorem length_hexChars (hwidth : 0 < width) (h : n < Nat.pow 16 width) :
    (hexChars width n).length = width := by
  have hle := length_hexDigits_le hwidth h
  rw [hexChars_natCast, length_zeroFill]
  omega

theorem isSome_digitValue?_of_mem_hexDigits (h : c ∈ hexDigits n) :
    (digitValue? 16 c).isSome = true := by
  induction n using hexDigits.induct with
  | case1 n hlt =>
    rw [hexDigits, if_pos hlt] at h
    rw [List.mem_singleton.mp h, digitValue?_hexDigit hlt]
    rfl
  | case2 n hge ih =>
    have hlow : n % 16 < 16 := Nat.mod_lt n (by omega)
    rw [hexDigits, if_neg hge] at h
    rcases List.mem_append.mp h with h | h
    · exact ih h
    · rw [List.mem_singleton.mp h, digitValue?_hexDigit hlow]
      rfl

theorem isSome_digitValue?_of_mem_hexChars (h : c ∈ hexChars width n) :
    (digitValue? 16 c).isSome = true := by
  rw [hexChars_natCast, zeroFill] at h
  rcases List.mem_append.mp h with h | h
  · rw [List.eq_of_mem_replicate h]
    rfl
  · exact isSome_digitValue?_of_mem_hexDigits h

end Chip8.Text
