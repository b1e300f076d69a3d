import Chip8.Pace
import Chip8.Proofs.Binary64
import Mathlib.Tactic.ByContra

/-!
# Rates that make a pace

The intervals that follow from a rate, and the instant of the first instruction,
can be worked out when the rate is a finite number, and only then.

* `timerInterval_isOk_iff`: the interval of the timers.
* `baseTime_zero`: before the first instruction the rate does not matter.
-/

namespace Chip8.Pace

open Binary64 Float.Model Float.Model.UnpackedFloat

variable {rate : Float}

theorem unpack_timerFrequency :
    timerFrequency.toModel.unpack = .finite .positive 0x1E000000000000 (-47) (by decide) := by
  rfl

theorem unpack_refreshPeriod :
    refreshPeriod.toModel.unpack = .finite .positive 0x11111111111111 (-58) (by decide) := by
  rfl

theorem interval_of_isFinite {x : Float} (h : x.isFinite = true) : ∃ n, interval x = .ok n := by
  obtain ⟨d, hd⟩ := isFinite_iff.mp h
  exact ⟨_, by rw [interval, Binary64.round, hd]; rfl⟩

theorem timerInterval_of_isFinite (h : rate.isFinite = true) :
    ∃ n, timerInterval rate timerFrequency = .ok n :=
  interval_of_isFinite (isFinite_div h unpack_timerFrequency (by decide) (by decide))

/-- **The interval of the timers** can be worked out for the finite rates. -/
theorem timerInterval_isOk_iff :
    (∃ n, timerInterval rate timerFrequency = .ok n) ↔ rate.isFinite = true := by
  refine ⟨?_, timerInterval_of_isFinite⟩
  rintro ⟨n, hn⟩
  by_contra hinfinite
  have hquot := not_isFinite_div (Bool.eq_false_iff.mpr hinfinite) unpack_timerFrequency
  cases hdecode : decode (rate / timerFrequency) with
  | ok d =>
    rw [isFinite_iff.mpr ⟨d, hdecode⟩] at hquot
    cases hquot
  | error failure =>
    rw [timerInterval, interval, Binary64.round, hdecode] at hn
    cases hn

theorem frameInterval_of_isFinite (h : rate.isFinite = true) :
    ∃ n, frameInterval rate refreshPeriod = .ok n :=
  interval_of_isFinite (isFinite_mul h unpack_refreshPeriod (by decide) (by decide))

theorem unpack_of_pos (h : rate.isFinite = true) (hpos : ¬rate ≤ 0) :
    ∃ m e hm, rate.toModel.unpack = .finite .positive m e hm := by
  have hle : ¬rate.toModel.unpack.le (.zero .positive) = true := fun hle =>
    hpos (decide_eq_true (p := rate.toModel ≤ (0 : Float).toModel) hle)
  rcases unpack_cases h with ⟨s, hx⟩ | ⟨s, m, e, hm, hx, -⟩
  · rw [hx] at hle
    exact absurd rfl hle
  · rw [hx] at hle
    cases s with
    | negative => exact absurd rfl hle
    | positive => exact ⟨m, e, hm, hx⟩

theorem zero_div (h : rate.isFinite = true) (hpos : ¬rate ≤ 0) : 0 / rate = 0 := by
  obtain ⟨m, e, hm, hu⟩ := unpack_of_pos h hpos
  have hz : (0 : Float).toModel.unpack = .zero .positive := rfl
  change Float.ofModel (Float.Model.pack
    (UnpackedFloat.div Format.binary64 (0 : Float).toModel.unpack rate.toModel.unpack)) = 0
  rw [hz, hu]
  rfl

theorem baseTime_zero (h : rate.isFinite = true) (hpos : ¬rate ≤ 0) (now : Int) :
    baseTime now 0 rate = .ok now := by
  have hzero : ofInt? 0 = .ok 0 := by rfl
  have htrunc : truncate (0 * second) = .ok 0 := by
    have hdecode : decode (0 * second) = .ok ⟨false, 0, -1074⟩ := by rfl
    rw [truncate, hdecode]
    simp [Except.map, Dyadic.truncate, signed]
  rw [baseTime, if_neg hpos, hzero]
  simp only [bind, Except.bind, zero_div h hpos, htrunc]
  simp [pure, Except.pure]

end Chip8.Pace
