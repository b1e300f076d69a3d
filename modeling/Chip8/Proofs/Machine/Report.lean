import Chip8.Proofs.Machine.Frame

/-!
# What a step has done, by its report

A step that reports a halt or a wait has hardly changed the machine: the halt or
the wait itself is all.  A step that continues has completed an instruction, which
a step that reports anything else has not.

* `step_of_status_halted`, `step_of_status_awaitingKey`: the whole step.
* `completed_step`: how many instructions a step completes.
-/

namespace Chip8.Machine

variable {m m' : Machine}

theorem advance_eq_waiting (h : m.advance = .waiting m') :
    m' = { m.passed with keypad := m.keypad.beginWait } := by
  rcases m.advance_cases with ⟨m₁, r, hr⟩ | ⟨-, i, -, hi⟩
  · rw [h] at hr
    cases hr
  · exact (execute_eq_waiting (hi.symm.trans h)).2

/-- A step that reports a halt has marked the machine as halted, unless it was so before, and has
changed nothing else. -/
theorem step_of_status_halted {byte : UInt8} {r : HaltReason}
    (h : (m.step byte).status = .ok (.halted r)) :
    m.step byte = ⟨{ m with halted := some r }, .ok (.halted r), false⟩ := by
  have hending := m.ending_step byte
  generalize m.step byte = result at h hending ⊢
  cases hending with
  | stopped hh =>
    cases h
    rw [← hh]
  | halted hh ha =>
    cases h
    rfl
  | completed | waiting | drawing | refused => cases h

/-- A step that reports a wait has begun to wait, and has changed nothing else. -/
theorem step_of_status_awaitingKey {byte : UInt8} (h : (m.step byte).status = .ok .awaitingKey) :
    m.step byte = ⟨{ m with keypad := m.keypad.beginWait }, .ok .awaitingKey, false⟩ := by
  have hending := m.ending_step byte
  generalize m.step byte = result at h hending ⊢
  cases hending with
  | waiting hh ha =>
    rw [advance_eq_waiting ha]
    rfl
  | stopped | completed | halted | drawing | refused => cases h

theorem halted_step {byte : UInt8} (h : ∀ r, (m.step byte).status ≠ .ok (.halted r)) :
    (m.step byte).machine.halted = none := by
  have hframes := frames_advance m
  have hending := m.ending_step byte
  generalize m.step byte = result at h hending ⊢
  cases hending with
  | stopped | halted => exact absurd rfl (h _)
  | completed hh ha | waiting hh ha =>
    rw [ha] at hframes
    exact hframes.halted_eq.trans hh
  | drawing hh | refused hh => exact hh

theorem completed_step (m : Machine) (byte : UInt8) :
    (m.step byte).machine.completed =
      m.completed + (m.step byte).status.toOption.toList.count .continue := by
  have hframes := frames_advance m
  have hending := m.ending_step byte
  generalize m.step byte = result at hending ⊢
  cases hending with
  | completed hh ha =>
    rw [ha] at hframes
    exact congrArg (· + 1) hframes.completed_eq
  | waiting hh ha =>
    rw [ha] at hframes
    exact hframes.completed_eq
  | stopped | halted | drawing | refused => rfl

end Chip8.Machine
