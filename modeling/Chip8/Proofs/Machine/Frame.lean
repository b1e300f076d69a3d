import Chip8.Proofs.Machine.Step

/-!
# What a step leaves alone

A step may change almost everything in a machine.  It never changes its dialect,
and it never ticks the timers, though it may set them.  An instruction that is
carried out does not count itself and does not halt the machine: the step does.
Only calls and returns change the stack, and only the instruction that waits for
a key changes the keypad.

* `carries_execute`: what an instruction leaves alone that is carried out.
* `execute_eq_waiting`: what one has done that waits.
* `sameFrame_step`: dialect and number of ticks are the same after a step.
* `frames_advance`: what the first half of a step leaves alone.
-/

namespace Chip8

namespace Machine

/-- Dialect and number of ticks are the same in both machines. -/
structure SameFrame (m m' : Machine) : Prop where
  dialect_eq : m'.dialect = m.dialect
  ticks_eq : m'.timers.ticks = m.timers.ticks

/-- The machine has halted or goes on as before, and has completed as many instructions. -/
structure SameProgress (m m' : Machine) : Prop where
  halted_eq : m'.halted = m.halted
  completed_eq : m'.completed = m.completed

structure SameCourse (m m' : Machine) : Prop extends SameFrame m m', SameProgress m m'

/-- Every machine that the first half of a step leads to has frame and progress of this one. -/
def Frames (m : Machine) : Progress → Prop
  | .completed m' => SameCourse m m'
  | .waiting m' => SameCourse m m'
  | .halted _ _ | .drawing _ _ _ | .refused _ _ => True

variable {m m' : Machine}

theorem SameProgress.refl (m : Machine) : SameProgress m m :=
  ⟨rfl, rfl⟩

theorem SameProgress.trans {m'' : Machine} (h : SameProgress m m') (h' : SameProgress m' m'') :
    SameProgress m m'' :=
  ⟨h'.halted_eq.trans h.halted_eq, h'.completed_eq.trans h.completed_eq⟩

/-- What an instruction leaves alone that has been carried out. -/
structure Carries (m m' : Machine) (i : Instruction) : Prop extends SameCourse m m' where
  keypad_eq : (∀ x, i ≠ .awaitKey x) → m'.keypad = m.keypad
  stack_eq : (∀ a, i ≠ .call a) → i ≠ .ret → m'.stack = m.stack

variable {i : Instruction}

theorem carries_skipIf (m : Machine) (condition : Bool) (i : Instruction) :
    m.Carries (m.skipIf condition) i := by
  rw [skipIf]
  split <;> exact ⟨⟨⟨rfl, rfl⟩, rfl, rfl⟩, fun _ => rfl, fun _ _ => rfl⟩

theorem Carries.passIndex (h : m.Carries m' i) (count : Nat) :
    m.Carries (m'.passIndex count) i := by
  rw [Machine.passIndex]
  split
  · exact ⟨⟨⟨h.dialect_eq, h.ticks_eq⟩, h.halted_eq, h.completed_eq⟩, h.keypad_eq, h.stack_eq⟩
  · exact h

/-- **What an instruction leaves alone** that has been carried out, one case for each. -/
theorem carries_execute (h : m.execute i = .completed m') : m.Carries m' i := by
  cases i with
  | stop | random x mask => cases h
  | ret =>
    rw [execute] at h
    split at h <;> cases h
    exact ⟨⟨⟨rfl, rfl⟩, rfl, rfl⟩, fun _ => rfl, fun _ hret => absurd rfl hret⟩
  | call a =>
    rw [execute] at h
    split at h <;> cases h
    exact ⟨⟨⟨rfl, rfl⟩, rfl, rfl⟩, fun _ => rfl, fun hcall _ => absurd rfl (hcall a)⟩
  | awaitKey x =>
    rw [execute] at h
    split at h
    · split at h <;> cases h
      exact ⟨⟨⟨rfl, rfl⟩, rfl, rfl⟩, fun hkey => absurd rfl (hkey x), fun _ _ => rfl⟩
    · cases h
  | setDelay x | setSound x =>
    rw [execute] at h
    split at h <;> cases h
    exact ⟨⟨⟨rfl, rfl⟩, rfl, rfl⟩, fun _ => rfl, fun _ _ => rfl⟩
  | skipEqualByte x n | skipUnequalByte x n | skipEqual x y | skipUnequal x y | skipPressed x
  | skipReleased x =>
    cases h
    exact carries_skipIf m _ _
  | logic op x y =>
    cases h
    show m.Carries (if m.dialect.logicResetsVf then _ else _) _
    split <;> exact ⟨⟨⟨rfl, rfl⟩, rfl, rfl⟩, fun _ => rfl, fun _ _ => rfl⟩
  | draw x y n =>
    simp only [execute, onMemory] at h
    split at h <;> cases h
    exact ⟨⟨⟨rfl, rfl⟩, rfl, rfl⟩, fun _ => rfl, fun _ _ => rfl⟩
  | decimal x =>
    rw [execute] at h
    rcases writeAtIndex_cases m _ _ with ⟨r, hr⟩ | ⟨memory, -, hr⟩ <;> rw [hr] at h <;> cases h
    exact ⟨⟨⟨rfl, rfl⟩, rfl, rfl⟩, fun _ => rfl, fun _ _ => rfl⟩
  | store x =>
    rw [execute] at h
    rcases writeAtIndex_cases m _ _ with ⟨r, hr⟩ | ⟨memory, -, hr⟩ <;> rw [hr] at h <;> cases h
    refine Carries.passIndex ?_ _
    exact ⟨⟨⟨rfl, rfl⟩, rfl, rfl⟩, fun _ => rfl, fun _ _ => rfl⟩
  | load x =>
    simp only [execute, onMemory] at h
    split at h <;> cases h
    refine Carries.passIndex ?_ _
    exact ⟨⟨⟨rfl, rfl⟩, rfl, rfl⟩, fun _ => rfl, fun _ _ => rfl⟩
  | _ =>
    cases h
    exact ⟨⟨⟨rfl, rfl⟩, rfl, rfl⟩, fun _ => rfl, fun _ _ => rfl⟩

/-- **An instruction that waits** is the one that waits for a key, and has begun to wait. -/
theorem execute_eq_waiting (h : m.execute i = .waiting m') :
    (∃ x, i = .awaitKey x) ∧ m' = { m with keypad := m.keypad.beginWait } := by
  cases i with
  | awaitKey x =>
    refine ⟨⟨x, rfl⟩, ?_⟩
    rw [execute] at h
    by_cases hwait : m.keypad.awaiting = true
    · rw [if_pos hwait] at h
      cases hlatch : m.keypad.latch with
      | some key =>
        simp only [Keypad.consume, hlatch] at h
        cases h
      | none =>
        simp only [Keypad.consume, hlatch] at h
        cases h
        -- The program waits already, with nothing in the latch.
        have hsame : m.keypad.beginWait = m.keypad := by
          rw [Keypad.beginWait, ← hlatch, ← hwait]
        rw [hsame]
    · rw [if_neg hwait] at h
      cases h
      rfl
  | ret | call a | setDelay x | setSound x =>
    rw [execute] at h
    split at h <;> cases h
  | draw x y n | load x =>
    simp only [execute, onMemory] at h
    split at h <;> cases h
  | decimal x | store x =>
    rw [execute] at h
    rcases writeAtIndex_cases m _ _ with ⟨r, hr⟩ | ⟨memory, -, hr⟩ <;> rw [hr] at h <;> cases h
  | _ => cases h

theorem frames_execute (m : Machine) (i : Instruction) : m.Frames (m.execute i) := by
  cases hx : m.execute i with
  | completed m' => exact (carries_execute hx).toSameCourse
  | waiting m' =>
    rw [(execute_eq_waiting hx).2]
    exact ⟨⟨rfl, rfl⟩, rfl, rfl⟩
  | halted m' r | drawing m' x mask | refused m' value => trivial

theorem frames_advance (m : Machine) : m.Frames m.advance := by
  rcases m.advance_cases with ⟨m', r, hr⟩ | ⟨-, i, -, hi⟩
  · rw [hr]
    trivial
  · have hexecute := frames_execute m.passed i
    rw [hi]
    cases hx : m.passed.execute i with
    | completed m' | waiting m' =>
      rw [hx] at hexecute
      exact ⟨⟨hexecute.dialect_eq, hexecute.ticks_eq⟩, hexecute.halted_eq, hexecute.completed_eq⟩
    | halted m' r | drawing m' x mask | refused m' value => trivial

/-- **A step never ticks the timers**, and it never changes the dialect. -/
theorem sameFrame_step (m : Machine) (byte : UInt8) : SameFrame m (m.step byte).machine := by
  have hframes := frames_advance m
  have hending := m.ending_step byte
  generalize m.step byte = result at hending ⊢
  cases hending with
  | completed hh ha | waiting hh ha =>
    rw [ha] at hframes
    exact ⟨hframes.dialect_eq, hframes.ticks_eq⟩
  | stopped | halted | drawing | refused => exact ⟨rfl, rfl⟩

end Machine

end Chip8
