import Chip8.Proofs.Display
import Chip8.Proofs.Machine.Report
import Chip8.Proofs.Pacer.PlainRun

/-!
# What a step does to the display

Of all instructions only the one that clears the display and the one that draws a
sprite change it, and both make it dirty.  So a display that is not dirty after a
step is as it was before it, and the same holds of a whole run.

* `marks_execute`: one case for each instruction.
* `PlainRun.marks_run`: so many steps, with the ticks of the timers.
-/

namespace Chip8

namespace Machine

variable {m m' : Machine}

theorem display_skipIf (m : Machine) (condition : Bool) :
    (m.skipIf condition).display = m.display := by
  rw [skipIf]
  split <;> rfl

theorem display_passIndex (m : Machine) (count : Nat) :
    (m.passIndex count).display = m.display := by
  rw [passIndex]
  split <;> rfl

/-- **An instruction that changes the display** makes it dirty. -/
theorem marks_execute {i : Instruction} (h : m.execute i = .completed m') :
    m.display.Marks m'.display := by
  cases i with
  | stop | random x mask => cases h
  | clear =>
    cases h
    exact Display.marks_clear _
  | draw x y n =>
    simp only [execute, onMemory] at h
    split at h <;> cases h
    exact Display.marks_draw _ _ _ _
  | ret | call a | setDelay x | setSound x =>
    rw [execute] at h
    split at h <;> cases h
    exact .refl _
  | awaitKey x =>
    rw [execute] at h
    split at h
    · split at h <;> cases h
      exact .refl _
    · cases h
  | skipEqualByte x n | skipUnequalByte x n | skipEqual x y | skipUnequal x y | skipPressed x
  | skipReleased x =>
    cases h
    exact .inl (display_skipIf m _)
  | logic op x y =>
    cases h
    show m.display.Marks (if m.dialect.logicResetsVf then _ else _ : Machine).display
    split <;> exact .refl _
  | decimal x =>
    rw [execute] at h
    rcases writeAtIndex_cases m _ _ with ⟨r, hr⟩ | ⟨memory, -, hr⟩ <;> rw [hr] at h <;> cases h
    exact .refl _
  | store x =>
    rw [execute] at h
    rcases writeAtIndex_cases m _ _ with ⟨r, hr⟩ | ⟨memory, -, hr⟩ <;> rw [hr] at h <;> cases h
    exact .inl (display_passIndex _ _)
  | load x =>
    simp only [execute, onMemory] at h
    split at h <;> cases h
    exact .inl (display_passIndex _ _)
  | _ =>
    cases h
    exact .refl _

theorem marks_advance (ha : m.advance = .completed m') : m.display.Marks m'.display := by
  rcases m.advance_cases with ⟨m₁, r, hr⟩ | ⟨-, i, -, hi⟩
  · rw [hr] at ha
    cases ha
  · rw [hi] at ha
    exact marks_execute (m := m.passed) ha

/-- **A step that changes the display** makes it dirty. -/
theorem marks_step (m : Machine) (byte : UInt8) :
    m.display.Marks (m.step byte).machine.display := by
  have hending := m.ending_step byte
  generalize m.step byte = result at hending ⊢
  cases hending with
  | completed hh ha =>
    have hmarks := marks_advance ha
    exact hmarks
  | waiting hh ha =>
    rw [advance_eq_waiting ha]
    exact .refl _
  | stopped | halted | drawing | refused => exact .refl _

end Machine

namespace Engine

def display (e : Engine) : Display :=
  e.machine.display

theorem marks_stepped (e : Engine) : e.display.Marks e.stepped.display := by
  obtain ⟨source, lastStatus, heq⟩ := e.stepped_eq
  rw [heq]
  exact e.machine.marks_step _

theorem display_keyed (e : Engine) (code : Int) (down : Bool) :
    (e.keyed code down).display = e.display := by
  rw [keyed]
  split <;> rfl

end Engine

namespace PlainRun

variable {T : Nat}

theorem marks_step (s : PlainRun) : s.engine.display.Marks (s.step T).2.engine.display := by
  have hstepped := s.engine.marks_stepped
  rw [step]
  split
  · exact hstepped
  · exact hstepped
  · dsimp only
    split <;> exact hstepped

/-- **A run that changes the display** makes it dirty. -/
theorem marks_run (s : PlainRun) (n : Nat) :
    s.engine.display.Marks (s.run T n).2.engine.display := by
  induction n generalizing s with
  | zero => exact .refl _
  | succ n ih =>
    have hstep := s.marks_step (T := T)
    rw [run]
    split
    · rcases hs : s.step T with ⟨r | _, s'⟩ <;> rw [hs] at hstep
      · exact hstep
      · exact hstep.trans (ih s')
    · exact .refl _

theorem marks_answer (s : PlainRun) (call : PacerCall) :
    s.engine.display.Marks (answer T call s).2.engine.display := by
  cases call with
  | run count =>
    have hrun := s.marks_run (T := T) count.toNat
    rw [answer]
    rcases hs : s.run T count.toNat with ⟨r | _, s'⟩ <;> rw [hs] at hrun <;> exact hrun
  | pause | resume =>
    rw [answer]
    split <;> exact .refl _
  | key code down => exact .inl (s.engine.display_keyed code down)

end PlainRun

end Chip8
