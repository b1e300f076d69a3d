import Chip8.Proofs.Machine.Footprint
import Chip8.Proofs.Machine.KeyWait
import Chip8.Proofs.Timers

/-!
# Instructions of the timers

Two instructions set a timer to a register, one for each timer, and one more reads the
delay timer.  No other instruction has to do with the timers.  So a step that completes
its instruction adds to their history what the word at the counter says, and every other
step leaves them alone.

* `execute_loadFrom`: a timer is set to a register that holds a byte.
* `timerLoads`: what the word at the counter adds to the history of the timers.
* `records_step`, `timers_step`: a step that goes on, and any other step.
-/

namespace Chip8

open PatternDigit (any)

namespace Timer

def loadPattern : Timer → Pattern
  | delay => ⟨0xF, any, 1, 5⟩
  | sound => ⟨0xF, any, 1, 8⟩

def loadFrom : Timer → Register → Instruction
  | delay => .setDelay
  | sound => .setSound

theorem reads_loadFrom {timer : Timer} {w : Nat} {x : Register}
    (hw : timer.loadPattern.Matches w) (hx : Instruction.XReads w x) :
    (timer.loadFrom x).Reads w := by
  cases timer <;> exact ⟨hw, hx⟩

end Timer

theorem Timers.toNat_of_byte? {value : Int} {b : UInt8} (h : byte? value = some b) :
    (b.toNat : Int) = value := by
  rw [byte?] at h
  split at h
  · next hbyte =>
    cases h
    exact Memory.toNat_ofInt hbyte
  · cases h

namespace Machine

variable {m m' : Machine} {timer : Timer} {byte : UInt8} {t : List TimerEvent}

/-! ### The instructions -/

theorem execute_loadFrom {x : Register} {b : UInt8} (hb : Timers.byte? (m.v x) = some b) :
    m.execute (timer.loadFrom x) = .completed { m with timers := m.timers.set timer b } := by
  cases timer <;> simp only [Timer.loadFrom, execute, hb] <;> rfl

theorem execute_loadFrom_of_none {x : Register} (hb : Timers.byte? (m.v x) = none) :
    m.execute (timer.loadFrom x) = .refused m (m.v x) := by
  cases timer <;> simp only [Timer.loadFrom, execute, hb]

/-- What the word at the counter adds to the history of the timers, if its instruction is
completed. -/
def timerLoads (m : Machine) : List TimerEvent :=
  if Pattern.Matches ⟨0xF, any, 1, 5⟩ m.word then [.load .delay (m.v m.namedRegister)]
  else if Pattern.Matches ⟨0xF, any, 1, 8⟩ m.word then [.load .sound (m.v m.namedRegister)]
  else []

theorem timerLoads_of_matches (hw : timer.loadPattern.Matches m.word) :
    m.timerLoads = [.load timer (m.v m.namedRegister)] := by
  cases timer with
  | delay => exact if_pos hw
  | sound =>
    have hdelay : ¬Pattern.Matches ⟨0xF, any, 1, 5⟩ m.word := by
      rintro ⟨-, -, -, hlast⟩
      cases hlast.symm.trans hw.2.2.2
    rw [timerLoads, if_neg hdelay]
    exact if_pos hw

theorem timerLoads_of_not (hno : ∀ timer : Timer, ¬timer.loadPattern.Matches m.word) :
    m.timerLoads = [] :=
  (if_neg (hno .delay)).trans (if_neg (hno .sound))

/-! ### Steps -/

theorem advance_of_loadPattern (hc : m.OnProgram) (hw : timer.loadPattern.Matches m.word) :
    m.advance = m.passed.execute (timer.loadFrom m.namedRegister) :=
  advance_of_decode hc (Instruction.decode_of_reads m.word_lt (Timer.reads_loadFrom hw rfl))

theorem timers_step_of_not (hno : ∀ timer : Timer, ¬timer.loadPattern.Matches m.word)
    (hgoes : ∀ r, (m.step byte).status ≠ .ok (.halted r)) :
    (m.step byte).machine.timers = m.timers := by
  have hfootprint := footprint_step hgoes
  have hdelay := hfootprint.delay_eq (hno .delay)
  have hsound := hfootprint.sound_eq (hno .sound)
  have hticks := hfootprint.ticks_eq
  generalize (m.step byte).machine.timers = ts at hdelay hsound hticks
  obtain ⟨delay, sound, ticks⟩ := ts
  dsimp only at hdelay hsound hticks
  rw [hdelay, hsound, hticks]

/-- **A step that goes on** adds to the history of the timers what its word says. -/
theorem records_step (h : m.timers.Records t) (hstep : (m.step byte).status = .ok .continue) :
    (m.step byte).machine.timers.Records (t ++ m.timerLoads) := by
  have hgoes : ∀ r, (m.step byte).status ≠ .ok (.halted r) := by
    intro r hr
    rw [hstep] at hr
    cases hr
  by_cases hload : ∃ timer : Timer, timer.loadPattern.Matches m.word
  · obtain ⟨timer, hw⟩ := hload
    have hrun := running_of_goes hgoes
    have hadvance := advance_of_loadPattern (onProgram_of_goes hgoes) hw
    cases hb : Timers.byte? (m.passed.v m.namedRegister) with
    | none =>
      rw [execute_loadFrom_of_none hb] at hadvance
      rw [step_of_refused hrun hadvance] at hstep
      cases hstep
    | some b =>
      rw [execute_loadFrom hb] at hadvance
      rw [step_of_completed hrun hadvance, timerLoads_of_matches hw]
      exact h.set timer (Timers.toNat_of_byte? hb)
  · have hno : ∀ timer : Timer, ¬timer.loadPattern.Matches m.word := not_exists.mp hload
    rw [timers_step_of_not hno hgoes, timerLoads_of_not hno, List.append_nil]
    exact h

/-- **A step that does not go on** leaves the timers alone. -/
theorem timers_step (hstep : (m.step byte).status ≠ .ok .continue) :
    (m.step byte).machine.timers = m.timers := by
  have hending := m.ending_step byte
  generalize m.step byte = result at hstep hending ⊢
  cases hending with
  | completed | drawing => exact absurd rfl hstep
  | waiting hh ha =>
    rw [advance_eq_waiting ha]
    rfl
  | stopped | halted | refused => rfl

theorem timerLoads_of_drawing {x : Register} {mask : Nat} (ha : m.advance = .drawing m' x mask) :
    m.timerLoads = [] := by
  refine timerLoads_of_not ?_
  intro timer hw
  have hfirst := (reads_of_drawing ha).1.1
  cases timer <;> cases hfirst.symm.trans hw.1

end Machine

end Chip8
