import Chip8.Machine.Step
import Chip8.Proofs.Memory.Blocks

/-!
# Ways in which a step ends

A step of a machine that has not halted is its first half and what follows from
it.  The first half fetches the word at the counter, which has to lie on the
program, and carries out its instruction.  One lemma for each ending of the first
half says what the step is then.

An instruction that cannot go on hands over the machine as it is at that moment,
and the step puts back no more than the counter.  That nothing else has to be put
back is a property of the instructions: each of them fails before it changes
anything.

* `advance_of_decode`: a word that has an instruction is carried out past it.
* `advance_cases`: everything else halts the machine.
* `writeAtIndex_cases`: a block is written as a whole, or halts the program.
* `keeps_execute`: an instruction that is not carried out has changed nothing.
* `advance_eq_halted`: when the program halts, only the counter has moved.
* `step_of_completed`, `step_of_waiting`, `step_of_halted`, `step_of_drawing`,
  `step_of_refused`: the whole step for each ending of its first half.
* `ending_step`: these are all the ways in which a step ends.
-/

namespace Chip8

/-- What has not been carried out, or not yet, has changed nothing of `m`. -/
def Progress.Keeps (m : Machine) : Progress → Prop
  | .completed _ | .waiting _ => True
  | .halted m' _ | .drawing m' _ _ | .refused m' _ => m' = m

namespace Machine

variable {m m' : Machine}

/-! ### The word at the counter -/

/-- The counter is at an address at which an instruction may lie. -/
def OnProgram (m : Machine) : Prop :=
  0x200 ≤ m.counter ∧ m.counter ≤ 0xFFE

instance (m : Machine) : Decidable m.OnProgram :=
  inferInstanceAs (Decidable (_ ∧ _))

/-- The word at the counter, the high byte first. -/
def word (m : Machine) : Nat :=
  (m.memory.byteAt m.counter).toNat * 256 + (m.memory.byteAt (m.counter + 1)).toNat

theorem word_lt (m : Machine) : m.word < 0x10000 := by
  have hhigh := (m.memory.byteAt m.counter).toNat_lt
  have hlow := (m.memory.byteAt (m.counter + 1)).toNat_lt
  rw [word]
  omega

theorem fetch_of_onProgram (h : m.OnProgram) : m.fetch = .ok ⟨m.word⟩ := by
  obtain ⟨hfirst, hlast⟩ := h
  have hc (a : Int) (h₀ : 0 ≤ a) (h₁ : a ≤ 0xFFF) : Memory.Covers 0 addressSpace a :=
    ⟨h₀, by simp only [addressSpace]; omega⟩
  have hword : m.memory.load16 m.counter = .ok m.word := by
    rw [Memory.load16, Memory.load8_of_covers (hc _ (by omega) (by omega)),
      Memory.load8_of_covers (hc _ (by omega) (by omega))]
    rfl
  have hrange : (programStart : Int) ≤ m.counter ∧ m.counter ≤ lastInstructionAddress :=
    ⟨hfirst, hlast⟩
  rw [fetch, if_pos hrange, hword]
  rfl

theorem fetch_of_not_onProgram (h : ¬m.OnProgram) : m.fetch = .error ⟨m.counter⟩ :=
  if_neg h

theorem advance_of_not_onProgram (h : ¬m.OnProgram) :
    m.advance = .halted m (.addressOutOfRange m.counter) := by
  rw [advance, fetch_of_not_onProgram h]
  rfl

theorem advance_of_decode_eq_none (h : m.OnProgram) (hw : Instruction.decode ⟨m.word⟩ = none) :
    m.advance = .halted m.passed (.unsupported m.word) := by
  rw [advance, fetch_of_onProgram h, onMemory]
  dsimp only
  rw [hw]

theorem advance_of_decode (h : m.OnProgram) {i : Instruction}
    (hw : Instruction.decode ⟨m.word⟩ = some i) : m.advance = m.passed.execute i := by
  rw [advance, fetch_of_onProgram h, onMemory]
  dsimp only
  rw [hw]

theorem counter_passed (m : Machine) : m.passed.counter = m.counter + 2 := rfl

theorem setCounter_passed (m : Machine) : m.passed.setCounter m.counter = m := rfl

/-- **The first half of a step** halts the machine, or carries out the instruction of the word. -/
theorem advance_cases (m : Machine) : (∃ m' r, m.advance = .halted m' r) ∨
    m.OnProgram ∧ ∃ i, Instruction.decode ⟨m.word⟩ = some i ∧ m.advance = m.passed.execute i := by
  by_cases hc : m.OnProgram
  · cases hw : Instruction.decode ⟨m.word⟩ with
    | none => exact .inl ⟨_, _, advance_of_decode_eq_none hc hw⟩
    | some i => exact .inr ⟨hc, i, rfl, advance_of_decode hc hw⟩
  · exact .inl ⟨_, _, advance_of_not_onProgram hc⟩

/-! ### Instructions that are not carried out -/

theorem keeps_onMemory {α : Type} {access : Except OutOfRange α} {next : α → Progress}
    (hnext : ∀ a, (next a).Keeps m) : (m.onMemory access next).Keeps m := by
  cases access with
  | error o => exact rfl
  | ok a => exact hnext a

theorem writeAtIndex_of_error {values : List Int} {memory : Ram} {o : OutOfRange}
    (hw : m.memory.writeBlock m.index values = (memory, .error o)) (next : Machine → Progress) :
    m.writeAtIndex values next = .halted m (.addressOutOfRange o.address) := by
  obtain ⟨rfl, -⟩ := Memory.writeBlock_eq_error_iff.mp hw
  rw [writeAtIndex, hw]
  rfl

theorem writeAtIndex_of_ok {values : List Int} {memory : Ram}
    (hw : m.memory.writeBlock m.index values = (memory, .ok ())) (next : Machine → Progress) :
    m.writeAtIndex values next = next { m with memory } := by
  rw [writeAtIndex, hw]
  rfl

theorem writeAtIndex_cases (m : Machine) (values : List Int) (next : Machine → Progress) :
    (∃ r, m.writeAtIndex values next = .halted m r) ∨
      ∃ memory, m.memory.writeBlock m.index values = (memory, .ok ()) ∧
        m.writeAtIndex values next = next { m with memory } := by
  rcases hw : m.memory.writeBlock m.index values with ⟨memory, o | ⟨⟩⟩
  · exact .inl ⟨_, writeAtIndex_of_error hw next⟩
  · exact .inr ⟨memory, rfl, writeAtIndex_of_ok hw next⟩

theorem keeps_writeAtIndex {values : List Int} {next : Machine → Progress}
    (hnext : ∀ m', (next m').Keeps m) : (m.writeAtIndex values next).Keeps m := by
  rcases writeAtIndex_cases m values next with ⟨r, h⟩ | ⟨memory, -, h⟩
  · rw [h]
    exact rfl
  · rw [h]
    exact hnext _

/-- **An instruction fails before it changes anything.**  The machine with which the program
halts, with which a random byte is asked for or with which a timer refuses a value is the one that
the instruction began with. -/
theorem keeps_execute (m : Machine) (i : Instruction) : (m.execute i).Keeps m := by
  cases i with
  | stop | random => exact rfl
  | ret =>
    rw [execute, CallStack.pop]
    cases m.stack.entries with
    | nil => exact rfl
    | cons a rest => trivial
  | call a =>
    rw [execute, CallStack.push]
    by_cases hfull : m.stack.depth ≤ m.stack.pointer
    · rw [if_pos hfull]
      exact rfl
    · rw [if_neg hfull]
      trivial
  | draw x y n => exact keeps_onMemory fun _ => trivial
  | awaitKey x =>
    rw [execute]
    split
    · split <;> trivial
    · trivial
  | setDelay x | setSound x =>
    rw [execute]
    split
    · exact rfl
    · trivial
  | decimal x | store x =>
    rw [execute]
    exact keeps_writeAtIndex fun _ => trivial
  | load x => exact keeps_onMemory fun _ => trivial
  | _ => trivial

theorem execute_eq_halted {i : Instruction} {r : HaltReason} (h : m.execute i = .halted m' r) :
    m' = m := by
  have hkeeps := keeps_execute m i
  rwa [h] at hkeeps

theorem keeps_advance (hhalts : ∀ m' r, m.advance ≠ .halted m' r) : m.advance.Keeps m.passed := by
  rcases advance_cases m with ⟨m', r, ha⟩ | ⟨-, i, -, ha⟩
  · exact absurd ha (hhalts m' r)
  · rw [ha]
    exact keeps_execute m.passed i

/-- **When the program halts, only the counter has moved.** -/
theorem advance_eq_halted {r : HaltReason} (ha : m.advance = .halted m' r) :
    m'.setCounter m.counter = m := by
  by_cases hc : m.OnProgram
  · cases hw : Instruction.decode ⟨m.word⟩ with
    | none =>
      rw [advance_of_decode_eq_none hc hw] at ha
      cases ha
      exact setCounter_passed m
    | some i =>
      rw [advance_of_decode hc hw] at ha
      rw [execute_eq_halted ha, setCounter_passed]
  · rw [advance_of_not_onProgram hc] at ha
    cases ha
    rfl

theorem advance_eq_drawing {x : Register} {mask : Nat} (ha : m.advance = .drawing m' x mask) :
    m' = m.passed := by
  have hkeeps := keeps_advance (m := m) fun _ _ h => by rw [ha] at h; cases h
  rwa [ha] at hkeeps

theorem advance_eq_refused {value : Int} (ha : m.advance = .refused m' value) :
    m' = m.passed := by
  have hkeeps := keeps_advance (m := m) fun _ _ h => by rw [ha] at h; cases h
  rwa [ha] at hkeeps

/-! ### The whole step -/

theorem step_of_isHalted {r : HaltReason} (hh : m.halted = some r) (byte : UInt8) :
    m.step byte = ⟨m, .ok (.halted r), false⟩ := by
  rw [step, hh]

theorem step_of_completed (hh : m.halted = none) (ha : m.advance = .completed m') (byte : UInt8) :
    m.step byte = ⟨m'.count, .ok .continue, false⟩ := by
  simp only [step, hh, ha]

theorem step_of_waiting (hh : m.halted = none) (ha : m.advance = .waiting m') (byte : UInt8) :
    m.step byte = ⟨m'.setCounter m.counter, .ok .awaitingKey, false⟩ := by
  simp only [step, hh, ha]

theorem halt_of_advance {r : HaltReason} (ha : m.advance = .halted m' r) :
    m'.halt m.counter r = m.halt m.counter r :=
  congrArg (fun n : Machine => { n with halted := some r }) (advance_eq_halted ha)

/-- A step that halts the program leaves the machine as it was, but for the halt. -/
theorem step_of_halted {r : HaltReason} (hh : m.halted = none) (ha : m.advance = .halted m' r)
    (byte : UInt8) : m.step byte = ⟨m.halt m.counter r, .ok (.halted r), false⟩ := by
  simp only [step, hh, ha, halt_of_advance ha]

theorem step_of_drawing {x : Register} {mask : Nat} (hh : m.halted = none)
    (ha : m.advance = .drawing m' x mask) (byte : UInt8) :
    m.step byte = ⟨m.passed.supply x mask byte, .ok .continue, true⟩ := by
  simp only [step, hh, ha, advance_eq_drawing ha]

theorem step_of_refused {value : Int} (hh : m.halted = none) (ha : m.advance = .refused m' value)
    (byte : UInt8) : m.step byte = ⟨m.passed, .error value, false⟩ := by
  simp only [step, hh, ha, advance_eq_refused ha]

/-- What a step comes to, for each ending of its first half. -/
inductive Ending (m : Machine) (byte : UInt8) : StepResult → Prop
  | stopped {r : HaltReason} (hh : m.halted = some r) : Ending m byte ⟨m, .ok (.halted r), false⟩
  | completed {m' : Machine} (hh : m.halted = none) (ha : m.advance = .completed m') :
    Ending m byte ⟨m'.count, .ok .continue, false⟩
  | waiting {m' : Machine} (hh : m.halted = none) (ha : m.advance = .waiting m') :
    Ending m byte ⟨m'.setCounter m.counter, .ok .awaitingKey, false⟩
  | halted {m' : Machine} {r : HaltReason} (hh : m.halted = none)
    (ha : m.advance = .halted m' r) : Ending m byte ⟨m.halt m.counter r, .ok (.halted r), false⟩
  | drawing {m' : Machine} {x : Register} {mask : Nat} (hh : m.halted = none)
    (ha : m.advance = .drawing m' x mask) :
    Ending m byte ⟨m.passed.supply x mask byte, .ok .continue, true⟩
  | refused {m' : Machine} {value : Int} (hh : m.halted = none)
    (ha : m.advance = .refused m' value) : Ending m byte ⟨m.passed, .error value, false⟩

/-- **Every step ends** in one of these ways. -/
theorem ending_step (m : Machine) (byte : UInt8) : Ending m byte (m.step byte) := by
  cases hh : m.halted with
  | some r =>
    rw [step_of_isHalted hh]
    exact .stopped hh
  | none =>
    cases ha : m.advance with
    | completed m' =>
      rw [step_of_completed hh ha]
      exact .completed hh ha
    | waiting m' =>
      rw [step_of_waiting hh ha]
      exact .waiting hh ha
    | halted m' r =>
      rw [step_of_halted hh ha]
      exact .halted hh ha
    | drawing m' x mask =>
      rw [step_of_drawing hh ha]
      exact .drawing hh ha
    | refused m' value =>
      rw [step_of_refused hh ha]
      exact .refused hh ha

end Machine

end Chip8
