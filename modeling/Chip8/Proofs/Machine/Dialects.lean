import Chip8.Proofs.Instruction.Patterns
import Chip8.Proofs.Machine.Step

/-!
# Machines in another dialect

A variant of the dialect changes what a few instructions do.  `Variant.Concerns`
lists the words of these instructions by their digits: shifts of one register
into another, the logical operations, the jump with an offset from another
register than `V0`, and the transfers of registers.  The dialect is consulted
nowhere else, so that a machine makes the same step in every dialect, unless it
completes an instruction that is concerned by a variant in which the dialects
differ.

* `execute_inDialect`: one instruction, by cases.
* `step_inDialect`: a whole step, by the word at the counter.
-/

namespace Chip8

open PatternDigit (any)

/-- The variant changes what the instruction does. -/
def Instruction.DependsOn : Instruction → Variant → Prop
  | .shiftRight x y, .shiftUsesVy => x ≠ y
  | .shiftLeft x y, .shiftUsesVy => x ≠ y
  | .logic _ _ _, .logicResetsVf => True
  | .jumpOffset x _, .jumpUsesVx => x ≠ firstRegister
  | .store _, .loadStoreIncrementsIndex => True
  | .load _, .loadStoreIncrementsIndex => True
  | _, _ => False

/-- The words of the instructions that a variant changes. -/
def Variant.Concerns (w : Nat) : Variant → Prop
  | .shiftUsesVy =>
    (Pattern.Matches ⟨8, any, any, 6⟩ w ∨ Pattern.Matches ⟨8, any, any, 0xE⟩ w) ∧
      w / 0x100 % 16 ≠ w / 0x10 % 16
  | .logicResetsVf =>
    Pattern.Matches ⟨8, any, any, 1⟩ w ∨ Pattern.Matches ⟨8, any, any, 2⟩ w ∨
      Pattern.Matches ⟨8, any, any, 3⟩ w
  | .jumpUsesVx => Pattern.Matches ⟨0xB, any, any, any⟩ w ∧ w / 0x100 % 16 ≠ 0
  | .loadStoreIncrementsIndex =>
    Pattern.Matches ⟨0xF, any, 5, 5⟩ w ∨ Pattern.Matches ⟨0xF, any, 6, 5⟩ w

instance (w : Nat) : (v : Variant) → Decidable (v.Concerns w)
  | .shiftUsesVy | .jumpUsesVx => inferInstanceAs (Decidable (_ ∧ _))
  | .logicResetsVf | .loadStoreIncrementsIndex => inferInstanceAs (Decidable (_ ∨ _))

theorem Instruction.DependsOn.concerns {i : Instruction} {v : Variant} {w : Nat}
    (h : i.DependsOn v) (hw : i.Reads w) : v.Concerns w := by
  cases v with
  | shiftUsesVy =>
    cases i with
    | shiftRight x y =>
      obtain ⟨hm, hx, hy⟩ := hw
      exact ⟨.inl hm, fun heq => h (Fin.ext (hx.trans (heq.trans hy.symm)))⟩
    | shiftLeft x y =>
      obtain ⟨hm, hx, hy⟩ := hw
      exact ⟨.inr hm, fun heq => h (Fin.ext (hx.trans (heq.trans hy.symm)))⟩
    | _ => exact h.elim
  | jumpUsesVx =>
    cases i with
    | jumpOffset x a =>
      obtain ⟨hm, hx, -⟩ := hw
      exact ⟨hm, fun heq => h (Fin.ext (hx.trans heq))⟩
    | _ => exact h.elim
  | logicResetsVf =>
    cases i with
    | logic op x y =>
      cases op with
      | or => exact .inl hw.1
      | and => exact .inr (.inl hw.1)
      | xor => exact .inr (.inr hw.1)
    | _ => exact h.elim
  | loadStoreIncrementsIndex =>
    cases i with
    | store x => exact .inl hw.1
    | load x => exact .inr hw.1
    | _ => exact h.elim

/-! ### The same machine in another dialect -/

namespace Machine

def inDialect (m : Machine) (dialect : Dialect) : Machine :=
  { m with dialect }

end Machine

def Progress.inDialect (d : Dialect) : Progress → Progress
  | .completed m => .completed (m.inDialect d)
  | .waiting m => .waiting (m.inDialect d)
  | .halted m r => .halted (m.inDialect d) r
  | .drawing m x mask => .drawing (m.inDialect d) x mask
  | .refused m value => .refused (m.inDialect d) value

def Machine.StepResult.inDialect (s : Machine.StepResult) (d : Dialect) : Machine.StepResult :=
  { s with machine := s.machine.inDialect d }

namespace Machine

variable {m : Machine} {d : Dialect}

@[simp] theorem inDialect_dialect (m : Machine) (d : Dialect) : (m.inDialect d).dialect = d := rfl

@[simp] theorem inDialect_memory (m : Machine) (d : Dialect) :
    (m.inDialect d).memory = m.memory := rfl

@[simp] theorem inDialect_stack (m : Machine) (d : Dialect) : (m.inDialect d).stack = m.stack := rfl

@[simp] theorem inDialect_keypad (m : Machine) (d : Dialect) :
    (m.inDialect d).keypad = m.keypad := rfl

@[simp] theorem inDialect_counter (m : Machine) (d : Dialect) :
    (m.inDialect d).counter = m.counter := rfl

@[simp] theorem inDialect_v (m : Machine) (d : Dialect) (x : Register) :
    (m.inDialect d).v x = m.v x := rfl

theorem skipIf_inDialect (m : Machine) (d : Dialect) (condition : Bool) :
    (m.inDialect d).skipIf condition = (m.skipIf condition).inDialect d := by
  cases condition <;> rfl

/-- The operand of a shift of a register into itself is the same in every dialect. -/
theorem shiftOperand_inDialect {x y : Register}
    (h : x ≠ y → m.dialect.shiftUsesVy = d.shiftUsesVy) :
    (m.inDialect d).shiftOperand x y = m.shiftOperand x y := by
  by_cases hxy : x = y
  · rw [shiftOperand, shiftOperand, hxy, ite_self, ite_self]
    rfl
  · rw [shiftOperand, shiftOperand, h hxy]
    rfl

theorem passIndex_inDialect
    (h : m.dialect.loadStoreIncrementsIndex = d.loadStoreIncrementsIndex) (count : Nat) :
    (m.inDialect d).passIndex count = (m.passIndex count).inDialect d := by
  rw [passIndex, passIndex, h]
  rw [inDialect_dialect]
  cases d.loadStoreIncrementsIndex <;> rfl

theorem onMemory_inDialect {α : Type} {access : Except OutOfRange α} {next next' : α → Progress}
    (h : ∀ a, access = .ok a → next' a = (next a).inDialect d) :
    (m.inDialect d).onMemory access next' = (m.onMemory access next).inDialect d := by
  cases access with
  | error o => rfl
  | ok a => exact h a rfl

theorem writeAtIndex_inDialect {values : List Int} {next next' : Machine → Progress}
    (h : ∀ memory, m.memory.writeBlock m.index values = (memory, .ok ()) →
      next' (inDialect { m with memory } d) = (next { m with memory }).inDialect d) :
    (m.inDialect d).writeAtIndex values next' = (m.writeAtIndex values next).inDialect d := by
  rcases hw : m.memory.writeBlock m.index values with ⟨memory, o | ⟨⟩⟩
  · have hw' : (m.inDialect d).memory.writeBlock (m.inDialect d).index values =
        (memory, .error o) := hw
    rw [writeAtIndex_of_error hw, writeAtIndex_of_error hw']
    rfl
  · have hw' : (m.inDialect d).memory.writeBlock (m.inDialect d).index values =
        (memory, .ok ()) := hw
    rw [writeAtIndex_of_ok hw, writeAtIndex_of_ok hw', ← h memory hw]
    rfl

/-- **An instruction does the same in another dialect**, unless it is completed and depends on a
variant in which the dialects differ. -/
theorem execute_inDialect {i : Instruction}
    (h : ∀ m', m.execute i = .completed m' → ∀ v, i.DependsOn v → m.dialect.has v = d.has v) :
    (m.inDialect d).execute i = (m.execute i).inDialect d := by
  cases i with
  | ret =>
    rw [execute, execute, inDialect_stack]
    rcases m.stack.pop with ⟨s, r | a⟩ <;> rfl
  | call a =>
    rw [execute, execute, inDialect_stack, inDialect_counter]
    rcases m.stack.push m.counter with ⟨s, r | ⟨⟩⟩ <;> rfl
  | skipEqualByte x n | skipUnequalByte x n | skipEqual x y | skipUnequal x y | skipPressed x
  | skipReleased x =>
    exact congrArg Progress.completed (skipIf_inDialect m d _)
  | logic op x y =>
    have hd : m.dialect.logicResetsVf = d.logicResetsVf := h _ rfl .logicResetsVf trivial
    rw [execute, execute, hd]
    rw [inDialect_dialect]
    cases d.logicResetsVf <;> rfl
  | shiftRight x y | shiftLeft x y =>
    have hoperand : (m.inDialect d).shiftOperand x y = m.shiftOperand x y :=
      shiftOperand_inDialect fun hxy => h _ rfl .shiftUsesVy hxy
    rw [execute, execute, hoperand]
    rfl
  | jumpOffset x a =>
    by_cases hx : x = firstRegister
    · rw [execute, execute, hx, ite_self, ite_self]
      rfl
    · have hd : m.dialect.jumpUsesVx = d.jumpUsesVx := h _ rfl .jumpUsesVx hx
      rw [execute, execute, hd]
      rfl
  | draw x y n => exact onMemory_inDialect fun rows _ => rfl
  | decimal x =>
    rw [execute, execute]
    exact writeAtIndex_inDialect fun memory _ => rfl
  | awaitKey x =>
    rw [execute, execute, inDialect_keypad]
    cases m.keypad.awaiting with
    | false => rfl
    | true => rcases m.keypad.consume with ⟨keypad, _ | key⟩ <;> rfl
  | setDelay x | setSound x =>
    rw [execute, execute, inDialect_v]
    cases Timers.byte? (m.v x) <;> rfl
  | store x =>
    rw [execute, execute]
    refine writeAtIndex_inDialect fun memory hwrite => ?_
    have hcompleted := writeAtIndex_of_ok hwrite fun n => .completed (n.passIndex (x.val + 1))
    have hd : m.dialect.loadStoreIncrementsIndex = d.loadStoreIncrementsIndex :=
      h _ hcompleted .loadStoreIncrementsIndex trivial
    exact congrArg Progress.completed (passIndex_inDialect (m := { m with memory }) hd _)
  | load x =>
    refine onMemory_inDialect fun values hread => ?_
    have hcompleted := congrArg (m.onMemory · fun values =>
      .completed (passIndex { m with registers := m.registers.setFirst values } (x.val + 1))) hread
    have hd : m.dialect.loadStoreIncrementsIndex = d.loadStoreIncrementsIndex :=
      h _ hcompleted .loadStoreIncrementsIndex trivial
    exact congrArg Progress.completed
      (passIndex_inDialect (m := { m with registers := m.registers.setFirst values }) hd _)
  | _ => rfl

theorem advance_inDialect
    (h : ∀ m', m.advance = .completed m' → ∀ v : Variant, v.Concerns m.word →
      m.dialect.has v = d.has v) :
    (m.inDialect d).advance = m.advance.inDialect d := by
  by_cases hc : m.OnProgram
  case neg =>
    have hc' : ¬(m.inDialect d).OnProgram := hc
    rw [advance_of_not_onProgram hc, advance_of_not_onProgram hc']
    rfl
  have hc' : (m.inDialect d).OnProgram := hc
  cases hw : Instruction.decode ⟨m.word⟩ with
  | none =>
    rw [advance_of_decode_eq_none hc hw, advance_of_decode_eq_none hc' hw]
    rfl
  | some i =>
    have hreads := Instruction.reads_of_decode m.word_lt hw
    rw [advance_of_decode hc hw] at h ⊢
    rw [advance_of_decode hc' hw]
    exact execute_inDialect fun m' hm v hv => h m' hm v (hv.concerns hreads)

/-- **A step is the same in another dialect**, unless it continues at a word that is concerned by a
variant in which the dialects differ. -/
theorem step_inDialect (byte : UInt8)
    (h : (m.step byte).status = .ok .continue → ∀ v : Variant, v.Concerns m.word →
      m.dialect.has v = d.has v) :
    (m.inDialect d).step byte = (m.step byte).inDialect d := by
  cases hh : m.halted with
  | some r =>
    have hh' : (m.inDialect d).halted = some r := hh
    rw [step_of_isHalted hh, step_of_isHalted hh']
    rfl
  | none =>
    have hh' : (m.inDialect d).halted = none := hh
    have hadvance : (m.inDialect d).advance = m.advance.inDialect d := by
      refine advance_inDialect fun m' hm => h ?_
      rw [step_of_completed hh hm]
    cases ha : m.advance with
    | completed m' =>
      rw [ha] at hadvance
      rw [step_of_completed hh ha, step_of_completed hh' hadvance]
      rfl
    | waiting m' =>
      rw [ha] at hadvance
      rw [step_of_waiting hh ha, step_of_waiting hh' hadvance]
      rfl
    | halted m' r =>
      rw [ha] at hadvance
      rw [step_of_halted hh ha, step_of_halted hh' hadvance]
      rfl
    | drawing m' x mask =>
      rw [ha] at hadvance
      rw [step_of_drawing hh ha, step_of_drawing hh' hadvance]
      rfl
    | refused m' value =>
      rw [ha] at hadvance
      rw [step_of_refused hh ha, step_of_refused hh' hadvance]
      rfl

end Machine

end Chip8
