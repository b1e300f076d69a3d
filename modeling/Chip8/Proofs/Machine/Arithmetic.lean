import Chip8.Proofs.Instruction.Patterns
import Chip8.Proofs.Machine.Sound

/-!
# Results and flags

Five instructions of the family `8` leave a byte in their first register and say in
the flag register what the byte does not hold: a carry, that nothing was borrowed,
or the bit that a shift pushes out.  `FlagOp` names them.  Their operands are read
before anything is written, and the flag is written last, so that it does not matter
which of the registers are the same; only where the first one is the flag register
itself the byte is lost.

* `exists_execute`: an operation leaves a byte and a flag that make up its value.
* `advance_flagOp`: the step at the word of an operation.
-/

namespace Chip8

open PatternDigit (any)

/-- The operations that leave a byte and a flag. -/
inductive FlagOp
  | add
  | subtract
  | subtractFrom
  | shiftRight
  | shiftLeft
  deriving DecidableEq

namespace FlagOp

def digit : FlagOp → PatternDigit
  | add => 4
  | subtract => 5
  | shiftRight => 6
  | subtractFrom => 7
  | shiftLeft => 0xE

/-- The words of the operation. -/
def pattern (op : FlagOp) : Pattern :=
  ⟨8, any, any, op.digit⟩

def instruction (x y : Register) : FlagOp → Instruction
  | add => .add x y
  | subtract => .subtract x y
  | subtractFrom => .subtractFrom x y
  | shiftRight => .shiftRight x y
  | shiftLeft => .shiftLeft x y

/-- The flag for the operands `a` and `b`, of which a shift takes `s`. -/
def flag (a b s : Int) : FlagOp → Int
  | add => if a + b > 255 then 1 else 0
  | subtract => if a ≥ b then 1 else 0
  | subtractFrom => if b ≥ a then 1 else 0
  | shiftRight => s % 2
  | shiftLeft => if s ≥ 128 then 1 else 0

/-- The byte `r` and the flag `f` make up the operation's value. -/
def Exact (a b s r f : Int) : FlagOp → Prop
  | add => a + b = 256 * f + r
  | subtract => a - b = r - 256 * (1 - f)
  | subtractFrom => b - a = r - 256 * (1 - f)
  | shiftRight => s = 2 * r + f
  | shiftLeft => 2 * s = 256 * f + r

theorem reads_instruction {op : FlagOp} {w : Nat} {x y : Register} (hw : op.pattern.Matches w)
    (hx : Instruction.XReads w x) (hy : Instruction.YReads w y) :
    (op.instruction x y).Reads w := by
  cases op <;> exact ⟨hw, hx, hy⟩

end FlagOp

namespace Machine

variable {m : Machine}

theorem shiftOperand_byte {x y : Register} (ha : 0 ≤ m.v x ∧ m.v x ≤ 255)
    (hb : 0 ≤ m.v y ∧ m.v y ≤ 255) : 0 ≤ m.shiftOperand x y ∧ m.shiftOperand x y ≤ 255 := by
  rw [shiftOperand]
  split
  · exact hb
  · exact ha

/-- **A byte and a flag make up the value of an operation**, whichever of its registers are the
same. -/
theorem exists_execute {x y : Register} (op : FlagOp) (ha : 0 ≤ m.v x ∧ m.v x ≤ 255)
    (hb : 0 ≤ m.v y ∧ m.v y ≤ 255) : ∃ r flag,
      m.execute (op.instruction x y) = .completed (m.setWithFlag x r flag) ∧
      (0 ≤ r ∧ r ≤ 255) ∧
      (if flag then 1 else 0) = op.flag (m.v x) (m.v y) (m.shiftOperand x y) ∧
      op.Exact (m.v x) (m.v y) (m.shiftOperand x y) r
        (op.flag (m.v x) (m.v y) (m.shiftOperand x y)) := by
  have hs := shiftOperand_byte ha hb
  cases op with
  | add =>
    refine ⟨_, _, rfl, by omega, ?_, ?_⟩
    · simp only [FlagOp.flag, decide_eq_true_eq]
    · simp only [FlagOp.Exact, FlagOp.flag]
      split <;> omega
  | subtract | subtractFrom =>
    refine ⟨_, _, rfl, by omega, ?_, ?_⟩
    · simp only [FlagOp.flag, decide_eq_true_eq]
    · simp only [FlagOp.Exact, FlagOp.flag]
      split <;> omega
  | shiftRight =>
    refine ⟨_, _, rfl, by omega, ?_, ?_⟩
    · simp only [FlagOp.flag, decide_eq_true_eq]
      split <;> omega
    · simp only [FlagOp.Exact, FlagOp.flag]
      omega
  | shiftLeft =>
    refine ⟨_, _, rfl, by omega, ?_, ?_⟩
    · simp only [FlagOp.flag, decide_eq_true_eq]
      split <;> split <;> omega
    · simp only [FlagOp.Exact, FlagOp.flag]
      split <;> omega

theorem v_setWithFlag (m : Machine) (x z : Register) (r : Int) (flag : Bool) :
    (m.setWithFlag x r flag).v z =
      if flagRegister = z then (if flag then 1 else 0) else if x = z then r else m.v z := by
  show ((m.setV x r).setV flagRegister (if flag then 1 else 0)).v z = _
  rw [v_setV, v_setV]

/-- **The step at the word of an operation** carries the operation out and goes on. -/
theorem advance_flagOp {op : FlagOp} {x y : Register} (hc : m.OnProgram)
    (hw : op.pattern.Matches m.word) (hx : Instruction.XReads m.word x)
    (hy : Instruction.YReads m.word y) (ha : 0 ≤ m.v x ∧ m.v x ≤ 255)
    (hb : 0 ≤ m.v y ∧ m.v y ≤ 255) : ∃ r flag,
      m.advance = .completed (m.passed.setWithFlag x r flag) ∧
      (0 ≤ r ∧ r ≤ 255) ∧
      (if flag then 1 else 0) = op.flag (m.v x) (m.v y) (m.shiftOperand x y) ∧
      op.Exact (m.v x) (m.v y) (m.shiftOperand x y) r
        (op.flag (m.v x) (m.v y) (m.shiftOperand x y)) := by
  have hdecode : Instruction.decode ⟨m.word⟩ = some (op.instruction x y) :=
    Instruction.decode_of_reads m.word_lt (FlagOp.reads_instruction hw hx hy)
  obtain ⟨r, flag, hexecute, hvalue⟩ := exists_execute (m := m.passed) op ha hb
  exact ⟨r, flag, (advance_of_decode hc hdecode).trans hexecute, hvalue⟩

end Machine

end Chip8
