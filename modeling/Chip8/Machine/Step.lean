import Chip8.Machine.Basic

/-!
# Steps of the machine

A step fetches the word at the program counter, moves the counter past it and
carries out the instruction.  It ends in one of these ways.

* The instruction is completed.
* The program waits for a key: the counter is put back, so that the next step
  meets the same instruction.
* The program halts: the counter is put back.  Whatever else the instruction has
  changed before it could not go on stays changed.
* A random byte is needed.  The step is then open, with the counter already
  moved, until the byte is supplied.
* A timer was to be set to a value that is no byte.  Only a host that has
  written a register directly gets there.  The counter stays moved and the
  instruction is not counted.

`step` joins the two halves of a step for a given random byte.
-/

namespace Chip8

/-- How the first half of a step ends, and with which machine. -/
inductive Progress
  /-- The instruction has been carried out. -/
  | completed (m : Machine)
  /-- The program waits for a key. -/
  | waiting (m : Machine)
  | halted (m : Machine) (reason : HaltReason)
  /-- The register `x` wants a random byte, of which the bits of `mask` are kept. -/
  | drawing (m : Machine) (x : Register) (mask : Nat)
  /-- A timer was to be set to a value that is no byte. -/
  | refused (m : Machine) (value : Int)

namespace Machine

def instructionSize : Int := 2

def lastInstructionAddress : Int := addressSpace - instructionSize

def skipIf (m : Machine) (condition : Bool) : Machine :=
  if condition then m.setCounter (m.counter + instructionSize) else m

/-- The low byte of `a` and `b` combined bit by bit. -/
def combine (op : LogicOp) (a b : Int) : Int :=
  let a := UInt8.ofInt a
  let b := UInt8.ofInt b
  let c := match op with
    | .or => a ||| b
    | .and => a &&& b
    | .xor => a ^^^ b
  c.toNat

def shiftOperand (m : Machine) (x y : Register) : Int :=
  if m.dialect.shiftUsesVy then m.v y else m.v x

/-- The three decimal digits of a value, as they are written for `Fx33`. -/
def decimalDigits (value : Int) : List Int :=
  [value / 100, value / 10 % 10, value % 10]

/-- Moves the index register past a transfer of `count` registers, where the dialect says so. -/
def passIndex (m : Machine) (count : Nat) : Machine :=
  if m.dialect.loadStoreIncrementsIndex then m.setIndex ((m.index + count) % 0x10000) else m

/-- An access outside the memory halts the program, with the machine that has made it. -/
def onMemory {α : Type} (m : Machine) (access : Except OutOfRange α) (next : α → Progress) :
    Progress :=
  match access with
  | .ok a => next a
  | .error e => .halted m (.addressOutOfRange e.address)

def writeAtIndex (m : Machine) (values : List Int) (next : Machine → Progress) : Progress :=
  let (memory, result) := m.memory.writeBlock m.index values
  let m := { m with memory }
  m.onMemory result fun _ => next m

/-- Carries out an instruction, past which the counter has already moved. -/
def execute (m : Machine) : Instruction → Progress
  | .stop => .halted m (.programEnd (m.counter - instructionSize))
  | .clear => .completed { m with display := m.display.clear }
  | .ret =>
    match m.stack.pop with
    | (stack, .error r) => .halted { m with stack } r
    | (stack, .ok a) => .completed ({ m with stack }.setCounter a)
  | .jump a => .completed (m.setCounter a)
  | .call a =>
    match m.stack.push m.counter with
    | (stack, .error r) => .halted { m with stack } r
    | (stack, .ok ()) => .completed ({ m with stack }.setCounter a)
  | .skipEqualByte x n => .completed (m.skipIf (m.v x == n))
  | .skipUnequalByte x n => .completed (m.skipIf (m.v x != n))
  | .skipEqual x y => .completed (m.skipIf (m.v x == m.v y))
  | .skipUnequal x y => .completed (m.skipIf (m.v x != m.v y))
  | .setByte x n => .completed (m.setV x n)
  | .addByte x n => .completed (m.setV x ((m.v x + n) % 0x100))
  | .copy x y => .completed (m.setV x (m.v y))
  | .logic op x y =>
    let m' := m.setV x (combine op (m.v x) (m.v y))
    .completed (if m.dialect.logicResetsVf then m'.setV flagRegister 0 else m')
  | .add x y =>
    let total := m.v x + m.v y
    .completed (m.setWithFlag x (total % 0x100) (0xFF < total))
  | .subtract x y =>
    .completed (m.setWithFlag x ((m.v x - m.v y) % 0x100) (m.v y ≤ m.v x))
  | .subtractFrom x y =>
    .completed (m.setWithFlag x ((m.v y - m.v x) % 0x100) (m.v x ≤ m.v y))
  | .shiftRight x y =>
    let value := m.shiftOperand x y
    .completed (m.setWithFlag x (value / 2) (value % 2 = 1))
  | .shiftLeft x y =>
    let value := m.shiftOperand x y
    .completed (m.setWithFlag x (value * 2 % 0x100) (value / 0x80 % 2 = 1))
  | .setIndex a => .completed (m.setIndex a)
  | .jumpOffset x a =>
    .completed (m.setCounter (a + m.v (if m.dialect.jumpUsesVx then x else firstRegister)))
  | .random x mask => .drawing m x mask
  | .draw x y n =>
    m.onMemory (m.memory.readBlock m.index n) fun rows =>
      let (display, collision) := m.display.draw (m.v x % displayWidth) (m.v y % displayHeight)
        (rows.map fun b => (b.toNat : Int))
      .completed { m with display, registers := m.registers.setFlag collision }
  | .skipPressed x => .completed (m.skipIf (m.keypad.isPressed (m.v x)))
  | .skipReleased x => .completed (m.skipIf (!m.keypad.isPressed (m.v x)))
  | .readDelay x => .completed (m.setV x m.timers.delay.toNat)
  | .awaitKey x =>
    if m.keypad.awaiting then
      match m.keypad.consume with
      | (keypad, none) => .waiting { m with keypad }
      | (keypad, some key) => .completed ({ m with keypad }.setV x key.val)
    else .waiting { m with keypad := m.keypad.beginWait }
  | .setDelay x =>
    match Timers.byte? (m.v x) with
    | none => .refused m (m.v x)
    | some b => .completed { m with timers := m.timers.setDelay b }
  | .setSound x =>
    match Timers.byte? (m.v x) with
    | none => .refused m (m.v x)
    | some b => .completed { m with timers := m.timers.setSound b }
  | .addIndex x => .completed (m.setIndex ((m.index + m.v x) % 0x10000))
  | .glyph x => .completed (m.setIndex (glyphAddress (m.v x)))
  | .decimal x => m.writeAtIndex (decimalDigits (m.v x)) .completed
  | .store x =>
    let count := x.val + 1
    m.writeAtIndex (m.registers.first count) fun m => .completed (m.passIndex count)
  | .load x =>
    let count := x.val + 1
    m.onMemory (m.memory.readBlock m.index count) fun values =>
      .completed (passIndex { m with registers := m.registers.setFirst values } count)

def fetch (m : Machine) : Except OutOfRange Word :=
  if programStart ≤ m.counter ∧ m.counter ≤ lastInstructionAddress then
    (m.memory.load16 m.counter).map fun w => ⟨w⟩
  else .error ⟨m.counter⟩

def passed (m : Machine) : Machine :=
  m.setCounter (m.counter + instructionSize)

/-- The first half of a step of a machine that has not halted. -/
def advance (m : Machine) : Progress :=
  m.onMemory m.fetch fun w =>
    match Instruction.decode w with
    | none => .halted m.passed (.unsupported w.raw)
    | some i => m.passed.execute i

def count (m : Machine) : Machine :=
  { m with completed := m.completed + 1 }

/-- The machine at `address` that has stopped for good. -/
def halt (m : Machine) (address : Int) (reason : HaltReason) : Machine :=
  { m with halted := some reason }.setCounter address

/-- The second half of a step: the random byte goes to its register. -/
def supply (m : Machine) (x : Register) (mask : Nat) (byte : UInt8) : Machine :=
  (m.setV x (byte &&& UInt8.ofNat mask).toNat).count

structure StepResult where
  machine : Machine
  /-- The status, or the value that no timer takes. -/
  status : Except Int Status
  /-- Whether the random byte was used. -/
  drew : Bool

def step (m : Machine) (byte : UInt8) : StepResult :=
  match m.halted with
  | some r => ⟨m, .ok (.halted r), false⟩
  | none =>
    match m.advance with
    | .completed m' => ⟨m'.count, .ok .continue, false⟩
    | .waiting m' => ⟨m'.setCounter m.counter, .ok .awaitingKey, false⟩
    | .halted m' r => ⟨m'.halt m.counter r, .ok (.halted r), false⟩
    | .drawing m' x mask => ⟨m'.supply x mask byte, .ok .continue, true⟩
    | .refused m' value => ⟨m', .error value, false⟩

end Machine

end Chip8
