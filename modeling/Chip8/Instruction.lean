import Chip8.Text.Hex

/-!
# Instructions

An instruction is a word of sixteen bits.  Its first digit chooses a family, and
the digits after it are, as the family wants, two registers `x` and `y` and a
number of one, two or three digits, or a choice inside the family.

* `decode` is the instruction set: the instruction of a word, if it has one.
-/

namespace Chip8

abbrev Register := Fin 16

abbrev firstRegister : Register := ⟨0, by decide⟩

abbrev flagRegister : Register := Fin.last 15

/-- A word, read by its digits.  Only the low sixteen bits of an instruction's word count. -/
structure Word where
  raw : Int
  deriving DecidableEq

namespace Word

/-- The digit with the weight `16 ^ k`. -/
def digit (w : Word) (k : Nat) : Fin 16 :=
  ⟨(w.raw / Nat.pow 16 k % 16).toNat, by omega⟩

/-- The first digit, which chooses the family. -/
def family (w : Word) : Fin 16 := w.digit 3

def x (w : Word) : Register := w.digit 2

def y (w : Word) : Register := w.digit 1

def n (w : Word) : Nat := (w.digit 0).val

def nn (w : Word) : Nat := (w.raw % 0x100).toNat

def nnn (w : Word) : Nat := (w.raw % 0x1000).toNat

def text (w : Word) : String :=
  "0x" ++ Text.hex 4 w.raw

end Word

inductive LogicOp
  | or
  | and
  | xor
  deriving DecidableEq

inductive Instruction
  /-- The end of the program. -/
  | stop
  /-- Makes the display dark. -/
  | clear
  | ret
  | jump (target : Nat)
  | call (target : Nat)
  | skipEqualByte (x : Register) (value : Nat)
  | skipUnequalByte (x : Register) (value : Nat)
  | skipEqual (x y : Register)
  | skipUnequal (x y : Register)
  | setByte (x : Register) (value : Nat)
  | addByte (x : Register) (value : Nat)
  | copy (x y : Register)
  | logic (op : LogicOp) (x y : Register)
  /-- `Vx + Vy`, with the carry as flag. -/
  | add (x y : Register)
  /-- `Vx - Vy`; the flag says that nothing was borrowed. -/
  | subtract (x y : Register)
  /-- `Vy - Vx`; the flag says that nothing was borrowed. -/
  | subtractFrom (x y : Register)
  /-- Half of the operand, with the bit that falls out as flag. -/
  | shiftRight (x y : Register)
  /-- Twice the operand, with the bit that falls out as flag. -/
  | shiftLeft (x y : Register)
  | setIndex (value : Nat)
  /-- A jump to `target` and a register's value further; `x` is the target's first digit. -/
  | jumpOffset (x : Register) (target : Nat)
  /-- A random byte, of which the bits of `mask` are kept. -/
  | random (x : Register) (mask : Nat)
  /-- Draws the `n` bytes at the index register. -/
  | draw (x y : Register) (n : Nat)
  | skipPressed (x : Register)
  | skipReleased (x : Register)
  | readDelay (x : Register)
  | awaitKey (x : Register)
  | setDelay (x : Register)
  | setSound (x : Register)
  | addIndex (x : Register)
  /-- Points the index register to the sprite of a digit. -/
  | glyph (x : Register)
  /-- Writes the three decimal digits of a register. -/
  | decimal (x : Register)
  /-- Writes the registers up to `x`. -/
  | store (x : Register)
  /-- Reads the registers up to `x`. -/
  | load (x : Register)
  deriving DecidableEq

namespace Instruction

/-- The family `8`: operations on two registers, chosen by the last digit. -/
def arithmetic? (x y : Register) : Nat → Option Instruction
  | 0x0 => some (.copy x y)
  | 0x1 => some (.logic .or x y)
  | 0x2 => some (.logic .and x y)
  | 0x3 => some (.logic .xor x y)
  | 0x4 => some (.add x y)
  | 0x5 => some (.subtract x y)
  | 0x6 => some (.shiftRight x y)
  | 0x7 => some (.subtractFrom x y)
  | 0xE => some (.shiftLeft x y)
  | _ => none

/-- The family `F`: timers, keys and transfers, chosen by the last two digits. -/
def transfer? (x : Register) : Nat → Option Instruction
  | 0x07 => some (.readDelay x)
  | 0x0A => some (.awaitKey x)
  | 0x15 => some (.setDelay x)
  | 0x18 => some (.setSound x)
  | 0x1E => some (.addIndex x)
  | 0x29 => some (.glyph x)
  | 0x33 => some (.decimal x)
  | 0x55 => some (.store x)
  | 0x65 => some (.load x)
  | _ => none

def decode (w : Word) : Option Instruction :=
  match w.family.val with
  | 0x0 =>
    if w.raw = 0x0000 then some .stop
    else if w.raw = 0x00E0 then some .clear
    else if w.raw = 0x00EE then some .ret
    else none
  | 0x1 => some (.jump w.nnn)
  | 0x2 => some (.call w.nnn)
  | 0x3 => some (.skipEqualByte w.x w.nn)
  | 0x4 => some (.skipUnequalByte w.x w.nn)
  | 0x5 => if w.n = 0 then some (.skipEqual w.x w.y) else none
  | 0x6 => some (.setByte w.x w.nn)
  | 0x7 => some (.addByte w.x w.nn)
  | 0x8 => arithmetic? w.x w.y w.n
  | 0x9 => if w.n = 0 then some (.skipUnequal w.x w.y) else none
  | 0xA => some (.setIndex w.nnn)
  | 0xB => some (.jumpOffset w.x w.nnn)
  | 0xC => some (.random w.x w.nn)
  | 0xD => some (.draw w.x w.y w.n)
  | 0xE =>
    if w.nn = 0x9E then some (.skipPressed w.x)
    else if w.nn = 0xA1 then some (.skipReleased w.x)
    else none
  | 0xF => transfer? w.x w.nn
  | _ => none

end Instruction

end Chip8
