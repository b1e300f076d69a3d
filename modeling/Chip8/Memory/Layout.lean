import Chip8.Memory.Basic

/-!
# The layout of the memory

The sprites of the sixteen hexadecimal digits lie at the bottom of the memory,
five bytes each.  A program is copied to `0x200` and may fill everything from
there to the end.

* `flatMap_rowsFrom`: a list that is cut into rows loses nothing.
-/

namespace Chip8

def fontStart : Nat := 0

def glyphHeight : Nat := 5

def fontSprites : List UInt8 := [
  0xF0, 0x90, 0x90, 0x90, 0xF0,
  0x20, 0x60, 0x20, 0x20, 0x70,
  0xF0, 0x10, 0xF0, 0x80, 0xF0,
  0xF0, 0x10, 0xF0, 0x10, 0xF0,
  0x90, 0x90, 0xF0, 0x10, 0x10,
  0xF0, 0x80, 0xF0, 0x10, 0xF0,
  0xF0, 0x80, 0xF0, 0x90, 0xF0,
  0xF0, 0x10, 0x20, 0x40, 0x40,
  0xF0, 0x90, 0xF0, 0x90, 0xF0,
  0xF0, 0x90, 0xF0, 0x10, 0xF0,
  0xF0, 0x90, 0xF0, 0x90, 0x90,
  0xE0, 0x90, 0xE0, 0x90, 0xE0,
  0xF0, 0x80, 0x80, 0x80, 0xF0,
  0xE0, 0x90, 0x90, 0x90, 0xE0,
  0xF0, 0x80, 0xF0, 0x80, 0xF0,
  0xF0, 0x80, 0xF0, 0x80, 0x80]

/-- The address of the sprite of a number's last hexadecimal digit. -/
def glyphAddress (digit : Int) : Int :=
  fontStart + digit % 16 * glyphHeight

def programStart : Nat := 0x200

def programCapacity : Nat := addressSpace - programStart

namespace Memory

variable {start size : Nat}

/-- Writes the sprites of the digits to the addresses from `a` on. -/
def installFont (m : Memory start size) (a : Int) : Memory start size × Except OutOfRange Unit :=
  m.writeBlock a (fontSprites.map fun b => (b.toNat : Int))

/-- The bytes from where programs begin to the end. -/
def programBytes (m : Ram) : List UInt8 :=
  m.bytes.drop programStart

end Memory

/-- The memory of a machine that has just been built: the sprites, and zeros after them. -/
def Ram.fresh : Ram :=
  ⟨Memory.putCells (Vector.replicate addressSpace 0) fontStart fontSprites⟩

/-! ### Rows -/

/-- A list cut into rows of sixteen, each with the place of its first element. -/
def rowsFrom (offset : Nat) : List UInt8 → List (Nat × List UInt8)
  | [] => []
  | b :: r => (offset, b :: r.take 15) :: rowsFrom (offset + 16) (r.drop 15)
  termination_by bs => bs.length
  decreasing_by simp only [List.length_drop, List.length_cons]; omega

theorem flatMap_rowsFrom : ∀ (offset : Nat) (bytes : List UInt8),
    (rowsFrom offset bytes).flatMap Prod.snd = bytes
  | _, [] => by rw [rowsFrom, List.flatMap_nil]
  | offset, b :: r => by
    rw [rowsFrom, List.flatMap_cons, flatMap_rowsFrom (offset + 16) (r.drop 15),
      List.cons_append, List.take_append_drop]
  termination_by _ bytes => bytes.length
  decreasing_by simp only [List.length_drop, List.length_cons]; omega

/-- The rows of sixteen bytes in which some byte is not zero, by their offsets. -/
def filledRows (bytes : List UInt8) : List (Nat × List UInt8) :=
  (rowsFrom 0 bytes).filter fun row => row.2.any (· != 0)

end Chip8
