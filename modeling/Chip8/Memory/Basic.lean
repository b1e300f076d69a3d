import Chip8.Text.Hex

/-!
# Memory

A block of bytes that begins at some address.  The bytes are read and written
one at a time, as words of two bytes with the high one first, or as blocks.  An
address outside the block is refused with that address.  A block access looks
at its two ends only, and an access to no bytes at all is never refused.  What
is written and refused leaves the memory that there is at that moment.

* `load8_store8_self`, `load8_store8_of_ne`: a byte that is written is read
  back, and no other byte changes.
-/

namespace Chip8

/-- A block of `size` bytes whose first address is `start`. -/
structure Memory (start size : Nat) where
  cells : Vector UInt8 size
  deriving DecidableEq

def addressSpace : Nat := 0x1000

abbrev Ram := Memory 0 addressSpace

structure OutOfRange where
  address : Int
  deriving DecidableEq

namespace Memory

variable {start size : Nat}

def zero (start size : Nat) : Memory start size :=
  ⟨Vector.replicate size 0⟩

/-- A block may be made anywhere inside the address space, but not of no bytes. -/
def isValidRange (start size : Int) : Bool :=
  0 < size && 0 ≤ start && start + size ≤ addressSpace

def firstAddress (_ : Memory start size) : Int := start

def lastAddress (_ : Memory start size) : Int := (start : Int) + size - 1

abbrev Covers (start size : Nat) (a : Int) : Prop :=
  (start : Int) ≤ a ∧ a < start + size

def place {a : Int} (h : Covers start size a) : Fin size :=
  ⟨(a - start).toNat, by omega⟩

def contains (_ : Memory start size) (a : Int) : Bool :=
  decide (Covers start size a)

/-! ### Bytes -/

def load8 (m : Memory start size) (a : Int) : Except OutOfRange UInt8 :=
  if h : Covers start size a then .ok (m.cells.get (place h)) else .error ⟨a⟩

def store8 (m : Memory start size) (a v : Int) : Memory start size × Except OutOfRange Unit :=
  if h : Covers start size a then
    (⟨m.cells.set (place h) (UInt8.ofInt v) (place h).isLt⟩, .ok ())
  else (m, .error ⟨a⟩)

/-- The byte at an address, and zero outside the block. -/
def byteAt (m : Memory start size) (a : Int) : UInt8 :=
  if h : Covers start size a then m.cells.get (place h) else 0

theorem load8_of_covers {m : Memory start size} {a : Int} (h : Covers start size a) :
    m.load8 a = .ok (m.byteAt a) := by
  rw [load8, dif_pos h, byteAt, dif_pos h]

theorem load8_of_not_covers {m : Memory start size} {a : Int} (h : ¬Covers start size a) :
    m.load8 a = .error ⟨a⟩ := by
  rw [load8, dif_neg h]

theorem store8_of_not_covers {m : Memory start size} {a : Int} (v : Int)
    (h : ¬Covers start size a) : m.store8 a v = (m, .error ⟨a⟩) := by
  rw [store8, dif_neg h]

theorem load8_store8_self {m m' : Memory start size} {a v : Int}
    (h : m.store8 a v = (m', .ok ())) : m'.load8 a = .ok (UInt8.ofInt v) := by
  by_cases hc : Covers start size a
  · rw [store8, dif_pos hc] at h
    cases h
    rw [load8, dif_pos hc]
    exact congrArg Except.ok (Vector.getElem_set_self _)
  · rw [store8_of_not_covers v hc] at h
    cases h

theorem load8_store8_of_ne {m m' : Memory start size} {a b v : Int}
    (h : m.store8 a v = (m', .ok ())) (hne : b ≠ a) : m'.load8 b = m.load8 b := by
  by_cases hc : Covers start size a
  · rw [store8, dif_pos hc] at h
    cases h
    by_cases hb : Covers start size b
    · have hi : (place hc).val ≠ (place hb).val := by
        simp only [place]
        omega
      rw [load8, dif_pos hb, load8, dif_pos hb]
      exact congrArg Except.ok (Vector.getElem_set_ne (place hc).isLt (place hb).isLt hi)
    · rw [load8_of_not_covers hb, load8_of_not_covers hb]
  · rw [store8_of_not_covers v hc] at h
    cases h

/-! ### Words -/

/-- The word at an address and its successor, the high byte first. -/
def load16 (m : Memory start size) (a : Int) : Except OutOfRange Nat := do
  let high ← m.load8 a
  let low ← m.load8 (a + 1)
  return high.toNat * 256 + low.toNat

/-- Writes the low sixteen bits of a value, the high byte first.  When the second byte does not
fit any more, the first one has been written. -/
def store16 (m : Memory start size) (a v : Int) : Memory start size × Except OutOfRange Unit :=
  match m.store8 a (v / 256) with
  | (m₁, .error e) => (m₁, .error e)
  | (m₁, .ok ()) => m₁.store8 (a + 1) v

/-! ### Blocks -/

/-- The address that stands in the way of an access to `count` bytes from `a` on: the first one
if it lies before the block, else the last one if it lies after it. -/
def obstacle (m : Memory start size) (a : Int) (count : Nat) : Option Int :=
  if count = 0 then none
  else if a < m.firstAddress then some a
  else if m.lastAddress < a + count - 1 then some (a + count - 1)
  else none

def readBlock (m : Memory start size) (a : Int) (count : Nat) : Except OutOfRange (List UInt8) :=
  match m.obstacle a count with
  | some bad => .error ⟨bad⟩
  | none => .ok ((List.range count).map fun (i : Nat) => m.byteAt (a + i))

def putCells (cells : Vector UInt8 size) (i : Nat) : List UInt8 → Vector UInt8 size
  | [] => cells
  | b :: r => putCells (cells.setIfInBounds i b) (i + 1) r

/-- Writes the low bytes of the values to the addresses from `a` on. -/
def writeBlock (m : Memory start size) (a : Int) (values : List Int) :
    Memory start size × Except OutOfRange Unit :=
  match m.obstacle a values.length with
  | some bad => (m, .error ⟨bad⟩)
  | none => (⟨putCells m.cells (a - start).toNat (values.map UInt8.ofInt)⟩, .ok ())

/-- A memory of zeros in place of this one. -/
def clear (_ : Memory start size) : Memory start size :=
  zero start size

def bytes (m : Memory start size) : List UInt8 :=
  m.cells.toList

end Memory

/-! ### Traces of byte accesses -/

/-- One access to a byte, as a trace of the memory shows it. -/
inductive MemoryAccess
  | load (address : Int) (value : UInt8)
  | store (address : Int) (value : UInt8)
  deriving DecidableEq

namespace MemoryAccess

variable {start size : Nat}

def message : MemoryAccess → String
  | load a v => "load8: addr=" ++ Text.hex 3 a ++ " val=" ++ Text.hex 2 v.toNat
  | store a v => "store8: addr=" ++ Text.hex 3 a ++ " val=" ++ Text.hex 2 v.toNat

/-- A load is traced when it has been made. -/
def ofLoad8 (m : Memory start size) (a : Int) : List MemoryAccess :=
  match m.load8 a with
  | .ok v => [load a v]
  | .error _ => []

/-- A store is traced before it is tried. -/
def ofStore8 (a v : Int) : List MemoryAccess :=
  [store a (UInt8.ofInt v)]

def ofLoad16 (m : Memory start size) (a : Int) : List MemoryAccess :=
  ofLoad8 m a ++ if m.contains a then ofLoad8 m (a + 1) else []

def ofStore16 (m : Memory start size) (a v : Int) : List MemoryAccess :=
  ofStore8 a (v / 256) ++ if m.contains a then ofStore8 (a + 1) v else []

end MemoryAccess

end Chip8
