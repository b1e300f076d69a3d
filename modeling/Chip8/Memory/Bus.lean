import Chip8.Memory.Layout
import Chip8.Refusal

/-!
# The memory bus

The calls by which a memory is read and written from outside.  A bus can report
the bytes that such calls read and write: a load once it has been made, a store
before it is tried.  Blocks are read and written without a report.
-/

namespace Chip8

/-- A memory, and whether the bytes that are read and written are reported. -/
structure Bus (start size : Nat) where
  memory : Memory start size
  tracing : Bool

inductive BusCall
  | load8 (address : Int)
  | store8 (address value : Int)
  | load16 (address : Int)
  | store16 (address value : Int)
  | contains (address : Int)
  | firstAddress
  | lastAddress
  | bytes
  | readBlock (address count : Int)
  | writeBlock (address : Int) (values : List Int)
  | clear
  | installFont (address : Int)
  /-- A byte of the part where programs lie. -/
  | programByte (index : Int)
  /-- All bytes of that part. -/
  | programBytes
  /-- Switches the reports. -/
  | trace (on : Bool)

inductive BusAnswer
  | nothing
  | flag (holds : Bool)
  | number (n : Int)
  | bytes (data : List UInt8)

structure BusResult (start size : Nat) where
  answer : Except Refusal BusAnswer
  accesses : List MemoryAccess
  bus : Bus start size

namespace Bus

open MemoryAccess (ofLoad8 ofStore8 ofLoad16 ofStore16)

variable {start size : Nat}

def reported (b : Bus start size) (accesses : List MemoryAccess) : List MemoryAccess :=
  if b.tracing then accesses else []

/-- A call that changes nothing and cannot fail. -/
def tell (b : Bus start size) (answer : BusAnswer) : BusResult start size :=
  ⟨.ok answer, [], b⟩

def refuse (b : Bus start size) (r : Refusal) : BusResult start size :=
  ⟨.error r, [], b⟩

/-- What has been read, or why it could not be read. -/
def read {α : Type} (b : Bus start size) (x : Except OutOfRange α) (f : α → BusAnswer)
    (accesses : List MemoryAccess) : BusResult start size :=
  ⟨(x.mapError Refusal.ofOutOfRange).map f, b.reported accesses, b⟩

def write (b : Bus start size) (x : Memory start size × Except OutOfRange Unit)
    (answer : BusAnswer) (accesses : List MemoryAccess) : BusResult start size :=
  { b with memory := x.1 }.read x.2 (fun _ => answer) accesses

def respond (b : Bus start size) : BusCall → BusResult start size
  | .load8 a => b.read (b.memory.load8 a) (fun v => .number v.toNat) (ofLoad8 b.memory a)
  | .store8 a v => b.write (b.memory.store8 a v) .nothing (ofStore8 a v)
  | .load16 a => b.read (b.memory.load16 a) (fun w => .number w) (ofLoad16 b.memory a)
  | .store16 a v => b.write (b.memory.store16 a v) .nothing (ofStore16 b.memory a v)
  | .contains a => b.tell (.flag (b.memory.contains a))
  | .firstAddress => b.tell (.number b.memory.firstAddress)
  | .lastAddress => b.tell (.number b.memory.lastAddress)
  | .bytes => b.tell (.bytes b.memory.bytes)
  | .readBlock a count =>
    if count < 0 then b.refuse .negativeLength
    else b.read (b.memory.readBlock a count.toNat) .bytes []
  | .writeBlock a values => b.write (b.memory.writeBlock a values) (.number values.length) []
  | .clear => { b with memory := b.memory.clear }.tell .nothing
  | .installFont a => b.write (b.memory.installFont a) .nothing []
  | .programByte i =>
    if i < 0 ∨ (programCapacity : Int) ≤ i then b.refuse .programIndexOutOfRange
    else
      b.read (b.memory.load8 (programStart + i)) (fun v => .number v.toNat)
        (ofLoad8 b.memory (programStart + i))
  | .programBytes => b.read (b.memory.readBlock programStart programCapacity) .bytes []
  | .trace on => { b with tracing := on }.tell .nothing

end Bus

end Chip8
