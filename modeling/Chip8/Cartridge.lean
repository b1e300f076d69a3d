import Chip8.Memory.Layout
import Chip8.Refusal
import Chip8.Text.Path

/-!
# Cartridges

The image of a program: its bytes, at least one and at most as many as fit into
the memory from where programs begin, a name, and the file it came from if it
came from one.  The name of a file's image is the file's name without its suffix
in capital letters.

* `check_eq_ok_iff`: which bytes can be an image.
-/

namespace Chip8

structure Cartridge where
  data : List UInt8
  name : String
  path : Option String
  deriving DecidableEq

namespace Cartridge

/-- Refuses bytes that cannot be an image. -/
def check (data : List UInt8) : Except Refusal (List UInt8) :=
  if data.isEmpty then .error .emptyRom
  else if programCapacity < data.length then .error (.oversizedRom data.length programCapacity)
  else .ok data

theorem check_eq_ok_iff {data data' : List UInt8} :
    check data = .ok data' ↔ data' = data ∧ data ≠ [] ∧ data.length ≤ programCapacity := by
  unfold check
  split
  · next h => simp_all
  · next h =>
    split
    · next h' => simp; omega
    · next h' =>
      have : data ≠ [] := by simpa using h
      simp only [Except.ok.injEq]
      exact ⟨fun e => ⟨e.symm, this, by omega⟩, fun e => e.1.symm⟩

def size (c : Cartridge) : Nat :=
  c.data.length

def lastAddress (c : Cartridge) : Int :=
  (programStart : Int) + c.size - 1

/-- The first eight bytes. -/
def head (c : Cartridge) : List UInt8 :=
  c.data.take 8

/-- The suffixes that files with images usually have. -/
def usualSuffixes : List String :=
  [".ch8", ".c8", ".rom", ".bin"]

/-- Whether a file's suffix, if there is one, is unusual. -/
def hasUnusualSuffix (path : String) : Bool :=
  let suffix := Text.fileSuffix path
  !suffix.isEmpty && !usualSuffixes.contains (String.ofList (Text.lower suffix.toList))

def nameOfFile (path : String) : String :=
  String.ofList (Text.upper (Text.fileStem path).toList)

end Cartridge

end Chip8
