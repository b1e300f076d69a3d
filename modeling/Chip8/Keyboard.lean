import Chip8.Keypad

/-!
# The host's keyboard

The four by four keys at the left of a keyboard stand for the sixteen keys of
the keypad.  A host key has a number; for letters and digits it is their ASCII
code.
-/

namespace Chip8.Keyboard

/-- The host keys that stand for keys of the keypad, row by row. -/
def layout : List (Char × Key) := [
  ('1', 0x1), ('2', 0x2), ('3', 0x3), ('4', 0xC),
  ('q', 0x4), ('w', 0x5), ('e', 0x6), ('r', 0xD),
  ('a', 0x7), ('s', 0x8), ('d', 0x9), ('f', 0xE),
  ('z', 0xA), ('x', 0x0), ('c', 0xB), ('v', 0xF)]

def key? (number : Int) : Option Key :=
  (layout.find? fun entry => (entry.1.toNat : Int) = number).map Prod.snd

/-- The numbers of the host keys that stand for keys, in increasing order, with those keys. -/
def sortedKeys : List (Nat × Key) :=
  (layout.map fun (c, k) => (c.toNat, k)).mergeSort fun a b => a.1 ≤ b.1

def escape : Int := 27

def reload : Int := 1073741886

def pause : Int := 'p'.toNat

end Chip8.Keyboard
