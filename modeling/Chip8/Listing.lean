import Chip8.AddressRange

/-!
# Listings of the memory

A listing has a block for each range: a header line, and then a line for each
row of sixteen bytes that the range meets, with the row's address and its bytes.
Blocks are separated by an empty line.
-/

namespace Chip8

namespace Listing

def rowWidth : Nat := 16

def headerLine : List Char :=
  "ADR +0 +1 +2 +3 +4 +5 +6 +7 +8 +9 +A +B +C +D +E +F".toList

def rowLine (m : Ram) (address : Int) : Except OutOfRange (List Char) := do
  let cells ← (List.range rowWidth).mapM fun (i : Nat) => m.load8 (address + i)
  return Text.hexChars 3 address ++ cells.flatMap fun b => ' ' :: Text.hexChars 2 b.toNat

/-- The addresses of the rows that a range meets. -/
def rowAddresses (r : AddressRange) : List Int :=
  let start := r.first - r.first % rowWidth
  (List.range ((r.last - start) / rowWidth + 1).toNat).map fun (i : Nat) => start + i * rowWidth

/-- The addresses of all cells in the rows that ranges meet, in the order of the listing. -/
def cellAddresses (ranges : List AddressRange) : List Int :=
  ranges.flatMap fun r => (rowAddresses r).flatMap fun address =>
    (List.range rowWidth).map fun (i : Nat) => address + i

def blockLines (m : Ram) (r : AddressRange) : Except OutOfRange (List (List Char)) := do
  let rows ← (rowAddresses r).mapM (rowLine m)
  return headerLine :: rows

def chars (m : Ram) (ranges : List AddressRange) : Except OutOfRange (List Char) := do
  let blocks ← ranges.mapM (blockLines m)
  return List.intercalate ['\n', '\n'] (blocks.map fun lines => List.intercalate ['\n'] lines)

end Listing

end Chip8
