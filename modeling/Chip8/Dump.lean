import Chip8.Listing

/-!
# Dumps of the memory

A dump shows ranges of the memory after they have been merged, either as a
listing or as the bytes themselves, one range after the other.
-/

namespace Chip8

inductive DumpFormat
  /-- A listing in hexadecimal numbers. -/
  | hex
  /-- The bytes themselves. -/
  | bin
  /-- No dump at all. -/
  | none
  deriving DecidableEq

namespace DumpFormat

def choices : List (String × DumpFormat) :=
  [("hex", hex), ("bin", bin), ("none", none)]

end DumpFormat

namespace Dump

/-- The bytes in ranges, one range after the other. -/
def bytes (m : Ram) (ranges : List AddressRange) : Except OutOfRange (List UInt8) := do
  let blocks ← ranges.mapM fun r => m.readBlock r.first (r.last - r.first + 1).toNat
  return blocks.flatten

/-- A listing as it is written: characters below 128 are their own bytes. -/
def listingBytes (m : Ram) (ranges : List AddressRange) : Except OutOfRange (List UInt8) := do
  let chars ← Listing.chars m ranges
  return (chars ++ ['\n']).map fun c => UInt8.ofNat c.toNat

/-- What is written for the merged ranges. -/
def contents (format : DumpFormat) (m : Ram) (ranges : List AddressRange) :
    Except OutOfRange (List UInt8) :=
  match format with
  | .hex => listingBytes m (AddressRange.merge ranges)
  | .bin => bytes m (AddressRange.merge ranges)
  | .none => .ok []

/-- The accesses to single bytes that a dump takes. -/
def accesses (format : DumpFormat) (m : Ram) (ranges : List AddressRange) : List MemoryAccess :=
  match format with
  | .hex => (Listing.cellAddresses (AddressRange.merge ranges)).flatMap (MemoryAccess.ofLoad8 m)
  | _ => []

end Dump

end Chip8
