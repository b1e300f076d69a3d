/-!
# Exact conversions of binary floating-point numbers

Rates and durations are binary floating-point numbers of 64 bits; clocks and
counters are integers.  The conversions between them are exact to any size: a
number is taken apart into a sign, a significand and a power of two, and cut or
rounded as an integer.

* `Dyadic.truncate` drops the fraction.
* `Dyadic.round` goes to the nearest integer, and to the even one of two.
* `ofInt?` is the nearest number to an integer, and fails beyond the range.
-/

namespace Chip8.Binary64

/-- Why a number has no counterpart. -/
inductive ConversionError
  /-- An infinite number is no integer. -/
  | infinite
  /-- A number that is not a number is no integer. -/
  | notANumber
  /-- The integer lies beyond the finite numbers. -/
  | tooLarge
  deriving DecidableEq

def ConversionError.message : ConversionError → String
  | infinite => "cannot convert float infinity to integer"
  | notANumber => "cannot convert float NaN to integer"
  | tooLarge => "int too large to convert to float"

def twoPow (n : Nat) : Nat :=
  Nat.pow 2 n

/-- The finite number `± significand · 2 ^ exponent`. -/
structure Dyadic where
  negative : Bool
  significand : Nat
  exponent : Int
  deriving DecidableEq

/-- Gives a magnitude its sign. -/
def signed (negative : Bool) (n : Nat) : Int :=
  if negative then -(n : Int) else n

/-- The integer that is left when the fraction is dropped. -/
def Dyadic.truncate (d : Dyadic) : Int :=
  signed d.negative <|
    if 0 ≤ d.exponent then d.significand * twoPow d.exponent.toNat
    else d.significand / twoPow (-d.exponent).toNat

/-- The quotient rounded to the nearest integer, to the even one of two. -/
def roundQuotient (n d : Nat) : Nat :=
  let q := n / d
  let r := n % d
  if 2 * r < d then q
  else if d < 2 * r then q + 1
  else if q % 2 = 0 then q else q + 1

/-- The nearest integer, the even one of two. -/
def Dyadic.round (d : Dyadic) : Int :=
  signed d.negative <|
    if 0 ≤ d.exponent then d.significand * twoPow d.exponent.toNat
    else roundQuotient d.significand (twoPow (-d.exponent).toNat)

/-- Takes the 64 bits of a number apart. -/
def decodeBits (bits : Nat) : Except ConversionError Dyadic :=
  let negative : Bool := bits / twoPow 63 % 2 == 1
  let biased : Nat := bits / twoPow 52 % twoPow 11
  let fraction : Nat := bits % twoPow 52
  if biased = 2047 then
    if fraction = 0 then .error .infinite else .error .notANumber
  else if biased = 0 then .ok ⟨negative, fraction, -1074⟩
  else .ok ⟨negative, twoPow 52 + fraction, (biased : Int) - 1075⟩

/-- A number as a sign, a significand and a power of two. -/
def decode (x : Float) : Except ConversionError Dyadic :=
  decodeBits x.toBits.toNat

def truncate (x : Float) : Except ConversionError Int :=
  (decode x).map Dyadic.truncate

def round (x : Float) : Except ConversionError Int :=
  (decode x).map Dyadic.round

/-- The number nearest to `± n · 10 ^ e`. -/
def ofDecimal (negative : Bool) (n : Nat) (e : Int) : Float :=
  let x := Float.ofScientific n (e < 0) e.natAbs
  if negative then -x else x

def ofInt? (z : Int) : Except ConversionError Float :=
  let x := ofDecimal (z < 0) z.natAbs 0
  if x.isInf then .error .tooLarge else .ok x

def scale (z : Int) (x : Float) : Except ConversionError Float :=
  (ofInt? z).map (· * x)

end Chip8.Binary64
