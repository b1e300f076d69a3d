import Chip8.Text.Blank

/-!
# Reading integers

A numeral may have blanks around it, a sign, and single underscores between its
digits.  Decimal digits of every script count with their values; in base
sixteen the letters `a` to `f` of either case follow them, and one marker `0x`
may stand in front.

Before it is read a text is made plain: a blank beyond ASCII becomes a space and
a digit of another script its ASCII twin, so that the grammar itself is over
ASCII.
-/

namespace Chip8.Text

/-- The zeros of the decimal digits; each is followed by its nine successors. -/
def digitZeros : List Nat := [
  0x30, 0x660, 0x6F0, 0x7C0, 0x966, 0x9E6, 0xA66, 0xAE6, 0xB66, 0xBE6, 0xC66, 0xCE6, 0xD66, 0xDE6,
  0xE50, 0xED0, 0xF20, 0x1040, 0x1090, 0x17E0, 0x1810, 0x1946, 0x19D0, 0x1A80, 0x1A90, 0x1B50,
  0x1BB0, 0x1C40, 0x1C50, 0xA620, 0xA8D0, 0xA900, 0xA9D0, 0xA9F0, 0xAA50, 0xABF0, 0xFF10, 0x104A0,
  0x10D30, 0x11066, 0x110F0, 0x11136, 0x111D0, 0x112F0, 0x11450, 0x114D0, 0x11650, 0x116C0,
  0x11730, 0x118E0, 0x11950, 0x11C50, 0x11D50, 0x11DA0, 0x16A60, 0x16AC0, 0x16B50, 0x1D7CE,
  0x1D7D8, 0x1D7E2, 0x1D7EC, 0x1D7F6, 0x1E140, 0x1E2F0, 0x1E950, 0x1FBF0]

def decimalValue? (c : Char) : Option Nat :=
  digitZeros.findSome? fun z =>
    if z ≤ c.toNat && c.toNat < z + 10 then some (c.toNat - z) else none

/-- The ASCII character that stands for `c` in a numeral; `?` stands for what no numeral holds. -/
def plainChar (c : Char) : Char :=
  if c.toNat < 128 then c
  else if isBlank c then ' '
  else match decimalValue? c with
    | some d => Char.ofNat (48 + d)
    | none => '?'

def plainTrimmed (cs : List Char) : List Char :=
  trimBy isAsciiBlank (cs.map plainChar)

def digitValue? (base : Nat) (c : Char) : Option Nat :=
  let v? :=
    if '0' ≤ c && c ≤ '9' then some (c.toNat - 48)
    else if 'a' ≤ c && c ≤ 'f' then some (c.toNat - 87)
    else if 'A' ≤ c && c ≤ 'F' then some (c.toNat - 55)
    else none
  v?.bind fun v => if v < base then some v else none

/-- Reads on after a digit: digits, each with at most one underscore before it. -/
def moreDigits? (base acc : Nat) : List Char → Option Nat
  | [] => some acc
  | '_' :: c :: r => (digitValue? base c).bind fun d => moreDigits? base (acc * base + d) r
  | c :: r => (digitValue? base c).bind fun d => moreDigits? base (acc * base + d) r

/-- The value of a digit followed by digits, with single underscores between them. -/
def natural? (base : Nat) : List Char → Option Nat
  | [] => none
  | c :: r => (digitValue? base c).bind fun d => moreDigits? base d r

/-- Splits off a sign; the flag tells a minus. -/
def splitSign : List Char → Bool × List Char
  | '-' :: r => (true, r)
  | '+' :: r => (false, r)
  | r => (false, r)

/-- Drops one base marker and an underscore right after it. -/
def dropMarker : List Char → List Char
  | '0' :: 'x' :: '_' :: r => r
  | '0' :: 'X' :: '_' :: r => r
  | '0' :: 'x' :: r => r
  | '0' :: 'X' :: r => r
  | r => r

def hexInteger? (text : List Char) : Option Int :=
  let (minus, digits) := splitSign (plainTrimmed text)
  (natural? 16 (dropMarker digits)).map fun n => if minus then -(n : Int) else n

def decimalDigitLimit : Nat := 4300

def decimalInteger? (text : List Char) : Option Int :=
  let (minus, digits) := splitSign (plainTrimmed text)
  if (digits.filter (· != '_')).length > decimalDigitLimit then none
  else (natural? 10 digits).map fun n => if minus then -(n : Int) else n

end Chip8.Text
