/-!
# Hexadecimal text

Addresses, bytes and words are shown in base sixteen, in capital letters and
filled with zeros to a least width.  A number below zero keeps its sign, and
the sign counts as one character of the width: `-1` to three places is `-01`.

* `hexDigits_ne_nil`: a number always has a digit.
* `length_zeroFill`: filling reaches the width and never cuts.
-/

namespace Chip8.Text

def hexDigit (n : Nat) : Char :=
  if n < 10 then Char.ofNat (48 + n) else Char.ofNat (55 + n)

/-- The digits of a natural number in base sixteen, the most significant first. -/
def hexDigits (n : Nat) : List Char :=
  if n < 16 then [hexDigit n] else hexDigits (n / 16) ++ [hexDigit (n % 16)]

theorem hexDigits_ne_nil (n : Nat) : hexDigits n ≠ [] := by
  rw [hexDigits]
  split <;> simp

def zeroFill (width : Nat) (digits : List Char) : List Char :=
  List.replicate (width - digits.length) '0' ++ digits

theorem length_zeroFill (width : Nat) (digits : List Char) :
    (zeroFill width digits).length = max width digits.length := by
  simp only [zeroFill, List.length_append, List.length_replicate]
  omega

def hexChars (width : Nat) (z : Int) : List Char :=
  if z < 0 then '-' :: zeroFill (width - 1) (hexDigits z.natAbs)
  else zeroFill width (hexDigits z.natAbs)

def hex (width : Nat) (z : Int) : String :=
  String.ofList (hexChars width z)

def hexLower (width : Nat) (z : Int) : String :=
  String.ofList ((hexChars width z).map Char.toLower)

def hexBytes (bytes : List UInt8) : String :=
  String.ofList (bytes.flatMap fun b => (hexChars 2 b.toNat).map Char.toLower)

end Chip8.Text
