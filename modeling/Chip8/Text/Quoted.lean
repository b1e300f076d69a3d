import Chip8.Text.Hex
import Chip8.Text.Printable

/-!
# Quoted text

Messages show a text that they complain about between quotes, on one line and
in printable characters only.  The quotes are single ones unless the text holds
a single quote and no double one.  The quote itself and the backslash are
escaped by a backslash, the tabulator and the two line ends have their letters,
and any other character that cannot be printed is written by its number, with
two, four or eight digits.
-/

namespace Chip8.Text

/-- The quote that goes around a text. -/
def quoteFor (cs : List Char) : Char :=
  if cs.contains '\'' && !cs.contains '"' then '"' else '\''

/-- The number of a character after a backslash, in the shortest of the three forms. -/
def numbered (c : Char) : List Char :=
  let digits (width : Nat) := (hexChars width c.toNat).map Char.toLower
  if c.toNat ≤ 0xFF then '\\' :: 'x' :: digits 2
  else if c.toNat ≤ 0xFFFF then '\\' :: 'u' :: digits 4
  else '\\' :: 'U' :: digits 8

/-- One character inside the quotes `q`. -/
def escape (q c : Char) : List Char :=
  if c = q || c = '\\' then ['\\', c]
  else if c = '\t' then ['\\', 't']
  else if c = '\n' then ['\\', 'n']
  else if c = '\r' then ['\\', 'r']
  else if isPrintable c then [c]
  else numbered c

def quotedChars (cs : List Char) : List Char :=
  let q := quoteFor cs
  q :: cs.flatMap (escape q) ++ [q]

def quoted (s : String) : String :=
  String.ofList (quotedChars s.toList)

end Chip8.Text
