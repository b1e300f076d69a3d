import Chip8.Binary64
import Chip8.Text.Numeral

/-!
# Reading real numbers

A real numeral has blanks and a sign like an integer; then come digits with at
most one point and an exponent of ten after them, or one of the words `inf`,
`infinity` and `nan` in letters of any case.  Single underscores may stand
between two digits.
-/

namespace Chip8.Text

/-- Whether every underscore of a text stands between two decimal digits. -/
def underscoresBetweenDigits (before : Bool) : List Char → Bool
  | [] => true
  | '_' :: r => before && r.head?.any Char.isDigit && underscoresBetweenDigits false r
  | c :: r => underscoresBetweenDigits c.isDigit r

def digitsValue (ds : List Char) : Nat :=
  ds.foldl (fun n c => n * 10 + (c.toNat - 48)) 0

/-- The power of ten after an `e`, zero where there is none. -/
def exponent? : List Char → Option Int
  | [] => some 0
  | c :: r =>
    if c = 'e' || c = 'E' then
      let (minus, ds) := splitSign r
      if ds.isEmpty || !ds.all Char.isDigit then none
      else some (Binary64.signed minus (digitsValue ds))
    else none

/-- The number nearest to `± n · 10 ^ e`, where `e` may be out of all proportion. -/
def nearest (minus : Bool) (n : Nat) (e : Int) : Float :=
  let places : Int := (toString n).length
  if n = 0 then Binary64.ofDecimal minus 0 0
  else if 400 < places + e then Binary64.ofDecimal minus 1 400
  else if places + e < -400 then Binary64.ofDecimal minus 0 0
  else Binary64.ofDecimal minus n e

def decimal? (minus : Bool) (cs : List Char) : Option Float :=
  let whole := cs.takeWhile Char.isDigit
  let afterWhole := cs.dropWhile Char.isDigit
  let (fraction, rest) :=
    match afterWhole with
    | '.' :: r => (r.takeWhile Char.isDigit, r.dropWhile Char.isDigit)
    | r => ([], r)
  if whole.isEmpty && fraction.isEmpty then none
  else (exponent? rest).map fun e =>
    nearest minus (digitsValue (whole ++ fraction)) (e - fraction.length)

def real? (text : List Char) : Option Float :=
  let cs := plainTrimmed text
  if !underscoresBetweenDigits false cs then none
  else
    let (minus, body) := splitSign (cs.filter (· != '_'))
    match String.ofList (body.map Char.toLower) with
    | "inf" | "infinity" => some (Binary64.ofDecimal minus 1 400)
    | "nan" => some (0.0 / 0.0)
    | _ => decimal? minus body

end Chip8.Text
