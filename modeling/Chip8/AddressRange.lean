import Chip8.Memory.Basic
import Chip8.Text.Case
import Chip8.Text.Numeral
import Chip8.Text.Quoted

/-!
# Ranges of addresses

A range is written with both ends, `START:END`, or with its length,
`START+LENGTH`, in hexadecimal numerals.  Ranges that overlap or touch are merged
for output; without any range the whole memory is meant.

* `mergeFrom_ne_nil`: merging leaves a range.
-/

namespace Chip8

/-- The addresses from `first` to `last`, both included. -/
structure AddressRange where
  first : Int
  last : Int
  deriving DecidableEq

/-- Why a text is no number or no range. -/
inductive NumeralError
  | noDigits
  /-- What is left of the text is no numeral. -/
  | malformed (digits : String)
  | outsideLimit (limit : Int)
  | rangePastEnd
  | noSeparator
  | emptyRange
  deriving DecidableEq

namespace NumeralError

/-- A message shows at most so many characters of a malformed numeral. -/
def shownLength : Nat := 200

def message : NumeralError → String
  | noDigits => "no hexadecimal digits"
  | malformed digits =>
    "invalid literal for int() with base 16: " ++
      String.ofList ((Text.quotedChars digits.toList).take shownLength)
  | outsideLimit limit => "must be between 0 and 0x" ++ Text.hex 1 limit
  | rangePastEnd => "range runs past 0xFFF"
  | noSeparator => "expected START:END or START+LENGTH"
  | emptyRange => "range is empty"

end NumeralError

def topAddress : Int := 0xFFF

def dropHexMarker : List Char → List Char
  | '0' :: 'x' :: r => r
  | r => r

/-- Reads a hexadecimal number between zero and a limit. -/
def parseNumber (limit : Int) (text : List Char) : Except NumeralError Int :=
  let digits := dropHexMarker (Text.lower (Text.trim text))
  if digits.isEmpty then .error .noDigits
  else match Text.hexInteger? digits with
    | none => .error (.malformed (String.ofList digits))
    | some n => if n < 0 || limit < n then .error (.outsideLimit limit) else .ok n

def parseAddress (text : List Char) : Except NumeralError Int :=
  parseNumber topAddress text

def parseKey (text : List Char) : Except NumeralError Int :=
  parseNumber 0xF text

namespace AddressRange

/-- The text before the first occurrence of a separator and the text after it. -/
def cut (sep : Char) (text : List Char) : List Char × List Char :=
  (text.takeWhile (· ≠ sep), (text.dropWhile (· ≠ sep)).drop 1)

/-- A range that is not empty. -/
def checked (first last : Int) : Except NumeralError AddressRange :=
  if last < first then .error .emptyRange else .ok ⟨first, last⟩

/-- Reads `START:END` or `START+LENGTH`. -/
def parse (text : List Char) : Except NumeralError AddressRange :=
  if text.contains ':' then do
    let (first, last) := cut ':' text
    let first ← parseAddress first
    let last ← parseAddress last
    checked first last
  else if text.contains '+' then do
    let (first, length) := cut '+' text
    let first ← parseAddress first
    let length ← parseAddress length
    let last := first + length - 1
    if topAddress < last then .error .rangePastEnd else checked first last
  else .error .noSeparator

/-- Whether two ranges overlap or lie side by side. -/
def touches (r s : AddressRange) : Bool :=
  s.first ≤ r.last + 1 && r.first ≤ s.last + 1

def le (r s : AddressRange) : Bool :=
  r.first < s.first || r.first == s.first && r.last ≤ s.last

/-- Merges a range with those that follow it in order. -/
def mergeFrom (r : AddressRange) : List AddressRange → List AddressRange
  | [] => [r]
  | s :: rest =>
    if r.touches s then mergeFrom ⟨r.first, max r.last s.last⟩ rest
    else r :: mergeFrom s rest

theorem mergeFrom_ne_nil (r : AddressRange) (rs : List AddressRange) : mergeFrom r rs ≠ [] := by
  induction rs generalizing r with
  | nil => simp [mergeFrom]
  | cons s rest ih =>
    rw [mergeFrom]
    split
    · exact ih _
    · simp

/-- Ranges in order, merged where they overlap or touch; the whole memory if there are none. -/
def merge (ranges : List AddressRange) : List AddressRange :=
  match ranges.mergeSort le with
  | [] => [⟨0, topAddress⟩]
  | r :: rs => mergeFrom r rs

end AddressRange

end Chip8
