import Chip8.Display.Basic
import Chip8.Refusal

/-!
# Pictures of the display

The display as a host sees it: as text, as rows of colours, as hexadecimal rows,
or as a surface on which each lit pixel is a filled square.
-/

namespace Chip8

/-- A surface of one colour with rectangles of another colour on it. -/
structure Surface where
  width : Int
  height : Int
  background : Int
  /-- Colour, left edge, top edge, width and height of each rectangle, in the order of filling. -/
  fills : List (Int × Int × Int × Int × Int)
  deriving DecidableEq

namespace Display

/-- Each row in sixteen hexadecimal digits. -/
def hexRows (d : Display) : List String :=
  d.grid.toList.map fun row => Text.hexLower 16 row.toNat

/-- The picture as lines of text, with one text for a lit and one for a dark pixel. -/
def textLines (d : Display) (on off : String) : List String :=
  d.grid.toList.map fun row =>
    String.join ((rowPixels row).map fun p => if p then on else off)

def text (d : Display) (on off : String) : String :=
  "\n".intercalate (d.textLines on off)

def colours (d : Display) : List (List Int) :=
  d.grid.toList.map fun row =>
    (rowPixels row).map fun p => if p then d.foreground else d.background

/-- Neighbours that are equal, with their number. -/
def runs : List Int → List (Int × Nat)
  | [] => []
  | c :: r =>
    match runs r with
    | (c', n) :: more => if c = c' then (c, n + 1) :: more else (c, 1) :: (c', n) :: more
    | [] => [(c, 1)]

def litPlaces (d : Display) : List (Nat × Nat) :=
  (List.range 32).flatMap fun (y : Nat) =>
    (List.range 64).filterMap fun (x : Nat) => if d.pixel x y then some (x, y) else none

/-- The picture with squares of `scale` for pixels. -/
def surface (d : Display) (scale : Int) : Surface where
  width := displayWidth * scale
  height := displayHeight * scale
  background := d.background
  fills := d.litPlaces.map fun (x, y) => (d.foreground, x * scale, y * scale, scale, scale)

/-- The picture with squares of `scale` for pixels, and the display after it has been shown. -/
def surface? (d : Display) (scale : Int) : Except Refusal (Surface × Display) :=
  if scale ≤ 0 then .error .scaleNotPositive
  else .ok (d.surface scale, { d with dirty := false })

end Display

end Chip8
