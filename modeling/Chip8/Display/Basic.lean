/-!
# The display

Thirty-two rows of sixty-four pixels.  A row is a bit vector whose most
significant bit is the leftmost pixel.  A sprite is eight pixels wide, one byte
a row; it is laid over the picture by exclusive or, and what leaves the picture
on one side comes back in on the other.

* `lineAt_of_modEq`: only the place modulo the width and height counts.
-/

namespace Chip8

def displayWidth : Nat := 64

def displayHeight : Nat := 32

/-- One row of pixels, the leftmost as the most significant bit. -/
abbrev PixelRow := BitVec 64

/-- All rows, the topmost first. -/
abbrev Grid := Vector PixelRow 32

/-- The display: the picture, whether it has changed since the host last showed it, and the two
colours in which the host sees it. -/
structure Display where
  grid : Grid
  dirty : Bool
  foreground : Int
  background : Int
  deriving DecidableEq

namespace Display

def fresh : Display :=
  ⟨Vector.replicate 32 0, true, 0xFFFFFF, 0⟩

def lineAt (y : Int) : Fin 32 :=
  ⟨(y % 32).toNat, by omega⟩

def columnAt (x : Int) : Fin 64 :=
  ⟨(x % 64).toNat, by omega⟩

theorem lineAt_of_modEq {y y' : Int} (h : y % 32 = y' % 32) : lineAt y = lineAt y' := by
  simp only [lineAt, h]

/-- The eight pixels of a sprite's row where they fall when the sprite begins at `x`; only the
low byte of the row counts. -/
def spriteRow (x row : Int) : PixelRow :=
  (BitVec.ofInt 8 row ++ 0#56 : BitVec 64).rotateRight (columnAt x)

/-- Lays the rows of a sprite over a picture, from line `y` downwards, and tells whether a lit
pixel went dark on the way. -/
def overlay (x y : Int) : List Int → Grid → Grid × Bool
  | [], grid => (grid, false)
  | row :: rows, grid =>
    let line := lineAt y
    let old := grid.get line
    let pixels := spriteRow x row
    let rest := overlay x (y + 1) rows (grid.set line (old ^^^ pixels) line.isLt)
    (rest.1, (old &&& pixels) != 0 || rest.2)

/-- Draws a sprite with its upper left corner at `(x, y)`; the answer tells whether a lit pixel
went dark. -/
def draw (d : Display) (x y : Int) (rows : List Int) : Display × Bool :=
  let (grid, collision) := overlay x y rows d.grid
  ({ d with grid, dirty := true }, collision)

def clear (d : Display) : Display :=
  { d with grid := Vector.replicate 32 0, dirty := true }

def pixel (d : Display) (x y : Int) : Bool :=
  (d.grid.get (lineAt y)).getMsbD (columnAt x)

def rowPixels (row : PixelRow) : List Bool :=
  (List.range 64).map fun i => row.getMsbD i

def lit (d : Display) : Nat :=
  (d.grid.toList.flatMap rowPixels).countP id

end Display

end Chip8
