import Chip8.Proofs.Display
import Mathlib.Algebra.BigOperators.Fin
import Mathlib.Data.Fintype.BigOperators
import Mathlib.Data.List.Count
import Mathlib.Tactic.IntervalCases

/-!
# Sprites, dot by dot

A sprite is laid over the picture a row at a time.  One may also lay it dot by dot:
each bit of a row that is set switches one pixel, and what leaves the picture on one
side comes back in on the other, so that a tall sprite may switch a pixel several
times.  Both come to the same picture, and to the same answer whether a lit pixel has
gone dark on the way.

* `isLit_plot`: a pixel after some dots, by the parity of their number on it.
* `darkens_iff`: when a lit pixel goes dark, by the same numbers.
* `overlay_eq`: a sprite is its dots.
* `hits_eq_count`: the dots on a pixel, as pairs of a row and a bit.
* `drawn`: what a sprite does to a display.
* `draw_draw_self`, `draw_draw_comm`: a sprite drawn twice, and two sprites.
-/

namespace Chip8

namespace Display

/-- A place in the picture: its column and its line. -/
abbrev Place := Fin 64 × Fin 32

/-- The row of a sprite has a dot at the place `b`, counted from the left. -/
def HasDot (row : Int) (b : Nat) : Prop :=
  row / 2 ^ (7 - b) % 2 = 1

instance (row : Int) (b : Nat) : Decidable (HasDot row b) :=
  inferInstanceAs (Decidable (_ = _))

/-- The places of the dots of a row, from left to right. -/
def rowDots (x y row : Int) : List Place :=
  ((List.range 8).filter fun b => HasDot row b).map fun (b : Nat) => (columnAt (x + b), lineAt y)

/-- The places of the dots of a sprite, row by row. -/
def dots (x : Int) : Int → List Int → List Place
  | _, [] => []
  | y, row :: rows => rowDots x y row ++ dots x (y + 1) rows

/-- How many dots of a sprite fall on a pixel: the pairs of a row and of a bit in it that is set,
which lie on the pixel's column and line. -/
def hits (x y : Int) (rows : List Int) (p : Fin 64) (q : Fin 32) : Nat :=
  (Finset.univ.filter fun dot : Fin rows.length × Fin 8 =>
    HasDot rows[dot.1] dot.2 ∧ (x + dot.2) % 64 = p ∧ (y + dot.1) % 32 = q).card

def toggle (grid : Grid) (place : Place) : Grid :=
  grid.set place.2 (grid.get place.2 ^^^ BitVec.twoPow 64 (63 - place.1)) place.2.isLt

/-- The picture after dots at these places, one after the other. -/
def plot (grid : Grid) (places : List Place) : Grid :=
  places.foldl toggle grid

def isLit (grid : Grid) (place : Place) : Bool :=
  (grid.get place.2).getMsbD place.1

/-- Some dot makes a lit pixel dark. -/
def Darkens (grid : Grid) (places : List Place) : Prop :=
  ∃ n place, isLit (plot grid (places.take n)) place = true ∧
    isLit (plot grid (places.take (n + 1))) place = false

variable {grid : Grid} {place : Place} {places : List Place} {x y row : Int} {rows : List Int}

/-! ### Single pixels -/

theorem get_set (grid : Grid) (line l : Fin 32) (pixels : PixelRow) :
    (grid.set line pixels line.isLt).get l = if line = l then pixels else grid.get l := by
  by_cases h : line = l
  · subst h
    rw [if_pos rfl]
    exact Vector.getElem_set_self line.isLt
  · rw [if_neg h]
    exact Vector.getElem_set_ne line.isLt l.isLt (Fin.val_ne_of_ne h)

theorem ext_isLit {grid grid' : Grid} (h : ∀ place, isLit grid place = isLit grid' place) :
    grid = grid' := by
  apply Vector.ext
  intro line hline
  apply BitVec.eq_of_getMsbD_eq
  intro column hcolumn
  exact h (⟨column, hcolumn⟩, ⟨line, hline⟩)

theorem isLit_set (grid : Grid) (line : Fin 32) (pixels : PixelRow) (place : Place) :
    isLit (grid.set line (grid.get line ^^^ pixels) line.isLt) place =
      (isLit grid place ^^ (decide (line = place.2) && pixels.getMsbD place.1)) := by
  rw [isLit, get_set]
  by_cases h : line = place.2
  · subst h
    simp [isLit]
  · simp [isLit, h]

@[simp] theorem isLit_toggle (grid : Grid) (place place' : Place) :
    isLit (toggle grid place) place' = (isLit grid place' ^^ decide (place = place')) := by
  have hcolumn : (BitVec.twoPow 64 (63 - place.1)).getMsbD place'.1 =
      decide (place.1 = place'.1) := by
    rw [BitVec.getMsbD_twoPow, Bool.eq_iff_iff]
    simp only [Bool.and_eq_true, decide_eq_true_eq, Fin.ext_iff]
    omega
  rw [toggle, isLit_set, hcolumn, Bool.and_comm, ← Bool.decide_and]
  simp only [Prod.ext_iff]

/-! ### Dots one after the other -/

/-- **A pixel after some dots** is switched by an odd number of them. -/
theorem isLit_plot (grid : Grid) (places : List Place) (place : Place) :
    isLit (plot grid places) place =
      (isLit grid place ^^ decide (places.count place % 2 = 1)) := by
  induction places generalizing grid with
  | nil => simp [plot]
  | cons first places ih =>
    have hparity : decide ((first :: places).count place % 2 = 1) =
        (decide (first = place) ^^ decide (places.count place % 2 = 1)) := by
      rw [List.count_cons]
      by_cases h : first = place
      · have hodd : decide ((places.count place + 1) % 2 = 1) =
            !decide (places.count place % 2 = 1) := by
          rw [← decide_not, decide_eq_decide]
          omega
        simp [h, hodd]
      · simp [h]
    rw [hparity, ← Bool.xor_assoc, ← isLit_toggle]
    exact ih (toggle grid first)

theorem not_darkens_nil (grid : Grid) : ¬Darkens grid [] := by
  rintro ⟨n, place, hlit, hdark⟩
  rw [List.take_nil] at hlit hdark
  rw [hlit] at hdark
  cases hdark

theorem darkens_cons : Darkens grid (place :: places) ↔
    isLit grid place = true ∨ Darkens (toggle grid place) places := by
  constructor
  · rintro ⟨n, place', hlit, hdark⟩
    cases n with
    | zero =>
      have hlit : isLit grid place' = true := hlit
      have hdark : isLit (toggle grid place) place' = false := hdark
      by_cases h : place = place'
      · exact .inl (h ▸ hlit)
      · simp [hlit, h] at hdark
    | succ n => exact .inr ⟨n, place', hlit, hdark⟩
  · rintro (hlit | ⟨n, place', hlit, hdark⟩)
    · refine ⟨0, place, hlit, ?_⟩
      show isLit (toggle grid place) place = false
      simp [hlit]
    · exact ⟨n + 1, place', hlit, hdark⟩

theorem darkens_append {more : List Place} : Darkens grid (places ++ more) ↔
    Darkens grid places ∨ Darkens (plot grid places) more := by
  induction places generalizing grid with
  | nil => simp [not_darkens_nil, plot]
  | cons place places ih =>
    rw [List.cons_append, darkens_cons, darkens_cons, ih, or_assoc]
    rfl

/-- **When a lit pixel goes dark**: a lit pixel gets a dot, or a dark one gets two. -/
theorem darkens_iff : Darkens grid places ↔ ∃ place,
    isLit grid place = true ∧ 1 ≤ places.count place ∨
      isLit grid place = false ∧ 2 ≤ places.count place := by
  induction places generalizing grid with
  | nil => simp [not_darkens_nil]
  | cons first places ih =>
    rw [darkens_cons, ih]
    constructor
    · rintro (hlit | ⟨place, h⟩)
      · exact ⟨first, .inl ⟨hlit, by simp⟩⟩
      · refine ⟨place, ?_⟩
        rw [isLit_toggle] at h
        by_cases hplace : first = place
        · subst hplace
          cases hlit : isLit grid first <;> simp [hlit] at h ⊢
          omega
        · simpa [List.count_cons, hplace] using h
    · rintro ⟨place, h⟩
      by_cases hplace : first = place
      · subst hplace
        cases hlit : isLit grid first with
        | true => exact .inl rfl
        | false =>
          refine .inr ⟨first, .inl ?_⟩
          simpa [hlit] using h
      · refine .inr ⟨place, ?_⟩
        simpa [List.count_cons, hplace] using h

/-! ### Rows -/

theorem columnAt_eq_iff {p : Fin 64} : columnAt x = p ↔ x % 64 = p := by
  simp only [columnAt, Fin.ext_iff]
  omega

theorem lineAt_eq_iff {q : Fin 32} : lineAt y = q ↔ y % 32 = q := by
  simp only [lineAt, Fin.ext_iff]
  omega

theorem getMsbD_ofInt_iff {b : Nat} (hb : b < 8) :
    (BitVec.ofInt 8 row).getMsbD b = true ↔ HasDot row b := by
  rw [BitVec.getMsbD_eq_getLsbD, BitVec.getLsbD, BitVec.toNat_ofInt,
    Nat.testBit_eq_decide_div_mod_eq, HasDot]
  simp only [Bool.and_eq_true, decide_eq_true_eq]
  interval_cases b <;> omega

/-- The place of a pixel in the row of a sprite that begins at `x`. -/
theorem getMsbD_spriteRow_eq (x row : Int) (p : Fin 64) : (spriteRow x row).getMsbD p =
    (decide (((p - x) % 64).toNat < 8) &&
      (BitVec.ofInt 8 row).getMsbD ((p - x) % 64).toNat) := by
  have hp := p.isLt
  have hplace : (if (p : Nat) < (x % 64).toNat then (64 + (p : Nat) - (x % 64).toNat) % 64
      else p - (x % 64).toNat) = ((p - x) % 64).toNat := by
    split <;> omega
  rw [spriteRow, BitVec.getMsbD_rotateRight, columnAt, Nat.mod_eq_of_lt (by omega), ← apply_ite,
    hplace, BitVec.getMsbD_append, decide_eq_true hp, Bool.true_and]
  by_cases h : 8 ≤ ((p - x) % 64).toNat
  · rw [if_pos h, decide_eq_false (by omega), BitVec.getMsbD_zero, Bool.false_and]
  · rw [if_neg h, decide_eq_true (by omega), Bool.true_and]

theorem getMsbD_spriteRow {p : Fin 64} : (spriteRow x row).getMsbD p = true ↔
    ∃ b, b < 8 ∧ HasDot row b ∧ columnAt (x + b) = p := by
  have hp := p.isLt
  rw [getMsbD_spriteRow_eq, Bool.and_eq_true, decide_eq_true_eq]
  constructor
  · rintro ⟨hb, hdot⟩
    refine ⟨_, hb, (getMsbD_ofInt_iff hb).mp hdot, columnAt_eq_iff.mpr ?_⟩
    omega
  · rintro ⟨b, hb, hdot, hcolumn⟩
    rw [columnAt_eq_iff] at hcolumn
    have hplace : ((p - x) % 64).toNat = b := by omega
    rw [hplace]
    exact ⟨hb, (getMsbD_ofInt_iff hb).mpr hdot⟩

theorem mem_rowDots : place ∈ rowDots x y row ↔
    lineAt y = place.2 ∧ (spriteRow x row).getMsbD place.1 = true := by
  rw [rowDots, List.mem_map, getMsbD_spriteRow]
  simp only [List.mem_filter, List.mem_range, decide_eq_true_eq]
  constructor
  · rintro ⟨b, ⟨hb, hdot⟩, rfl⟩
    exact ⟨rfl, b, hb, hdot, rfl⟩
  · rintro ⟨hline, b, hb, hdot, hcolumn⟩
    exact ⟨b, ⟨hb, hdot⟩, Prod.ext hcolumn hline⟩

/-- A row is not as wide as the picture, so its dots do not meet. -/
theorem nodup_rowDots (x y row : Int) : (rowDots x y row).Nodup := by
  refine List.Nodup.map_on ?_ (List.nodup_range.filter _)
  intro b hb b' hb' heq
  rw [List.mem_filter, List.mem_range] at hb hb'
  have hcolumn : columnAt (x + b) = columnAt (x + b') := (Prod.ext_iff.mp heq).1
  simp only [columnAt, Fin.mk.injEq] at hcolumn
  omega

theorem count_rowDots (x y row : Int) (place : Place) : (rowDots x y row).count place =
    if lineAt y = place.2 ∧ (spriteRow x row).getMsbD place.1 = true then 1 else 0 := by
  rw [(nodup_rowDots x y row).count]
  simp only [mem_rowDots]

theorem plot_rowDots (grid : Grid) (x y row : Int) : plot grid (rowDots x y row) =
    grid.set (lineAt y) (grid.get (lineAt y) ^^^ spriteRow x row) (lineAt y).isLt := by
  apply ext_isLit
  intro place
  rw [isLit_plot, isLit_set, count_rowDots]
  congr 1
  split
  · next h => simp [h]
  · next h =>
    symm
    simpa using h

theorem darkens_rowDots : Darkens grid (rowDots x y row) ↔
    (grid.get (lineAt y) &&& spriteRow x row) ≠ 0 := by
  rw [darkens_iff]
  constructor
  · rintro ⟨⟨p, q⟩, h⟩ hzero
    rw [count_rowDots] at h
    split at h
    · next hmeets =>
      obtain ⟨rfl, hpixel⟩ := hmeets
      obtain ⟨hlit, -⟩ := h.resolve_right (by omega)
      have hboth : (grid.get (lineAt y) &&& spriteRow x row).getMsbD p = true := by
        rw [BitVec.getMsbD_and, hpixel, Bool.and_true]
        exact hlit
      simp [hzero] at hboth
    · omega
  · intro hne
    by_contra hno
    apply hne
    apply BitVec.eq_of_getMsbD_eq
    intro p hp
    have hdark : (0 : PixelRow).getMsbD p = false := BitVec.getMsbD_zero
    rw [BitVec.getMsbD_and, hdark, Bool.eq_false_iff]
    intro hboth
    rw [Bool.and_eq_true] at hboth
    refine hno ⟨(⟨p, hp⟩, lineAt y), .inl ⟨hboth.1, ?_⟩⟩
    rw [count_rowDots, if_pos ⟨rfl, hboth.2⟩]

/-! ### Sprites -/

/-- **A sprite is its dots**: it leaves the picture that they leave, and tells whether one of them
has made a lit pixel dark. -/
theorem overlay_eq (grid : Grid) (x y : Int) (rows : List Int) :
    (overlay x y rows grid).1 = plot grid (dots x y rows) ∧
      ((overlay x y rows grid).2 = true ↔ Darkens grid (dots x y rows)) := by
  induction rows generalizing grid y with
  | nil =>
    refine ⟨rfl, ?_⟩
    simp [overlay, dots, not_darkens_nil]
  | cons row rows ih =>
    obtain ⟨hgrid, hdark⟩ := ih (plot grid (rowDots x y row)) (y + 1)
    rw [plot_rowDots] at hgrid hdark
    rw [overlay, dots]
    constructor
    · rw [plot, List.foldl_append]
      exact hgrid.trans (by rw [← plot_rowDots]; rfl)
    · rw [darkens_append, darkens_rowDots, plot_rowDots, ← hdark, Bool.or_eq_true, bne_iff_ne]

/-! ### Hits -/

theorem count_rowDots_eq_card (x y row : Int) (p : Fin 64) (q : Fin 32) :
    (rowDots x y row).count (p, q) = (Finset.univ.filter fun b : Fin 8 =>
      HasDot row b ∧ (x + b) % 64 = p ∧ y % 32 = q).card := by
  have hbits : (Finset.univ.filter fun b : Fin 8 =>
      HasDot row b ∧ (x + b) % 64 = p ∧ y % 32 = q).card =
        (List.finRange 8).countP fun (b : Fin 8) =>
          HasDot row b ∧ (x + b) % 64 = p ∧ y % 32 = q := by
    rw [List.countP_eq_length_filter]
    rfl
  have hplaces : List.range 8 = (List.finRange 8).map Fin.val := rfl
  rw [hbits, rowDots, List.count, List.countP_map, List.countP_filter, hplaces, List.countP_map]
  apply List.countP_congr
  intro b _
  simp only [Function.comp_apply, Bool.and_eq_true, beq_iff_eq, Prod.mk.injEq, columnAt_eq_iff,
    lineAt_eq_iff, decide_eq_true_eq]
  tauto

theorem hits_cons (x y row : Int) (rows : List Int) (p : Fin 64) (q : Fin 32) :
    hits x y (row :: rows) p q = (rowDots x y row).count (p, q) + hits x (y + 1) rows p q := by
  rw [count_rowDots_eq_card]
  simp only [hits, Finset.card_filter, Fintype.sum_prod_type]
  refine (Fin.sum_univ_succ (n := rows.length) _).trans ?_
  congr 1
  · simp
  · have hline (i : Nat) : y + ((i + 1 : Nat) : Int) = y + 1 + i := by omega
    simp only [Fin.val_succ, hline]
    rfl

/-- The dots on a pixel, one after the other or by row and bit. -/
theorem hits_eq_count (x y : Int) (rows : List Int) (p : Fin 64) (q : Fin 32) :
    hits x y rows p q = (dots x y rows).count (p, q) := by
  induction rows generalizing y with
  | nil => simp [hits, dots]
  | cons row rows ih => rw [hits_cons, dots, List.count_append, ih]

/-- Two dots of a row never meet, and neither do two rows unless they are a picture's height
apart. -/
theorem hits_le_one (hrows : rows.length ≤ 32) (p : Fin 64) (q : Fin 32) :
    hits x y rows p q ≤ 1 := by
  rw [hits, Finset.card_le_one]
  intro dot hdot dot' hdot'
  simp only [Finset.mem_filter, Finset.mem_univ, true_and] at hdot hdot'
  obtain ⟨-, hcolumn, hline⟩ := hdot
  obtain ⟨-, hcolumn', hline'⟩ := hdot'
  refine Prod.ext (Fin.ext ?_) (Fin.ext ?_)
  · omega
  · omega

/-! ### Drawing -/

theorem pixel_eq_isLit (d : Display) (p : Fin 64) (q : Fin 32) :
    d.pixel p q = isLit d.grid (p, q) := by
  have hcolumn : columnAt p = p := columnAt_eq_iff.mpr (by omega)
  have hline : lineAt q = q := lineAt_eq_iff.mpr (by omega)
  rw [pixel, hcolumn, hline, isLit]

/-- The display after the first `n` dots of a sprite. -/
def afterDots (d : Display) (x y : Int) (rows : List Int) (n : Nat) : Display :=
  { d with grid := plot d.grid ((dots x y rows).take n) }

/-- What a sprite has done to a display, and the answer that it has given. -/
structure Drawn (d : Display) (x y : Int) (rows : List Int) (d' : Display) (collision : Bool) :
    Prop where
  /-- Each pixel is switched once for each hit. -/
  pixel_eq : ∀ (p : Fin 64) (q : Fin 32),
    d'.pixel p q = (d.pixel p q ^^ decide (hits x y rows p q % 2 = 1))
  /-- The answer tells whether a pixel has gone dark at some moment. -/
  collision_iff : collision = true ↔ ∃ (n : Nat) (p : Fin 64) (q : Fin 32),
    (d.afterDots x y rows n).pixel p q = true ∧ (d.afterDots x y rows (n + 1)).pixel p q = false
  collision_iff_hits : collision = true ↔ ∃ (p : Fin 64) (q : Fin 32),
    d.pixel p q = true ∧ 1 ≤ hits x y rows p q ∨ d.pixel p q = false ∧ 2 ≤ hits x y rows p q
  /-- A sprite that is not taller than the picture hits no pixel twice. -/
  collision_iff_of_le : rows.length ≤ 32 → (collision = true ↔ ∃ (p : Fin 64) (q : Fin 32),
    d.pixel p q = true ∧ d'.pixel p q = false)
  /-- Nothing but the picture changes, and the display is dirty. -/
  eq_grid : d' = { d with grid := d'.grid, dirty := true }

theorem grid_draw (d : Display) (x y : Int) (rows : List Int) :
    (d.draw x y rows).1.grid = plot d.grid (dots x y rows) :=
  (overlay_eq d.grid x y rows).1

theorem isLit_draw (d : Display) (x y : Int) (rows : List Int) (place : Place) :
    isLit (d.draw x y rows).1.grid place =
      (isLit d.grid place ^^ decide (hits x y rows place.1 place.2 % 2 = 1)) := by
  rw [grid_draw, isLit_plot, hits_eq_count]

/-- **What a sprite does to a display.** -/
theorem drawn (d : Display) (x y : Int) (rows : List Int) :
    Drawn d x y rows (d.draw x y rows).1 (d.draw x y rows).2 := by
  have hcollision : (d.draw x y rows).2 = true ↔ Darkens d.grid (dots x y rows) :=
    (overlay_eq d.grid x y rows).2
  have hhits : (d.draw x y rows).2 = true ↔ ∃ (p : Fin 64) (q : Fin 32),
      d.pixel p q = true ∧ 1 ≤ hits x y rows p q ∨ d.pixel p q = false ∧ 2 ≤ hits x y rows p q := by
    simp only [hcollision, darkens_iff, Prod.exists, pixel_eq_isLit, hits_eq_count]
  refine ⟨fun p q => ?_, ?_, hhits, fun hrows => ?_, rfl⟩
  · rw [pixel_eq_isLit, pixel_eq_isLit, isLit_draw]
  · simp only [hcollision, Darkens, Prod.exists, pixel_eq_isLit, afterDots]
  · rw [hhits]
    apply exists_congr
    intro p
    apply exists_congr
    intro q
    have hle := hits_le_one (x := x) (y := y) hrows p q
    rw [pixel_eq_isLit, pixel_eq_isLit, isLit_draw]
    cases isLit d.grid (p, q) with
    | true => simp; omega
    | false => simp; omega

/-- **A sprite that is drawn twice** leaves the picture as it was. -/
theorem draw_draw_self (d : Display) (x y : Int) (rows : List Int) :
    ((d.draw x y rows).1.draw x y rows).1.grid = d.grid := by
  apply ext_isLit
  intro place
  rw [isLit_draw, isLit_draw, Bool.xor_assoc, Bool.xor_self, Bool.xor_false]

/-- **Two sprites** leave the same picture in either order. -/
theorem draw_draw_comm (d : Display) (x y : Int) (rows : List Int) (x' y' : Int)
    (rows' : List Int) : ((d.draw x y rows).1.draw x' y' rows').1.grid =
      ((d.draw x' y' rows').1.draw x y rows).1.grid := by
  apply ext_isLit
  intro place
  rw [isLit_draw, isLit_draw, isLit_draw, isLit_draw, Bool.xor_assoc, Bool.xor_assoc,
    Bool.xor_comm (decide _)]

theorem overlay_emod (x y : Int) (rows : List Int) (grid : Grid) {y' : Int}
    (hy : y' % 32 = y % 32) : overlay (x % 64) y' rows grid = overlay x y rows grid := by
  have hcolumn : columnAt (x % 64) = columnAt x := by
    simp only [columnAt, Int.emod_emod]
  induction rows generalizing grid y y' with
  | nil => rfl
  | cons row rows ih =>
    have hnext : (y' + 1) % 32 = (y + 1) % 32 := by omega
    have hrow : spriteRow (x % 64) row = spriteRow x row := by
      rw [spriteRow, hcolumn, spriteRow]
    simp only [overlay, lineAt_of_modEq hy, hrow, ih _ _ hnext]

theorem draw_emod (d : Display) (x y : Int) (rows : List Int) :
    d.draw (x % displayWidth) (y % displayHeight) rows = d.draw x y rows := by
  have hoverlay := overlay_emod x y rows d.grid (Int.emod_emod_of_dvd y (dvd_refl 32))
  exact congrArg (fun drawn => ({ d with grid := drawn.1, dirty := true }, drawn.2)) hoverlay

end Display

end Chip8
