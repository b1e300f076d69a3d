import Chip8.Display.Picture
import Mathlib.Data.List.Nodup

/-!
# What a surface shows

A surface shows a display if it has one square for each lit pixel, in the place
of the pixel and nowhere else, over the background.  A display that is not dirty
is the one that was shown last, as long as every change makes it dirty.

* `shows_surface`: the surface that a display makes shows the display.
* `Display.Marks`: a display that has changed is dirty.
-/

namespace Chip8

/-- The square of a pixel in the colour of lit ones: colour, left edge, top edge, width and
height. -/
def Display.square (d : Display) (scale : Int) (x y : Nat) : Int × Int × Int × Int × Int :=
  (d.foreground, x * scale, y * scale, scale, scale)

/-- The surface shows the display: it has the size of the display in squares of `scale`, and on its
background exactly one such square for each lit pixel. -/
structure Surface.Shows (f : Surface) (scale : Int) (d : Display) : Prop where
  width_eq : f.width = displayWidth * scale
  height_eq : f.height = displayHeight * scale
  background_eq : f.background = d.background
  fill_iff : ∀ fill, fill ∈ f.fills ↔
    ∃ x y : Nat, x < displayWidth ∧ y < displayHeight ∧ d.pixel x y = true ∧
      fill = d.square scale x y
  nodup : f.fills.Nodup

namespace Display

variable {d d' d'' : Display} {scale : Int} {x y : Nat}

/-! ### Lit pixels -/

theorem mem_litPlaces :
    (x, y) ∈ d.litPlaces ↔ x < displayWidth ∧ y < displayHeight ∧ d.pixel x y = true := by
  simp only [litPlaces, List.mem_flatMap, List.mem_filterMap, List.mem_range, displayWidth,
    displayHeight]
  constructor
  · rintro ⟨y', hy, x', hx, hplace⟩
    split at hplace
    · next hlit =>
      cases hplace
      exact ⟨hx, hy, hlit⟩
    · cases hplace
  · rintro ⟨hx, hy, hlit⟩
    exact ⟨y, hy, x, hx, by rw [if_pos hlit]⟩

theorem mem_line {place : Nat × Nat} (h : place ∈ (List.range 64).filterMap fun (x : Nat) =>
    if d.pixel x y then some (x, y) else none) : place.2 = y := by
  obtain ⟨x, -, hplace⟩ := List.mem_filterMap.mp h
  split at hplace
  · cases hplace
    rfl
  · cases hplace

theorem nodup_litPlaces (d : Display) : d.litPlaces.Nodup := by
  rw [litPlaces, List.nodup_flatMap]
  constructor
  · intro y _
    refine List.Nodup.filterMap (fun x x' place hx hx' => ?_) List.nodup_range
    split at hx
    · split at hx'
      · cases hx
        cases hx'
        rfl
      · cases hx'
    · cases hx
  · refine List.Pairwise.imp (fun hne => ?_) List.nodup_range
    intro place hplace hplace'
    exact hne ((mem_line hplace).symm.trans (mem_line hplace'))

theorem square_injective (hscale : 0 < scale) {place place' : Nat × Nat}
    (h : d.square scale place.1 place.2 = d.square scale place'.1 place'.2) : place = place' := by
  have hne : scale ≠ 0 := by omega
  simp only [square, Prod.mk.injEq, true_and, and_true] at h
  obtain ⟨hx, hy⟩ := h
  exact Prod.ext (Int.ofNat.inj (Int.eq_of_mul_eq_mul_right hne hx))
    (Int.ofNat.inj (Int.eq_of_mul_eq_mul_right hne hy))

/-- **The surface of a display** shows it. -/
theorem shows_surface (d : Display) (hscale : 0 < scale) : (d.surface scale).Shows scale d where
  width_eq := rfl
  height_eq := rfl
  background_eq := rfl
  fill_iff fill := by
    simp only [surface, List.mem_map, Prod.exists, mem_litPlaces, square]
    constructor
    · rintro ⟨x, y, ⟨hx, hy, hlit⟩, rfl⟩
      exact ⟨x, y, hx, hy, hlit, rfl⟩
    · rintro ⟨x, y, hx, hy, hlit, rfl⟩
      exact ⟨x, y, ⟨hx, hy, hlit⟩, rfl⟩
  nodup := d.nodup_litPlaces.map fun _ _ h => square_injective hscale h

theorem surface?_eq_ok {shown : Surface × Display} (h : d.surface? scale = .ok shown) :
    shown = (d.surface scale, { d with dirty := false }) := by
  rw [surface?] at h
  split at h
  · cases h
  · cases h
    rfl

/-! ### Changes -/

/-- The display is as it was, or it is dirty. -/
def Marks (d d' : Display) : Prop :=
  d' = d ∨ d'.dirty = true

theorem Marks.refl (d : Display) : d.Marks d :=
  .inl rfl

theorem Marks.trans (h : d.Marks d') (h' : d'.Marks d'') : d.Marks d'' := by
  rcases h' with rfl | hdirty
  · exact h
  · exact .inr hdirty

theorem marks_clear (d : Display) : d.Marks d.clear :=
  .inr rfl

theorem marks_draw (d : Display) (x y : Int) (rows : List Int) : d.Marks (d.draw x y rows).1 :=
  .inr rfl

end Display

end Chip8
