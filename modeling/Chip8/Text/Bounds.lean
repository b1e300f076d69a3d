/-!
# Sets of code points as bounds

A set of code points that is a union of ranges is the increasing list of the
code points where membership changes: `[a, b, c, d]` is `a` to `b - 1` and `c`
to `d - 1`.

* `insideBounds_pair`: two bounds are one range.
-/

namespace Chip8.Text

/-- Whether `n` is in the set, where `inside` says whether the code points below the first bound
are. -/
def insideBounds (n : Nat) : List Nat → Bool → Bool
  | [], inside => inside
  | b :: r, inside => if n < b then inside else insideBounds n r (!inside)

theorem insideBounds_pair {n a b : Nat} :
    insideBounds n [a, b] false = true ↔ a ≤ n ∧ n < b := by
  simp only [insideBounds]
  split
  · simp; omega
  · split <;> simp <;> omega

end Chip8.Text
