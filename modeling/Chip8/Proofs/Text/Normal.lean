import Chip8.Text.Blank
import Chip8.Text.Case
import Mathlib.Data.List.TakeWhile

/-!
# Trimmed texts in small letters

Names and numbers are compared and read without the blanks around them and in small
letters.

* `trimBy_append`: what stands between the blanks is left.
* `trim_eq_nil_iff`: nothing is left of a text of blanks only.
* `lower_of_ascii`: letters of ASCII are made small one by one.
-/

namespace Chip8.Text

variable {p : Char → Bool} {cs before core after : List Char}

/-! ### Trimming -/

theorem dropWhile_append_of_head (hbefore : ∀ c ∈ before, p c = true)
    (hcore : ∀ c ∈ core.head?, p c = false) : (before ++ core).dropWhile p = core := by
  rw [List.dropWhile_append_of_pos hbefore]
  cases core with
  | nil => rfl
  | cons c rest => exact List.dropWhile_cons_of_neg (by simp [hcore c rfl])

theorem trimBy_append (hbefore : ∀ c ∈ before, p c = true) (hafter : ∀ c ∈ after, p c = true)
    (hne : core ≠ []) (hcore : ∀ c ∈ core, p c = false) :
    trimBy p (before ++ core ++ after) = core := by
  have hfront : (before ++ (core ++ after)).dropWhile p = core ++ after := by
    obtain ⟨c, rest, rfl⟩ := List.exists_cons_of_ne_nil hne
    apply dropWhile_append_of_head hbefore
    rintro _ ⟨⟩
    exact hcore c List.mem_cons_self
  have hback : (after.reverse ++ core.reverse).dropWhile p = core.reverse := by
    apply dropWhile_append_of_head
    · intro c hc
      exact hafter c (List.mem_reverse.mp hc)
    · intro c hc
      exact hcore c (List.mem_reverse.mp (List.mem_of_mem_head? hc))
  rw [trimBy, List.append_assoc, hfront, List.reverse_append, hback, List.reverse_reverse]

theorem trimBy_eq_nil_iff : trimBy p cs = [] ↔ ∀ c ∈ cs, p c = true := by
  rw [trimBy, List.reverse_eq_nil_iff, List.dropWhile_eq_nil_iff]
  constructor
  · intro h c hc
    rw [← List.takeWhile_append_dropWhile (p := p) (l := cs)] at hc
    rcases List.mem_append.mp hc with hc | hc
    · exact List.mem_takeWhile_imp hc
    · exact h c (List.mem_reverse.mpr hc)
  · intro h c hc
    exact h c ((List.dropWhile_sublist p).subset (List.mem_reverse.mp hc))

theorem trim_eq_nil_iff : trim cs = [] ↔ ∀ c ∈ cs, isBlank c = true :=
  trimBy_eq_nil_iff

/-! ### Small letters -/

theorem lower_eq_nil_iff : lower cs = [] ↔ cs = [] := by
  cases cs with
  | nil => exact ⟨fun _ => rfl, fun _ => rfl⟩
  | cons c rest =>
    rw [lower, lowerFrom]
    split
    · split <;> simp
    · split <;> simp

theorem lowerFrom_of_ascii (h : ∀ c ∈ cs, c.toNat < 128) (inWord : Bool) :
    lowerFrom inWord cs = cs.map Char.toLower := by
  induction cs generalizing inWord with
  | nil => rfl
  | cons c rest ih =>
    obtain ⟨hc, hrest⟩ := List.forall_mem_cons.mp h
    rw [lowerFrom, if_neg (by omega), if_neg (by omega), lowerChar_of_ascii hc, ih hrest]
    rfl

theorem lower_of_ascii (h : ∀ c ∈ cs, c.toNat < 128) : lower cs = cs.map Char.toLower :=
  lowerFrom_of_ascii h false

end Chip8.Text
