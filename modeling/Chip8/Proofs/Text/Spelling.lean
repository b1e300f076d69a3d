import Chip8.Proofs.Text.Hex
import Chip8.Proofs.Text.Normal

/-!
# Spellings of a number

A number is written in base sixteen in many ways: with small and capital letters, with
zeros in front, with a marker `0x` or `0X` or without one, and with blanks around all of
it.  Each of these texts has no other character than blanks, digits and the letter of the
marker, and what is left of it in normal form behind the marker are digits that write the
number.

* `hexInteger?_eq`: an integer that is written by digits alone.
* `Spelling`: a way of writing a number, and `Spelling.text`, what is then written.
* `Spelling.shown`: the way in which numbers are shown.
* `Spelling.trim_text`, `Spelling.lower_numeral`, `Spelling.hexInteger?_smallDigits`: how a
  spelling is read.
-/

namespace Chip8.Text

variable {c : Char} {ds : List Char} {n : Nat}

/-! ### Digits -/

def IsHexDigit (c : Char) : Prop :=
  (digitValue? 16 c).isSome = true

instance (c : Char) : Decidable (IsHexDigit c) :=
  inferInstanceAs (Decidable (_ = true))

theorem forall_ascii {P : Char → Prop} (h : ∀ i : Fin 128, P (Char.ofNat i)) (hc : c.toNat < 128) :
    P c := by
  simpa using h ⟨c.toNat, hc⟩

theorem not_le_of_ascii {d : Char} (hc : ¬c.toNat < 128) (hd : d.toNat < 128) : ¬c ≤ d := by
  intro hle
  have hle : c.toNat ≤ d.toNat := hle
  omega

theorem IsHexDigit.toNat_lt (h : IsHexDigit c) : c.toNat < 128 := by
  by_contra hc
  have hdecimal : ¬c ≤ '9' := not_le_of_ascii hc (by decide)
  have hsmall : ¬c ≤ 'f' := not_le_of_ascii hc (by decide)
  have hcapital : ¬c ≤ 'F' := not_le_of_ascii hc (by decide)
  have hnone : digitValue? 16 c = none := by
    simp [digitValue?, hdecimal, hsmall, hcapital]
  rw [IsHexDigit, hnone] at h
  cases h

theorem IsHexDigit.isBlank_eq_false (h : IsHexDigit c) : isBlank c = false :=
  forall_ascii (P := fun c => IsHexDigit c → isBlank c = false) (by decide) h.toNat_lt h

theorem IsHexDigit.toLower (h : IsHexDigit c) : IsHexDigit c.toLower :=
  forall_ascii (P := fun c => IsHexDigit c → IsHexDigit c.toLower) (by decide) h.toNat_lt h

theorem digitValue?_toLower (c : Char) : digitValue? 16 c.toLower = digitValue? 16 c := by
  by_cases hc : c.toNat < 128
  · exact forall_ascii (P := fun c => digitValue? 16 c.toLower = digitValue? 16 c) (by decide) hc
  · have hlower : c.toLower = c := by
      apply dif_neg
      rintro ⟨-, hle⟩
      exact not_le_of_ascii (d := 'Z') hc (by decide) hle
    rw [hlower]

theorem hexNumber?_map_toLower (ds : List Char) :
    hexNumber? (ds.map Char.toLower) = hexNumber? ds := by
  rw [hexNumber?, List.foldlM_map]
  simp only [digitValue?_toLower, hexNumber?]

theorem hexNumber?_of_map_toLower (h : ds.map Char.toLower = (hexDigits n).map Char.toLower) :
    hexNumber? ds = some n := by
  rw [← hexNumber?_map_toLower, h, hexNumber?_map_toLower, hexNumber?_hexDigits]

theorem isHexDigit_of_map_toLower (h : ds.map Char.toLower = (hexDigits n).map Char.toLower)
    (hc : c ∈ ds) : IsHexDigit c := by
  have hlower : c.toLower ∈ (hexDigits n).map Char.toLower := h ▸ List.mem_map_of_mem hc
  obtain ⟨d, hd, hdc⟩ := List.mem_map.mp hlower
  rw [IsHexDigit, ← digitValue?_toLower, ← hdc, digitValue?_toLower]
  exact isSome_digitValue?_of_mem_hexDigits hd

theorem hexNumber?_zeros_append (zeros : Nat) (ds : List Char) :
    hexNumber? (List.replicate zeros '0' ++ ds) = hexNumber? ds := by
  rw [← hexNumber?_zeroFill (zeros + ds.length) ds, zeroFill, Nat.add_sub_cancel]

/-! ### Integers that are written by digits alone -/

theorem moreDigits?_eq (hds : ∀ c ∈ ds, IsHexDigit c) (acc : Nat) :
    moreDigits? 16 acc ds =
      ds.foldlM (fun n c => (digitValue? 16 c).map fun d => n * 16 + d) acc := by
  induction ds generalizing acc with
  | nil => rfl
  | cons c rest ih =>
    obtain ⟨hc, hrest⟩ := List.forall_mem_cons.mp hds
    have hscore : c ≠ '_' := by
      rintro rfl
      exact absurd hc (by decide)
    rw [moreDigits?, List.foldlM_cons]
    · cases hd : digitValue? 16 c with
      | none => rfl
      | some d => exact ih hrest _
    · intro _ _ h _
      exact hscore h

theorem natural?_eq (hne : ds ≠ []) (hds : ∀ c ∈ ds, IsHexDigit c) :
    natural? 16 ds = hexNumber? ds := by
  obtain ⟨c, rest, rfl⟩ := List.exists_cons_of_ne_nil hne
  obtain ⟨-, hrest⟩ := List.forall_mem_cons.mp hds
  rw [natural?, hexNumber?, List.foldlM_cons]
  cases hd : digitValue? 16 c with
  | none => rfl
  | some d =>
    simp only [Option.map_some, Nat.zero_mul, Nat.zero_add]
    exact moreDigits?_eq hrest d

theorem IsHexDigit.plainChar_eq (h : IsHexDigit c) : plainChar c = c :=
  if_pos h.toNat_lt

theorem IsHexDigit.isAsciiBlank_eq_false (h : IsHexDigit c) : isAsciiBlank c = false := by
  by_contra hblank
  have hblank := isBlank_of_isAsciiBlank (Bool.not_eq_false _ ▸ hblank : isAsciiBlank c = true)
  rw [h.isBlank_eq_false] at hblank
  cases hblank

theorem plainTrimmed_eq (hne : ds ≠ []) (hds : ∀ c ∈ ds, IsHexDigit c) : plainTrimmed ds = ds := by
  have hplain : ds.map plainChar = ds :=
    (List.map_congr_left fun c hc => (hds c hc).plainChar_eq).trans (List.map_id' ds)
  have htrim : trimBy isAsciiBlank ([] ++ ds ++ []) = ds :=
    trimBy_append (by simp) (by simp) hne fun c hc => (hds c hc).isAsciiBlank_eq_false
  rw [plainTrimmed, hplain]
  simpa using htrim

theorem splitSign_eq (hds : ∀ c ∈ ds, IsHexDigit c) : splitSign ds = (false, ds) := by
  unfold splitSign
  split
  · exact absurd (hds _ List.mem_cons_self) (by decide)
  · exact absurd (hds _ List.mem_cons_self) (by decide)
  · rfl

theorem dropMarker_eq (hds : ∀ c ∈ ds, IsHexDigit c) : dropMarker ds = ds := by
  have hx : ¬IsHexDigit 'x' := by decide
  have hX : ¬IsHexDigit 'X' := by decide
  unfold dropMarker
  split
  · exact absurd (hds 'x' (by simp)) hx
  · exact absurd (hds 'X' (by simp)) hX
  · exact absurd (hds 'x' (by simp)) hx
  · exact absurd (hds 'X' (by simp)) hX
  · rfl

/-- **Digits alone write an integer that is not negative.** -/
theorem hexInteger?_eq (hne : ds ≠ []) (hds : ∀ c ∈ ds, IsHexDigit c) :
    hexInteger? ds = (hexNumber? ds).map Int.ofNat := by
  rw [hexInteger?, plainTrimmed_eq hne hds, splitSign_eq hds]
  simp only [dropMarker_eq hds, natural?_eq hne hds]
  cases hexNumber? ds <;> rfl

/-! ### Spellings -/

/-- What tells that digits are in base sixteen. -/
inductive HexMarker
  | none
  | small
  | capital
  deriving DecidableEq

def HexMarker.chars : HexMarker → List Char
  | none => []
  | small => ['0', 'x']
  | capital => ['0', 'X']

theorem HexMarker.isHexDigit_or_eq (m : HexMarker) :
    ∀ c ∈ m.chars, IsHexDigit c ∨ c = 'x' ∨ c = 'X' := by
  have hzero : IsHexDigit '0' := by decide
  cases m <;> simp [HexMarker.chars, hzero]

/-- A way of writing a number in base sixteen. -/
structure Spelling (n : Nat) where
  before : List Char
  marker : HexMarker
  /-- How many zeros stand in front of the digits of the number. -/
  zeros : Nat
  digits : List Char
  after : List Char
  isBlank_before : ∀ c ∈ before, isBlank c = true
  isBlank_after : ∀ c ∈ after, isBlank c = true
  /-- The digits are those of the number, each in either case. -/
  digits_eq : digits.map Char.toLower = (hexDigits n).map Char.toLower

namespace Spelling

variable (s : Spelling n)

def numeral : List Char :=
  s.marker.chars ++ (List.replicate s.zeros '0' ++ s.digits)

def text : List Char :=
  s.before ++ s.numeral ++ s.after

/-- The way in which a number is shown, filled with zeros to `width` characters. -/
def shown (width n : Nat) : Spelling n where
  before := []
  marker := .none
  zeros := width - (hexDigits n).length
  digits := hexDigits n
  after := []
  isBlank_before := by simp
  isBlank_after := by simp
  digits_eq := rfl

theorem text_shown (width n : Nat) : (shown width n).text = hexChars width n := by
  rw [hexChars_natCast]
  exact List.append_nil _

/-- The digits in small letters, with the zeros in front of them. -/
def smallDigits : List Char :=
  List.replicate s.zeros '0' ++ s.digits.map Char.toLower

theorem digits_ne_nil : s.digits ≠ [] := by
  intro h
  have hdigits := s.digits_eq
  rw [h, List.map_nil, eq_comm, List.map_eq_nil_iff] at hdigits
  exact hexDigits_ne_nil n hdigits

theorem isHexDigit_or_eq_of_mem_numeral (hc : c ∈ s.numeral) :
    IsHexDigit c ∨ c = 'x' ∨ c = 'X' := by
  rcases List.mem_append.mp hc with hmarker | hdigits
  · exact s.marker.isHexDigit_or_eq c hmarker
  · rcases List.mem_append.mp hdigits with hzero | hdigit
    · rw [List.eq_of_mem_replicate hzero]
      exact .inl (by decide)
    · exact .inl (isHexDigit_of_map_toLower s.digits_eq hdigit)

/-! ### How a spelling is read -/

theorem isHexDigit_of_mem_smallDigits (hc : c ∈ s.smallDigits) : IsHexDigit c := by
  rcases List.mem_append.mp hc with hc | hc
  · rw [List.eq_of_mem_replicate hc]
    decide
  · obtain ⟨d, hd, rfl⟩ := List.mem_map.mp hc
    exact (isHexDigit_of_map_toLower s.digits_eq hd).toLower

theorem smallDigits_ne_nil : s.smallDigits ≠ [] := by
  simp [smallDigits, s.digits_ne_nil]

theorem hexNumber?_smallDigits : hexNumber? s.smallDigits = some n := by
  rw [smallDigits, hexNumber?_zeros_append, hexNumber?_map_toLower]
  exact hexNumber?_of_map_toLower s.digits_eq

theorem hexInteger?_smallDigits : hexInteger? s.smallDigits = some (n : Int) := by
  rw [hexInteger?_eq s.smallDigits_ne_nil fun _ => s.isHexDigit_of_mem_smallDigits,
    s.hexNumber?_smallDigits]
  rfl

theorem toNat_lt_of_mem_numeral (hc : c ∈ s.numeral) : c.toNat < 128 := by
  rcases s.isHexDigit_or_eq_of_mem_numeral hc with hdigit | rfl | rfl
  · exact hdigit.toNat_lt
  · decide
  · decide

theorem isBlank_eq_false_of_mem_numeral (hc : c ∈ s.numeral) : isBlank c = false := by
  rcases s.isHexDigit_or_eq_of_mem_numeral hc with hdigit | rfl | rfl
  · exact hdigit.isBlank_eq_false
  · decide
  · decide

theorem numeral_ne_nil : s.numeral ≠ [] := by
  simp [numeral, s.digits_ne_nil]

theorem trim_text : trim s.text = s.numeral :=
  trimBy_append s.isBlank_before s.isBlank_after s.numeral_ne_nil
    fun _ => s.isBlank_eq_false_of_mem_numeral

theorem lower_numeral :
    lower s.numeral = s.marker.chars.map Char.toLower ++ s.smallDigits := by
  rw [lower_of_ascii fun _ => s.toNat_lt_of_mem_numeral, numeral, List.map_append, List.map_append,
    List.map_replicate]
  rfl

theorem not_mem_text (hblank : isBlank c = false) (hdigit : ¬IsHexDigit c) (hx : c ≠ 'x')
    (hX : c ≠ 'X') : c ∉ s.text := by
  intro hc
  rcases List.mem_append.mp hc with hc | hc
  · rcases List.mem_append.mp hc with hc | hc
    · rw [s.isBlank_before c hc] at hblank
      cases hblank
    · rcases s.isHexDigit_or_eq_of_mem_numeral hc with h | h | h
      · exact hdigit h
      · exact hx h
      · exact hX h
  · rw [s.isBlank_after c hc] at hblank
    cases hblank

end Spelling

end Chip8.Text
