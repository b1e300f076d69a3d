import Chip8.Proofs.Dump
import Chip8.Proofs.Text.Spelling

/-!
# Numbers and ranges in text

A number that is read lies between zero and the limit, and every spelling of a number up
to the limit is read as this number.  A range may be written with both of its ends or with
its length, and both notations are read as the same range.  The length is read as an
address is, so that one range has no length that can be read: the whole memory.

* `parseNumber_text`: every spelling of a number is read.
* `parse_text_colon`, `parse_text_plus`: both notations are read.
* `numbers_and_ranges_are_read`: what is read, and that what is shown is read back.
* `notations_agree`, `whole_memory_has_no_length`.
-/

namespace Chip8

open Text

variable {n : Nat} {ds : List Char}

/-! ### Numbers -/

theorem dropHexMarker_eq (hds : ∀ c ∈ ds, IsHexDigit c) : dropHexMarker ds = ds := by
  unfold dropHexMarker
  split
  · exact absurd (hds 'x' (by simp)) (by decide)
  · rfl

theorem dropHexMarker_lower_numeral (s : Spelling n) :
    dropHexMarker (lower s.numeral) = s.smallDigits := by
  rw [s.lower_numeral]
  cases s.marker with
  | none => exact dropHexMarker_eq fun _ => s.isHexDigit_of_mem_smallDigits
  | small => rfl
  | capital => rfl

/-- **Every spelling of a number is read** as the number, or refused if it is beyond the limit. -/
theorem parseNumber_text (limit : Int) (s : Spelling n) :
    parseNumber limit s.text =
      if (n : Int) ≤ limit then .ok (n : Int) else .error (.outsideLimit limit) := by
  have hne : s.smallDigits.isEmpty = false := by
    simpa using s.smallDigits_ne_nil
  have hneg : ¬(n : Int) < 0 := by omega
  rw [parseNumber, s.trim_text, dropHexMarker_lower_numeral]
  simp only [hne, s.hexInteger?_smallDigits, hneg]
  by_cases hle : (n : Int) ≤ limit
  · simp [hle, Int.not_lt.mpr hle]
  · simp [hle, Int.not_le.mp hle]

theorem parseAddress_text (s : Spelling n) (h : (n : Int) ≤ topAddress) :
    parseAddress s.text = .ok (n : Int) := by
  rw [parseAddress, parseNumber_text, if_pos h]

theorem parseNumber_sound (limit : Int) (text : List Char) :
    (∃ e, parseNumber limit text = .error e) ∨
      ∃ a, parseNumber limit text = .ok a ∧ 0 ≤ a ∧ a ≤ limit := by
  cases h : parseNumber limit text with
  | error e => exact .inl ⟨e, rfl⟩
  | ok a => exact .inr ⟨a, rfl, AddressRange.bounds_of_parseNumber h⟩

namespace AddressRange

/-! ### Ranges -/

theorem parse_sound (text : List Char) :
    (∃ e, parse text = .error e) ∨ ∃ r, parse text = .ok r ∧ r.Within := by
  cases h : parse text with
  | error e => exact .inl ⟨e, rfl⟩
  | ok r => exact .inr ⟨r, rfl, within_of_parse h⟩

theorem cut_append {sep : Char} {front : List Char} (h : sep ∉ front) (back : List Char) :
    cut sep (front ++ sep :: back) = (front, back) := by
  have hfront : ∀ c ∈ front, decide (c ≠ sep) = true := by
    intro c hc
    exact decide_eq_true (ne_of_mem_of_not_mem hc h)
  simp only [cut, List.takeWhile_append_of_pos hfront, List.dropWhile_append_of_pos hfront]
  simp

theorem parse_colon {front : List Char} (h : ':' ∉ front) (back : List Char) :
    parse (front ++ ':' :: back) = (do
      let first ← parseAddress front
      let last ← parseAddress back
      checked first last) := by
  rw [parse, if_pos (by simp), cut_append h]

/-- A range with its length; a colon anywhere would make it one with both ends. -/
theorem parse_plus {front back : List Char} (hfront : ':' ∉ front) (hback : ':' ∉ back)
    (h : '+' ∉ front) :
    parse (front ++ '+' :: back) = (do
      let first ← parseAddress front
      let length ← parseAddress back
      if topAddress < first + length - 1 then .error .rangePastEnd
      else checked first (first + length - 1)) := by
  rw [parse, if_neg (by simp [hfront, hback]), if_pos (by simp), cut_append h]

variable {first last : Nat}

theorem colon_not_mem_text (s : Spelling n) : ':' ∉ s.text :=
  s.not_mem_text (by decide) (by decide) (by decide) (by decide)

theorem plus_not_mem_text (s : Spelling n) : '+' ∉ s.text :=
  s.not_mem_text (by decide) (by decide) (by decide) (by decide)

theorem parse_text_colon (hle : first ≤ last) (htop : (last : Int) ≤ topAddress)
    (s : Spelling first) (t : Spelling last) :
    parse (s.text ++ ':' :: t.text) = .ok ⟨first, last⟩ := by
  rw [parse_colon (colon_not_mem_text s), parseAddress_text s (by omega), parseAddress_text t htop]
  exact if_neg (by omega)

/-- A range is read from the spellings of its first address and its length, unless the length is
beyond the last address. -/
theorem parse_text_plus (hle : first ≤ last) (htop : (last : Int) ≤ topAddress)
    (s : Spelling first) (u : Spelling (last - first + 1)) :
    parse (s.text ++ '+' :: u.text) =
      if topAddress < (last - first + 1 : Nat) then .error (.outsideLimit topAddress)
      else .ok ⟨first, last⟩ := by
  rw [parse_plus (colon_not_mem_text s) (colon_not_mem_text u) (plus_not_mem_text s),
    parseAddress_text s (by omega)]
  -- a length is read as an address is
  by_cases hlong : topAddress < (last - first + 1 : Nat)
  · rw [if_pos hlong, parseAddress, parseNumber_text, if_neg (Int.not_le.mpr hlong)]
    rfl
  · have hlast : (first : Int) + (last - first + 1 : Nat) - 1 = last := by omega
    rw [if_neg hlong, parseAddress_text u (Int.not_lt.mp hlong)]
    show (if _ then _ else checked _ _) = _
    rw [hlast, if_neg (Int.not_lt.mpr htop), checked, if_neg (by omega)]

end AddressRange

open AddressRange

/-- **Numbers and ranges are read soundly, and what is shown is read back.**  Whatever the text and
the limit are, a number that is read lies between zero and the limit, and a range that is read is
not empty and lies inside the address space.  A number up to the limit is read from every spelling
of it, and so from the text that shows it; a number beyond the limit is refused for this. -/
theorem numbers_and_ranges_are_read (text : List Char) (limit : Int) :
    ((∃ e, parseNumber limit text = .error e) ∨
      ∃ a, parseNumber limit text = .ok a ∧ 0 ≤ a ∧ a ≤ limit) ∧
    ((∃ e, AddressRange.parse text = .error e) ∨
      ∃ r, AddressRange.parse text = .ok r ∧ r.Within) ∧
    ∀ n : Nat,
      let reading : Except NumeralError Int :=
        if (n : Int) ≤ limit then .ok n else .error (.outsideLimit limit)
      (∀ s : Spelling n, parseNumber limit s.text = reading) ∧
        ∀ width, parseNumber limit (hexChars width n) = reading := by
  refine ⟨parseNumber_sound limit text, parse_sound text, fun n => ⟨parseNumber_text limit, ?_⟩⟩
  intro width
  rw [← Spelling.text_shown, parseNumber_text]

/-- **Both notations name the same range**, in all spellings of the numbers, and every range but the
whole memory.  This one has both of its ends, but its length is refused, since no address is so
large. -/
theorem notations_agree {first last : Nat} (hle : first ≤ last) (htop : (last : Int) ≤ topAddress)
    (s : Spelling first) (t : Spelling last) (u : Spelling (last - first + 1)) :
    AddressRange.parse (s.text ++ ':' :: t.text) = .ok ⟨first, last⟩ ∧
      AddressRange.parse (s.text ++ '+' :: u.text) =
        if first = 0 ∧ (last : Int) = topAddress then .error (.outsideLimit topAddress)
        else .ok ⟨first, last⟩ := by
  refine ⟨parse_text_colon hle htop s t, ?_⟩
  have hwhole : topAddress < (last - first + 1 : Nat) ↔ first = 0 ∧ (last : Int) = topAddress := by
    simp only [topAddress] at htop ⊢
    omega
  rw [parse_text_plus hle htop s u]
  simp only [hwhole]

/-- The first address as `0X00`, the one before the last as ` ffe` and the length as `00Fff`. -/
theorem notations_agree_of_first_addresses :
    AddressRange.parse "0X00: ffe".toList = .ok ⟨0, 0xFFE⟩ ∧
      AddressRange.parse "0X00+00Fff".toList = .ok ⟨0, 0xFFE⟩ := by
  let s : Spelling 0 := ⟨[], .capital, 1, ['0'], [], by simp, by simp, by decide +kernel⟩
  let t : Spelling 0xFFE :=
    ⟨[' '], .none, 0, ['f', 'f', 'e'], [], by simp [isBlank], by simp, by decide +kernel⟩
  let u : Spelling (0xFFE - 0 + 1) :=
    ⟨[], .none, 2, ['F', 'f', 'f'], [], by simp, by simp, by decide +kernel⟩
  exact notations_agree (by decide) (by decide) s t u

/-- **The length of the whole memory is refused**, although both ends are not. -/
theorem whole_memory_has_no_length :
    AddressRange.parse "0:FFF".toList = .ok ⟨0, topAddress⟩ ∧
      AddressRange.parse "0+1000".toList = .error (.outsideLimit topAddress) := by
  decide

end Chip8
