import Chip8.Dump
import Chip8.Proofs.Memory.Writes

/-!
# Dumps never leave the memory

A range that has been read from a text lies inside the address space, and so do
the ranges that merging makes of such ranges.  The rows of a listing are cut at
multiples of sixteen, so that a row that begins inside the address space also
ends inside it.

* `within_of_parse`: a range that has been read lies inside the address space.
* `within_merge`: merging keeps ranges inside it.
* `contents_of_within`: a dump of ranges inside it is not refused.
-/

namespace Chip8

namespace AddressRange

/-- The range is not empty and lies inside the address space. -/
def Within (r : AddressRange) : Prop :=
  0 ≤ r.first ∧ r.first ≤ r.last ∧ r.last ≤ topAddress

variable {r : AddressRange} {text : List Char} {a : Int}

theorem bounds_of_parseNumber {limit : Int} (h : parseNumber limit text = .ok a) :
    0 ≤ a ∧ a ≤ limit := by
  rw [parseNumber] at h
  split at h
  · cases h
  · split at h
    · cases h
    · split at h
      · cases h
      · next hrange =>
        cases h
        simpa using hrange

theorem within_of_checked {first last : Int} (hfirst : 0 ≤ first) (hlast : last ≤ topAddress)
    (h : checked first last = .ok r) : r.Within := by
  rw [checked] at h
  split at h
  · cases h
  · next hle =>
    cases h
    exact ⟨hfirst, Int.not_lt.mp hle, hlast⟩

theorem within_of_parse (h : parse text = .ok r) : r.Within := by
  rw [parse] at h
  split at h
  · rcases hfirst : parseAddress (cut ':' text).1 with e | first
    · simp [hfirst, bind, Except.bind] at h
    · rcases hlast : parseAddress (cut ':' text).2 with e | last
      · simp [hfirst, hlast, bind, Except.bind] at h
      · simp only [hfirst, hlast, bind, Except.bind] at h
        exact within_of_checked (bounds_of_parseNumber hfirst).1 (bounds_of_parseNumber hlast).2 h
  · split at h
    · rcases hfirst : parseAddress (cut '+' text).1 with e | first
      · simp [hfirst, bind, Except.bind] at h
      · rcases hlength : parseAddress (cut '+' text).2 with e | length
        · simp [hfirst, hlength, bind, Except.bind] at h
        · simp only [hfirst, hlength, bind, Except.bind] at h
          split at h
          · cases h
          · next hle =>
            exact within_of_checked (bounds_of_parseNumber hfirst).1 (Int.not_lt.mp hle) h
    · cases h

/-! ### Merging -/

theorem within_mergeFrom {rs : List AddressRange} (hr : r.Within) (hrs : ∀ s ∈ rs, s.Within) :
    ∀ t ∈ mergeFrom r rs, t.Within := by
  induction rs generalizing r with
  | nil =>
    intro t ht
    obtain rfl := List.mem_singleton.mp ht
    exact hr
  | cons s rest ih =>
    obtain ⟨hs, hrest⟩ := List.forall_mem_cons.mp hrs
    rw [mergeFrom]
    split
    · obtain ⟨hfirst, hle, hlast⟩ := hr
      refine ih ⟨hfirst, ?_, ?_⟩ hrest
      · exact Int.le_trans hle (Int.le_max_left _ _)
      · exact Int.max_le.mpr ⟨hlast, hs.2.2⟩
    · intro t ht
      rcases List.mem_cons.mp ht with rfl | ht
      · exact hr
      · exact ih hs hrest t ht

/-- **Merging keeps ranges inside the address space.** -/
theorem within_merge {rs : List AddressRange} (hrs : ∀ s ∈ rs, s.Within) :
    ∀ t ∈ merge rs, t.Within := by
  have hsorted : ∀ s ∈ rs.mergeSort le, s.Within := fun s hs => hrs s (List.mem_mergeSort.mp hs)
  rw [merge]
  split
  · intro t ht
    obtain rfl := List.mem_singleton.mp ht
    exact ⟨by decide, by decide, by decide⟩
  · next r rest heq =>
    rw [heq] at hsorted
    obtain ⟨hr, hrest⟩ := List.forall_mem_cons.mp hsorted
    exact within_mergeFrom hr hrest

end AddressRange

/-! ### Reading -/

open AddressRange (Within)

theorem mapM_isOk {α β ε : Type} {f : α → Except ε β} {as : List α}
    (h : ∀ a ∈ as, ∃ b, f a = .ok b) : ∃ bs, as.mapM f = .ok bs := by
  induction as with
  | nil => exact ⟨[], rfl⟩
  | cons a rest ih =>
    obtain ⟨⟨b, hb⟩, hrest⟩ := List.forall_mem_cons.mp h
    obtain ⟨bs, hbs⟩ := ih hrest
    exact ⟨b :: bs, by simp [List.mapM_cons, hb, hbs, bind, Except.bind, pure, Except.pure]⟩

variable {m : Ram} {r : AddressRange}

theorem readBlock_of_within (h : r.Within) :
    ∃ bytes, m.readBlock r.first (r.last - r.first + 1).toNat = .ok bytes := by
  obtain ⟨hfirst, hle, hlast⟩ := h
  rw [Memory.readBlock]
  split
  · next bad hbad =>
    obtain ⟨⟨i, hi, rfl⟩, hout⟩ := Memory.obstacle_spec hbad
    simp only [topAddress] at hlast
    simp only [Memory.Covers, addressSpace] at hout
    omega
  · exact ⟨_, rfl⟩

/-- A row that begins at a multiple of sixteen ends inside the address space. -/
theorem rowLine_isOk {address : Int} (hlow : 0 ≤ address) (hhigh : address ≤ topAddress)
    (hrow : address % 16 = 0) : ∃ line, Listing.rowLine m address = .ok line := by
  have hcell : ∀ i ∈ List.range Listing.rowWidth, ∃ b, m.load8 (address + (i : Nat)) = .ok b := by
    intro i hi
    have hlt : i < 16 := List.mem_range.mp hi
    simp only [topAddress] at hhigh
    refine ⟨_, Memory.load8_of_covers ?_⟩
    simp only [Memory.Covers, addressSpace]
    omega
  obtain ⟨cells, hcells⟩ := mapM_isOk hcell
  exact ⟨_, by rw [Listing.rowLine, hcells]; rfl⟩

theorem rowAddresses_spec (h : r.Within) {address : Int} (ha : address ∈ Listing.rowAddresses r) :
    0 ≤ address ∧ address ≤ topAddress ∧ address % 16 = 0 := by
  obtain ⟨hfirst, hle, hlast⟩ := h
  simp only [Listing.rowAddresses, Listing.rowWidth, List.mem_map, List.mem_range] at ha
  obtain ⟨i, hi, rfl⟩ := ha
  simp only [topAddress] at hlast ⊢
  omega

theorem blockLines_isOk (h : r.Within) : ∃ lines, Listing.blockLines m r = .ok lines := by
  have hrow : ∀ address ∈ Listing.rowAddresses r, ∃ line,
      Listing.rowLine m address = .ok line := by
    intro address ha
    obtain ⟨hlow, hhigh, hrow⟩ := rowAddresses_spec h ha
    exact rowLine_isOk hlow hhigh hrow
  obtain ⟨rows, hrows⟩ := mapM_isOk hrow
  exact ⟨_, by rw [Listing.blockLines, hrows]; rfl⟩

/-- **A dump of ranges inside the address space is not refused**, whatever is in the memory. -/
theorem contents_of_within {ranges : List AddressRange} (format : DumpFormat)
    (h : ∀ r ∈ ranges, r.Within) : ∃ data, Dump.contents format m ranges = .ok data := by
  have hmerged := AddressRange.within_merge h
  cases format with
  | hex =>
    obtain ⟨blocks, hblocks⟩ := mapM_isOk (f := Listing.blockLines m)
      fun r hr => blockLines_isOk (hmerged r hr)
    exact ⟨_, by rw [Dump.contents, Dump.listingBytes, Listing.chars, hblocks]; rfl⟩
  | bin =>
    obtain ⟨blocks, hblocks⟩ := mapM_isOk
      (f := fun r : AddressRange => m.readBlock r.first (r.last - r.first + 1).toNat)
      fun r hr => readBlock_of_within (hmerged r hr)
    exact ⟨_, by rw [Dump.contents, Dump.bytes, hblocks]; rfl⟩
  | none => exact ⟨[], rfl⟩

end Chip8
