import Chip8.Proofs.Dump
import Chip8.Proofs.Memory.Transfers
import Mathlib.Data.List.Sort

/-!
# Merged ranges

Merging takes ranges in the order of their first addresses and looks at the last merged
range only.  What comes out are the largest ranges of addresses that the given ones
cover: they lie in order with a gap after each of them, and there is one list of such
ranges for each set of addresses.

* `separated_mergeFrom`, `covered_mergeFrom`: what one pass over sorted ranges keeps.
* `Separated.eq_of_covers`: ranges that are separated are given by what they cover.
* `separated_merge`, `covered_merge`: what merging comes to.
* `contents_bin`: the bytes in merged ranges are those at the covered addresses in order.
-/

namespace Chip8

namespace AddressRange

variable {r s : AddressRange} {rs ss : List AddressRange} {a : Int}

/-- The address lies in the range. -/
def Holds (r : AddressRange) (a : Int) : Prop :=
  r.first ≤ a ∧ a ≤ r.last

instance (r : AddressRange) (a : Int) : Decidable (r.Holds a) :=
  inferInstanceAs (Decidable (_ ∧ _))

/-- The address lies in one of the ranges. -/
def Covered (rs : List AddressRange) (a : Int) : Prop :=
  ∃ r ∈ rs, r.Holds a

instance (rs : List AddressRange) (a : Int) : Decidable (Covered rs a) :=
  inferInstanceAs (Decidable (∃ r ∈ rs, r.Holds a))

theorem not_covered_nil : ¬Covered [] a := by
  rintro ⟨r, hr, -⟩
  cases hr

theorem covered_cons : Covered (r :: rs) a ↔ r.Holds a ∨ Covered rs a := by
  simp only [Covered, List.exists_mem_cons_iff]

/-- The ranges are not empty, and a gap of one address at least lies between any two of them. -/
structure Separated (rs : List AddressRange) : Prop where
  nonempty : ∀ r ∈ rs, r.first ≤ r.last
  gaps : rs.Pairwise fun r s => r.last + 1 < s.first

theorem separated_cons :
    Separated (r :: rs) ↔
      r.first ≤ r.last ∧ (∀ s ∈ rs, r.last + 1 < s.first) ∧ Separated rs := by
  constructor
  · rintro ⟨hne, hgaps⟩
    obtain ⟨hr, hrs⟩ := List.forall_mem_cons.mp hne
    obtain ⟨hgap, hgaps⟩ := List.pairwise_cons.mp hgaps
    exact ⟨hr, hgap, hrs, hgaps⟩
  · rintro ⟨hr, hgap, hrs, hgaps⟩
    exact ⟨List.forall_mem_cons.mpr ⟨hr, hrs⟩, List.pairwise_cons.mpr ⟨hgap, hgaps⟩⟩

/-! ### Separated ranges are given by what they cover -/

namespace Separated

theorem lt_of_covered (h : Separated (r :: rs)) (ha : Covered rs a) : r.last + 1 < a := by
  obtain ⟨-, hgap, -⟩ := separated_cons.mp h
  obtain ⟨s, hs, hfirst, -⟩ := ha
  have hlt := hgap s hs
  omega

theorem first_le_of_covered (h : Separated (r :: rs)) (ha : Covered (r :: rs) a) :
    r.first ≤ a := by
  obtain ⟨hr, -⟩ := separated_cons.mp h
  rcases covered_cons.mp ha with hr | hrs
  · exact hr.1
  · have := h.lt_of_covered hrs
    omega

theorem covered_first (h : Separated (r :: rs)) : Covered (r :: rs) r.first := by
  obtain ⟨hr, -⟩ := separated_cons.mp h
  exact ⟨r, List.mem_cons_self, Int.le_refl _, hr⟩

/-- The first range ends where the addresses from its first one on are no longer covered. -/
theorem last_le_of_covers (hr : Separated (r :: rs)) (hs : Separated (s :: ss))
    (hfirst : r.first = s.first)
    (h : ∀ a, Covered (r :: rs) a → Covered (s :: ss) a) : r.last ≤ s.last := by
  obtain ⟨hne, -⟩ := separated_cons.mp hr
  by_contra hlt
  have hin : r.Holds (s.last + 1) := by
    obtain ⟨hsne, -⟩ := separated_cons.mp hs
    exact ⟨by omega, by omega⟩
  rcases covered_cons.mp (h _ (covered_cons.mpr (.inl hin))) with ⟨-, hle⟩ | hss
  · omega
  · have hgap := hs.lt_of_covered hss
    omega

theorem covered_tail_iff (h : Separated (r :: rs)) :
    Covered rs a ↔ Covered (r :: rs) a ∧ r.last < a := by
  constructor
  · intro ha
    have hlt := h.lt_of_covered ha
    exact ⟨covered_cons.mpr (.inr ha), by omega⟩
  · rintro ⟨ha, hlt⟩
    rcases covered_cons.mp ha with ⟨-, hle⟩ | hrs
    · omega
    · exact hrs

/-- **Separated ranges are given by the addresses that they cover.** -/
theorem eq_of_covers (hr : Separated rs) (hs : Separated ss)
    (h : ∀ a, Covered rs a ↔ Covered ss a) : rs = ss := by
  induction rs generalizing ss with
  | nil =>
    cases ss with
    | nil => rfl
    | cons s ss => exact absurd ((h _).mpr hs.covered_first) not_covered_nil
  | cons r rs ih =>
    cases ss with
    | nil => exact absurd ((h _).mp hr.covered_first) not_covered_nil
    | cons s ss =>
      have hfirst : r.first = s.first := by
        apply Int.le_antisymm
        · exact hr.first_le_of_covered ((h _).mpr hs.covered_first)
        · exact hs.first_le_of_covered ((h _).mp hr.covered_first)
      have hlast : r.last = s.last := by
        apply Int.le_antisymm
        · exact last_le_of_covers hr hs hfirst fun a => (h a).mp
        · exact last_le_of_covers hs hr hfirst.symm fun a => (h a).mpr
      obtain ⟨-, -, hrs⟩ := separated_cons.mp hr
      obtain ⟨-, -, hss⟩ := separated_cons.mp hs
      have htail : rs = ss := by
        apply ih hrs hss
        intro a
        rw [hr.covered_tail_iff, hs.covered_tail_iff, h a, hlast]
      have hhead : r = s := by
        cases r
        cases s
        simp_all
      rw [hhead, htail]

end Separated

/-! ### Merging -/

/-- The ranges are not empty and come in the order of their first addresses. -/
structure Ordered (rs : List AddressRange) : Prop where
  nonempty : ∀ r ∈ rs, r.first ≤ r.last
  order : rs.Pairwise fun r s => r.first ≤ s.first

theorem ordered_cons :
    Ordered (r :: rs) ↔ r.first ≤ r.last ∧ (∀ s ∈ rs, r.first ≤ s.first) ∧ Ordered rs := by
  constructor
  · rintro ⟨hne, horder⟩
    obtain ⟨hr, hrs⟩ := List.forall_mem_cons.mp hne
    obtain ⟨hle, horder⟩ := List.pairwise_cons.mp horder
    exact ⟨hr, hle, hrs, horder⟩
  · rintro ⟨hr, hle, hrs, horder⟩
    exact ⟨List.forall_mem_cons.mpr ⟨hr, hrs⟩, List.pairwise_cons.mpr ⟨hle, horder⟩⟩

def join (r s : AddressRange) : AddressRange :=
  ⟨r.first, max r.last s.last⟩

/-- Of two ranges in order, the second one begins behind the first one and one more address, or
they touch. -/
theorem touches_eq_true_iff (h : Ordered (r :: s :: rs)) :
    r.touches s = true ↔ s.first ≤ r.last + 1 := by
  obtain ⟨-, hle, hrest⟩ := ordered_cons.mp h
  obtain ⟨hs, -⟩ := ordered_cons.mp hrest
  have hfirst := hle s List.mem_cons_self
  simp only [touches, Bool.and_eq_true, decide_eq_true_eq]
  omega

theorem holds_join (hle : r.first ≤ s.first) (htouch : s.first ≤ r.last + 1) :
    (r.join s).Holds a ↔ r.Holds a ∨ s.Holds a := by
  simp only [Holds, join]
  omega

theorem Ordered.join_cons (h : Ordered (r :: s :: rs)) : Ordered (r.join s :: rs) := by
  obtain ⟨hr, hle, hrest⟩ := ordered_cons.mp h
  obtain ⟨-, -, hrs⟩ := ordered_cons.mp hrest
  obtain ⟨-, hle⟩ := List.forall_mem_cons.mp hle
  exact ordered_cons.mpr ⟨Int.le_trans hr (Int.le_max_left _ _), hle, hrs⟩

theorem first_le_of_mem_mergeFrom (h : Ordered (r :: rs)) :
    ∀ t ∈ mergeFrom r rs, r.first ≤ t.first := by
  induction rs generalizing r with
  | nil =>
    intro t ht
    obtain rfl := List.mem_singleton.mp ht
    exact Int.le_refl _
  | cons s rest ih =>
    intro t ht
    rw [mergeFrom] at ht
    split at ht
    · exact ih h.join_cons t ht
    · obtain ⟨-, hle, hrest⟩ := ordered_cons.mp h
      rcases List.mem_cons.mp ht with rfl | ht
      · exact Int.le_refl _
      · exact Int.le_trans (hle s List.mem_cons_self) (ih hrest t ht)

theorem separated_mergeFrom (h : Ordered (r :: rs)) : Separated (mergeFrom r rs) := by
  induction rs generalizing r with
  | nil =>
    obtain ⟨hr, -⟩ := ordered_cons.mp h
    exact ⟨by simpa [mergeFrom] using hr, List.pairwise_singleton _ _⟩
  | cons s rest ih =>
    rw [mergeFrom]
    split
    · exact ih h.join_cons
    · next htouch =>
      rw [touches_eq_true_iff h] at htouch
      obtain ⟨hr, -, hrest⟩ := ordered_cons.mp h
      refine separated_cons.mpr ⟨hr, ?_, ih hrest⟩
      intro t ht
      have hfirst := first_le_of_mem_mergeFrom hrest t ht
      omega

theorem covered_mergeFrom (h : Ordered (r :: rs)) :
    Covered (mergeFrom r rs) a ↔ Covered (r :: rs) a := by
  induction rs generalizing r with
  | nil => rw [mergeFrom]
  | cons s rest ih =>
    rw [mergeFrom]
    split
    · next htouch =>
      rw [touches_eq_true_iff h] at htouch
      obtain ⟨-, hle, -⟩ := ordered_cons.mp h
      have hjoin := holds_join (a := a) (hle s List.mem_cons_self) htouch
      refine (ih h.join_cons).trans ?_
      rw [covered_cons, covered_cons, covered_cons, hjoin, or_assoc]
    · obtain ⟨-, -, hrest⟩ := ordered_cons.mp h
      rw [covered_cons, ih hrest, ← covered_cons]

/-! ### Sorting -/

theorem le_trans (r s t : AddressRange) (hrs : le r s = true) (hst : le s t = true) :
    le r t = true := by
  simp only [le, Bool.or_eq_true, Bool.and_eq_true, decide_eq_true_eq, beq_iff_eq] at *
  omega

theorem le_total (r s : AddressRange) : (le r s || le s r) = true := by
  simp only [le, Bool.or_eq_true, Bool.and_eq_true, decide_eq_true_eq, beq_iff_eq]
  omega

theorem ordered_mergeSort (h : ∀ r ∈ rs, r.first ≤ r.last) : Ordered (rs.mergeSort le) := by
  constructor
  · intro r hr
    exact h r (List.mem_mergeSort.mp hr)
  · apply (List.pairwise_mergeSort le_trans le_total rs).imp
    intro r s hle
    simp only [le, Bool.or_eq_true, Bool.and_eq_true, decide_eq_true_eq, beq_iff_eq] at hle
    omega

theorem covered_mergeSort : Covered (rs.mergeSort le) a ↔ Covered rs a := by
  simp only [Covered, List.mem_mergeSort]

/-- Merging is one pass over sorted ranges. -/
theorem merge_eq_mergeFrom (hne : rs ≠ []) :
    ∃ r rest, rs.mergeSort le = r :: rest ∧ merge rs = mergeFrom r rest := by
  rw [merge]
  split
  · next h => exact absurd (h ▸ List.mergeSort_perm rs le).nil_eq.symm hne
  · next r rest h => exact ⟨r, rest, h, rfl⟩

/-- **Merged ranges are separated.** -/
theorem separated_merge (hne : rs ≠ []) (h : ∀ r ∈ rs, r.first ≤ r.last) :
    Separated (merge rs) := by
  obtain ⟨r, rest, hsort, hmerge⟩ := merge_eq_mergeFrom hne
  rw [hmerge]
  exact separated_mergeFrom (hsort ▸ ordered_mergeSort h)

/-- **Merged ranges cover the same addresses.** -/
theorem covered_merge (hne : rs ≠ []) (h : ∀ r ∈ rs, r.first ≤ r.last) :
    Covered (merge rs) a ↔ Covered rs a := by
  obtain ⟨r, rest, hsort, hmerge⟩ := merge_eq_mergeFrom hne
  rw [hmerge, covered_mergeFrom (hsort ▸ ordered_mergeSort h), ← hsort, covered_mergeSort]

/-- **What ranges merge into depends on what they cover only.** -/
theorem merge_eq_of_covered (hr : rs ≠ []) (hs : ss ≠ []) (hrs : ∀ r ∈ rs, r.first ≤ r.last)
    (hss : ∀ s ∈ ss, s.first ≤ s.last) (h : ∀ a, Covered rs a ↔ Covered ss a) :
    merge rs = merge ss := by
  apply (separated_merge hr hrs).eq_of_covers (separated_merge hs hss)
  intro a
  rw [covered_merge hr hrs, covered_merge hs hss, h a]

/-- **Merging once more changes nothing.** -/
theorem merge_merge (hne : rs ≠ []) (h : ∀ r ∈ rs, r.first ≤ r.last) :
    merge (merge rs) = merge rs := by
  obtain ⟨r, rest, -, hmerge⟩ := merge_eq_mergeFrom hne
  apply merge_eq_of_covered (hmerge ▸ mergeFrom_ne_nil r rest) hne
    (separated_merge hne h).nonempty h
  intro a
  exact covered_merge hne h

/-! ### The addresses in ranges -/

def addresses (r : AddressRange) : List Int :=
  (List.range (r.last - r.first + 1).toNat).map fun (i : Nat) => r.first + i

theorem mem_addresses : a ∈ r.addresses ↔ r.Holds a := by
  simp only [addresses, List.mem_map, List.mem_range, Holds]
  constructor
  · rintro ⟨i, hi, rfl⟩
    omega
  · rintro ⟨hfirst, hlast⟩
    exact ⟨(a - r.first).toNat, by omega, by omega⟩

theorem mem_flatMap_addresses : a ∈ rs.flatMap addresses ↔ Covered rs a := by
  simp only [List.mem_flatMap, mem_addresses, Covered]

theorem pairwise_addresses (r : AddressRange) : r.addresses.Pairwise (· < ·) := by
  rw [addresses, List.pairwise_map]
  apply List.pairwise_lt_range.imp
  intro i j hij
  omega

theorem Separated.pairwise_addresses (h : Separated rs) :
    (rs.flatMap addresses).Pairwise (· < ·) := by
  rw [List.pairwise_flatMap]
  constructor
  · intro r _
    exact r.pairwise_addresses
  · apply h.gaps.imp
    intro r s hgap a ha b hb
    have ha := (mem_addresses.mp ha).2
    have hb := (mem_addresses.mp hb).1
    omega

def allAddresses : List Int :=
  (List.range addressSpace).map fun (i : Nat) => (i : Int)

theorem mem_allAddresses : a ∈ allAddresses ↔ 0 ≤ a ∧ a ≤ topAddress := by
  simp only [allAddresses, List.mem_map, List.mem_range, addressSpace, topAddress]
  constructor
  · rintro ⟨i, hi, rfl⟩
    omega
  · rintro ⟨hlow, hhigh⟩
    exact ⟨a.toNat, by omega, by omega⟩

theorem pairwise_allAddresses : allAddresses.Pairwise (· < ·) := by
  rw [allAddresses, List.pairwise_map]
  apply List.pairwise_lt_range.imp
  intro i j hij
  exact Int.ofNat_lt.mpr hij

/-- **The addresses in separated ranges are the covered ones in order.** -/
theorem Separated.flatMap_addresses (h : Separated rs) (hw : ∀ r ∈ rs, r.Within) :
    rs.flatMap addresses = allAddresses.filter fun a => Covered rs a := by
  apply h.pairwise_addresses.eq_of_mem_iff (pairwise_allAddresses.filter _)
  intro a
  rw [mem_flatMap_addresses, List.mem_filter, mem_allAddresses, decide_eq_true_eq]
  constructor
  · intro ha
    obtain ⟨r, hr, hfirst, hlast⟩ := ha
    obtain ⟨hlow, -, hhigh⟩ := hw r hr
    exact ⟨⟨by omega, by omega⟩, r, hr, hfirst, hlast⟩
  · rintro ⟨-, ha⟩
    exact ha

end AddressRange

/-! ### The bytes in ranges -/

open AddressRange

theorem mapM_eq_pure {M : Type → Type} [Monad M] [LawfulMonad M] {α β : Type} {f : α → M β}
    {g : α → β} {as : List α} (h : ∀ a ∈ as, f a = pure (g a)) :
    as.mapM f = pure (as.map g) := by
  induction as with
  | nil => rw [List.mapM_nil, List.map_nil]
  | cons a rest ih =>
    obtain ⟨ha, hrest⟩ := List.forall_mem_cons.mp h
    rw [List.mapM_cons, ha, ih hrest, pure_bind, pure_bind, List.map_cons]

variable {m : Ram} {r : AddressRange} {rs : List AddressRange}

theorem readBlock_eq_addresses (h : r.Within) :
    m.readBlock r.first (r.last - r.first + 1).toNat = .ok (r.addresses.map m.byteAt) := by
  obtain ⟨hfirst, hle, hlast⟩ := h
  simp only [topAddress] at hlast
  have hcovers : ∀ i : Nat, i < (r.last - r.first + 1).toNat →
      Memory.Covers 0 addressSpace (r.first + i) := by
    intro i hi
    simp only [Memory.Covers, addressSpace]
    omega
  rw [Memory.readBlock_of_covers m hcovers, addresses, List.map_map]
  rfl

/-- The bytes at the covered addresses, and all bytes if there are no ranges. -/
def Dump.coveredBytes (m : Ram) (rs : List AddressRange) : List UInt8 :=
  (allAddresses.filter fun a => rs = [] ∨ Covered rs a).map m.byteAt

theorem Dump.coveredBytes_eq {ss : List AddressRange} (hsep : Separated ss)
    (hw : ∀ s ∈ ss, s.Within)
    (hcovered : ∀ a ∈ allAddresses, Covered ss a ↔ rs = [] ∨ Covered rs a) :
    Dump.coveredBytes m rs = (ss.flatMap addresses).map m.byteAt := by
  have hfilter : (allAddresses.filter fun a => Covered ss a) =
      allAddresses.filter fun a => rs = [] ∨ Covered rs a := by
    apply List.filter_congr
    intro a ha
    exact decide_eq_decide.mpr (hcovered a ha)
  rw [Dump.coveredBytes, hsep.flatMap_addresses hw, hfilter]

/-- **The bytes in merged ranges are those at the covered addresses**, each once and in order. -/
theorem contents_bin (h : ∀ r ∈ rs, r.Within) :
    Dump.contents .bin m rs = .ok (Dump.coveredBytes m rs) := by
  have hw := within_merge h
  have hblocks : (merge rs).mapM (fun r => m.readBlock r.first (r.last - r.first + 1).toNat) =
      .ok ((merge rs).map fun r => r.addresses.map m.byteAt) := by
    apply mapM_eq_pure
    intro r hr
    exact readBlock_eq_addresses (hw r hr)
  have hsep : Separated (merge rs) := by
    by_cases hne : rs = []
    · subst hne
      exact ⟨by simp [merge, topAddress], by simp [merge]⟩
    · exact separated_merge hne fun r hr => (h r hr).2.1
  have hcovered : ∀ a ∈ allAddresses, Covered (merge rs) a ↔ rs = [] ∨ Covered rs a := by
    intro a ha
    by_cases hne : rs = []
    · subst hne
      obtain ⟨hlow, hhigh⟩ := mem_allAddresses.mp ha
      simp [merge, Covered, Holds, hlow, hhigh]
    · rw [covered_merge hne fun r hr => (h r hr).2.1]
      simp [hne]
  calc Dump.contents .bin m rs
      = .ok ((merge rs).map fun r => r.addresses.map m.byteAt).flatten := by
        rw [Dump.contents, Dump.bytes, hblocks]
        rfl
    _ = .ok (((merge rs).flatMap addresses).map m.byteAt) := by
        rw [← List.flatMap_def, ← List.map_flatMap]
    _ = .ok (Dump.coveredBytes m rs) := by
        rw [Dump.coveredBytes_eq hsep hw hcovered]

end Chip8
