import Chip8.Proofs.Memory.Blocks
import Chip8.Proofs.Memory.Writes

/-!
# Blocks that fit

A block is read or written if all of its addresses lie in the memory.  What has been
read are the bytes at these addresses, and what has been written lies there, with
every other byte as before.

* `readBlock_of_covers`, `writeBlock_of_covers`: a block that fits is not refused.
* `byteAt_of_writeBlock`, `byteAt_add_of_writeBlock`: the bytes after a block has been
  written.
* `within_of_byteAt_ne`: no byte outside the block has changed.
-/

namespace Chip8.Memory

variable {start size n : Nat} {m m' : Memory start size} {a b : Int} {values : List Int}

theorem obstacle_of_covers (h : ∀ i : Nat, i < n → Covers start size (a + i)) :
    m.obstacle a n = none := by
  cases hbad : m.obstacle a n with
  | none => rfl
  | some bad =>
    obtain ⟨⟨i, hi, rfl⟩, hout⟩ := obstacle_spec hbad
    exact absurd (h i hi) hout

theorem readBlock_of_covers (m : Memory start size)
    (h : ∀ i : Nat, i < n → Covers start size (a + i)) :
    m.readBlock a n = .ok ((List.range n).map fun (i : Nat) => m.byteAt (a + i)) := by
  rw [readBlock, obstacle_of_covers h]

theorem length_of_readBlock {read : List UInt8} (h : m.readBlock a n = .ok read) :
    read.length = n := by
  rw [readBlock] at h
  split at h
  · cases h
  · cases h
    rw [List.length_map, List.length_range]

theorem writeBlock_of_covers (m : Memory start size)
    (h : ∀ i : Nat, i < values.length → Covers start size (a + i)) :
    ∃ m', m.writeBlock a values = (m', .ok ()) := by
  rw [writeBlock, obstacle_of_covers h]
  exact ⟨_, rfl⟩

theorem byteAt_of_covers (m : Memory start size) (h : Covers start size b) :
    m.byteAt b = getElem m.cells (place h).val (place h).isLt := by
  rw [byteAt, dif_pos h]
  rfl

theorem byteAt_of_not_covers (m : Memory start size) (h : ¬Covers start size b) :
    m.byteAt b = 0 := by
  rw [byteAt, dif_neg h]

/-- **The bytes after a block has been written.** -/
theorem byteAt_of_writeBlock (h : m.writeBlock a values = (m', .ok ())) (b : Int) :
    m'.byteAt b =
      if a ≤ b then (values.map UInt8.ofInt).getD (b - a).toNat (m.byteAt b) else m.byteAt b := by
  have hfits (i : Nat) (hi : i < values.length) : Covers start size (a + i) :=
    covers_of_writeBlock h hi
  rw [writeBlock, obstacle_of_covers hfits] at h
  cases h
  by_cases hb : Covers start size b
  · rw [byteAt_of_covers _ hb, byteAt_of_covers _ hb, getElem_putCells]
    have hplace : (place hb).val = (b - start).toNat := rfl
    cases values with
    | nil => simp
    | cons v values =>
      -- The first address lies in the memory, so the places are counted from it.
      have hfirst := hfits 0 (by simp)
      by_cases hab : a ≤ b
      · have hindex : (place hb).val - (a - start).toNat = (b - a).toNat := by omega
        rw [if_pos hab, if_pos (by omega), hindex]
      · rw [if_neg hab, if_neg (by omega)]
  · rw [byteAt_of_not_covers _ hb, byteAt_of_not_covers _ hb]
    split
    · next hab =>
      have hlength : (values.map UInt8.ofInt).length ≤ (b - a).toNat := by
        rw [List.length_map]
        apply Nat.le_of_not_lt
        intro hlt
        have hcovers := hfits (b - a).toNat hlt
        omega
      rw [List.getD_eq_getElem?_getD, List.getElem?_eq_none hlength, Option.getD_none]
    · rfl

theorem toNat_ofInt_eq_emod (v : Int) : ((UInt8.ofInt v).toNat : Int) = v % 256 := by
  have hlt : (v % 2 ^ 8).toNat < 2 ^ 8 := by omega
  rw [UInt8.ofInt, UInt8.toNat_ofNat', Nat.mod_eq_of_lt hlt]
  omega

theorem toNat_ofInt {v : Int} (h : 0 ≤ v ∧ v ≤ 255) : ((UInt8.ofInt v).toNat : Int) = v := by
  rw [toNat_ofInt_eq_emod]
  omega

theorem byteAt_add_of_writeBlock (h : m.writeBlock a values = (m', .ok ())) {i : Nat}
    {value : Int} (hi : values[i]? = some value) : m'.byteAt (a + i) = UInt8.ofInt value := by
  have hindex : (a + i - a).toNat = i := by omega
  rw [byteAt_of_writeBlock h, if_pos (by omega), hindex, List.getD_eq_getElem?_getD,
    List.getElem?_map, hi]
  rfl

theorem within_of_byteAt_ne (h : m.writeBlock a values = (m', .ok ())) {b : Int}
    (hne : m'.byteAt b ≠ m.byteAt b) : a ≤ b ∧ b < a + values.length := by
  rw [byteAt_of_writeBlock h] at hne
  split at hne
  · next hab =>
    refine ⟨hab, ?_⟩
    apply Int.lt_of_not_ge
    intro hlength
    apply hne
    rw [List.getD_eq_getElem?_getD, List.getElem?_eq_none, Option.getD_none]
    rw [List.length_map]
    omega
  · exact absurd rfl hne

end Chip8.Memory
