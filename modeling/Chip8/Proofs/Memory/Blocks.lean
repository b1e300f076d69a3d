import Chip8.Memory.Basic

/-!
# Blocks

An access to a block of the whole address space is refused for one address.  If
the block does not begin before the memory, this is its last one, and it lies
behind the memory.  A block that is not refused puts its bytes in their places
and leaves the other ones as they were.

* `obstacle_eq_some_iff`: when a block is refused.
* `getElem_putCells`, `byteAt_writeBlock`: what a block has written.
-/

namespace Chip8.Memory

variable {m : Ram} {a bad : Int} {count : Nat} {o : OutOfRange}

/-- A block that does not begin before the memory is stopped by its last address. -/
theorem obstacle_eq_some_iff (ha : 0 ≤ a) :
    m.obstacle a count = some bad ↔
      0 < count ∧ 0xFFF < a + count - 1 ∧ bad = a + count - 1 := by
  have hfirst : ¬a < m.firstAddress := Int.not_lt.mpr ha
  have hlast : m.lastAddress = 0xFFF := rfl
  rw [obstacle, if_neg hfirst, hlast]
  by_cases hcount : count = 0
  · rw [if_pos hcount]
    constructor
    · intro h
      cases h
    · rintro ⟨hpos, -, -⟩
      omega
  · rw [if_neg hcount]
    by_cases hend : 0xFFF < a + count - 1
    · rw [if_pos hend, Option.some_inj]
      exact ⟨fun h => ⟨by omega, hend, h.symm⟩, fun ⟨_, _, h⟩ => h.symm⟩
    · rw [if_neg hend]
      constructor
      · intro h
        cases h
      · rintro ⟨-, h, -⟩
        exact absurd h hend

theorem readBlock_eq_error_iff :
    m.readBlock a count = .error o ↔ m.obstacle a count = some o.address := by
  obtain ⟨address⟩ := o
  rw [readBlock]
  cases m.obstacle a count with
  | none => exact ⟨by rintro ⟨⟩, by rintro ⟨⟩⟩
  | some bad =>
    rw [Option.some_inj]
    exact ⟨fun h => by cases h; rfl, fun h => by cases h; rfl⟩

/-- A block that is refused has written nothing. -/
theorem writeBlock_eq_error_iff {m' : Ram} {values : List Int} :
    m.writeBlock a values = (m', .error o) ↔
      m' = m ∧ m.obstacle a values.length = some o.address := by
  obtain ⟨address⟩ := o
  rw [writeBlock]
  cases m.obstacle a values.length with
  | none => exact ⟨by rintro ⟨⟩, by rintro ⟨-, ⟨⟩⟩⟩
  | some bad =>
    rw [Option.some_inj]
    exact ⟨fun h => by cases h; exact ⟨rfl, rfl⟩, by rintro ⟨rfl, rfl⟩; rfl⟩

/-! ### Blocks that are written -/

theorem getElem_putCells {size : Nat} (cells : Vector UInt8 size) (i : Nat) (bytes : List UInt8)
    {j : Nat} (hj : j < size) : (putCells cells i bytes)[j] =
      if i ≤ j then bytes.getD (j - i) cells[j] else cells[j] := by
  induction bytes generalizing cells i with
  | nil => rw [putCells, List.getD_nil, ite_self]
  | cons b rest ih =>
    rw [putCells, ih, Vector.getElem_setIfInBounds hj]
    by_cases hij : i = j
    · subst hij
      rw [if_neg (by omega), if_pos rfl, if_pos (Nat.le_refl i), Nat.sub_self, List.getD_cons_zero]
    · rw [if_neg hij]
      by_cases hle : i ≤ j
      · have hsub : j - i = j - (i + 1) + 1 := by omega
        rw [if_pos (by omega), if_pos hle, hsub, List.getD_cons_succ]
      · rw [if_neg (by omega), if_neg hle]

theorem ofInt_toNat (b : UInt8) : UInt8.ofInt (b.toNat : Int) = b := by
  have hlt : b.toNat < 2 ^ 8 := b.toNat_lt
  have hmod : ((b.toNat : Int) % 2 ^ 8).toNat = b.toNat := by omega
  rw [UInt8.ofInt, hmod, UInt8.ofNat_toNat]

theorem byteAt_eq_getElem (m : Ram) {i : Nat} (hi : i < addressSpace) :
    m.byteAt i = m.cells[i] := by
  have hcovers : Covers 0 addressSpace i := ⟨by omega, by omega⟩
  rw [byteAt, dif_pos hcovers]
  exact congrArg _ (Fin.ext (by simp only [place]; omega))

theorem byteAt_writeBlock {m' : Ram} {first : Nat} {bytes : List UInt8}
    (hw : m.writeBlock first (bytes.map fun b => (b.toNat : Int)) = (m', .ok ())) {i : Nat}
    (hi : i < addressSpace) :
    m'.byteAt i = if first ≤ i then bytes.getD (i - first) (m.byteAt i) else m.byteAt i := by
  rw [writeBlock] at hw
  split at hw
  · cases hw
  · cases hw
    have hbytes : (bytes.map fun b => (b.toNat : Int)).map UInt8.ofInt = bytes := by
      rw [List.map_map]
      exact List.map_id'' ofInt_toNat bytes
    have hfirst : ((first : Int) - (0 : Nat)).toNat = first := by omega
    rw [byteAt_eq_getElem _ hi, byteAt_eq_getElem _ hi, hbytes, hfirst]
    exact getElem_putCells m.cells first bytes hi

end Chip8.Memory
