import Chip8.Proofs.Machine.Halting
import Chip8.Proofs.Memory.Transfers

/-!
# Transfers between registers and memory

Two instructions write the first registers to the memory, one byte for each, and read
them again; a third one writes the decimal digits of one register.  All three begin at
the index register.  The first two count the registers in the same way, and move the
index register in the same way, if the dialect lets them.

* `get_setFirst`: the registers that have been read from bytes, and the others.
* `execute_store`, `execute_load`, `execute_decimal`: what the instructions do where
  their bytes lie in the memory.
* `decimalDigits_byte`: the three digits of a byte.
-/

namespace Chip8

namespace Registers

theorem get_setFirst (r : Registers) (values : List UInt8) (z : Register) :
    (r.setFirst values).get z =
      (values[z.val]?.map fun (b : UInt8) => (b.toNat : Int)).getD (r.get z) := by
  have hget (f : Fin 16 → Int) : (Vector.ofFn f).get z = f z := Vector.getElem_ofFn z.isLt
  rw [get, setFirst, hget]
  cases values[z.val]? <;> rfl

theorem get_setFirst_of_le (r : Registers) {values : List UInt8} {z : Register}
    (h : values.length ≤ z.val) : (r.setFirst values).get z = r.get z := by
  rw [get_setFirst, List.getElem?_eq_none h]
  rfl

theorem index_setFirst (r : Registers) (values : List UInt8) :
    (r.setFirst values).index = r.index := by
  rw [setFirst]

theorem getElem?_first (r : Registers) {count : Nat} {z : Register} (h : z.val < count) :
    (r.first count)[z.val]? = some (r.get z) := by
  rw [first, List.getElem?_take_of_lt h, Vector.getElem?_toList]
  exact Vector.getElem?_eq_getElem z.isLt

end Registers

namespace Machine

variable {m : Machine}

/-! ### The index register after a transfer -/

theorem passIndex_memory (m : Machine) (count : Nat) : (m.passIndex count).memory = m.memory := by
  rw [passIndex]
  split <;> rfl

theorem passIndex_v (m : Machine) (count : Nat) (z : Register) :
    (m.passIndex count).v z = m.v z := by
  rw [passIndex]
  split <;> rfl

theorem passIndex_index {count : Nat} (h : 0 ≤ m.index ∧ m.index + count ≤ 0xFFFF) :
    (m.passIndex count).index =
      if m.dialect.loadStoreIncrementsIndex then m.index + count else m.index := by
  have hmod : (m.index + count) % 0x10000 = m.index + count := by omega
  rw [passIndex, hmod]
  split <;> rfl

/-! ### The instructions -/

theorem covers_of_fits {a : Int} {n : Nat} (h : 0 ≤ a ∧ a + n ≤ 0x1000) (i : Nat) (hi : i < n) :
    Memory.Covers 0 addressSpace (a + i) := by
  simp only [Memory.Covers, addressSpace]
  omega

/-- **Storing registers** that fit at the index register. -/
theorem execute_store (x : Register) (hfits : 0 ≤ m.index ∧ m.index + x.val ≤ 0xFFF) :
    ∃ memory, m.execute (.store x) = .completed (passIndex { m with memory } (x.val + 1)) ∧
      (∀ z ≤ x, memory.byteAt (m.index + z.val) = UInt8.ofInt (m.v z)) ∧
      ∀ a, a < m.index ∨ m.index + x.val < a → memory.byteAt a = m.memory.byteAt a := by
  have hlength := length_first m.registers x
  obtain ⟨memory, hwrite⟩ :
      ∃ memory, m.memory.writeBlock m.index (m.registers.first (x.val + 1)) = (memory, .ok ()) :=
    m.memory.writeBlock_of_covers (covers_of_fits (by omega))
  refine ⟨memory, ?_, ?_, ?_⟩
  · rw [execute]
    exact writeAtIndex_of_ok hwrite _
  · intro z hz
    have hz : z.val < x.val + 1 := Nat.lt_succ_of_le hz
    exact Memory.byteAt_add_of_writeBlock hwrite (m.registers.getElem?_first hz)
  · intro a ha
    apply Classical.byContradiction
    intro hne
    obtain ⟨hfirst, hlast⟩ := Memory.within_of_byteAt_ne hwrite hne
    omega

/-- **Loading registers** that fit at the index register. -/
theorem execute_load (x : Register) (hfits : 0 ≤ m.index ∧ m.index + x.val ≤ 0xFFF) :
    ∃ registers, m.execute (.load x) = .completed (passIndex { m with registers } (x.val + 1)) ∧
      registers.index = m.index ∧
      (∀ z ≤ x, registers.get z = (m.memory.byteAt (m.index + z.val)).toNat) ∧
      ∀ z, x < z → registers.get z = m.v z := by
  have hread := m.memory.readBlock_of_covers (a := m.index) (n := x.val + 1)
    (covers_of_fits (by omega))
  refine ⟨m.registers.setFirst ((List.range (x.val + 1)).map fun (i : Nat) =>
    m.memory.byteAt (m.index + i)), ?_, m.registers.index_setFirst _, ?_, ?_⟩
  · rw [execute, hread]
    rfl
  · intro z hz
    have hz : z.val < x.val + 1 := Nat.lt_succ_of_le hz
    rw [Registers.get_setFirst, List.getElem?_map, List.getElem?_range hz]
    rfl
  · intro z hz
    have hz : x.val < z.val := hz
    refine Registers.get_setFirst_of_le _ ?_
    rw [List.length_map, List.length_range]
    omega

theorem decimalDigits_byte {value : Int} (h : 0 ≤ value ∧ value ≤ 255) :
    ∃ d₀ d₁ d₂ : Nat, d₀ ≤ 9 ∧ d₁ ≤ 9 ∧ d₂ ≤ 9 ∧ (100 * d₀ + 10 * d₁ + d₂ : Int) = value ∧
      decimalDigits value = [(d₀ : Int), (d₁ : Int), (d₂ : Int)] := by
  obtain ⟨n, rfl⟩ := Int.eq_ofNat_of_zero_le h.1
  exact ⟨n / 100, n / 10 % 10, n % 10, by omega, by omega, by omega, by omega, rfl⟩

/-- **Writing the decimal digits** of a byte where they fit at the index register. -/
theorem execute_decimal (x : Register) (hfits : 0 ≤ m.index ∧ m.index + 2 ≤ 0xFFF)
    (hbyte : 0 ≤ m.v x ∧ m.v x ≤ 255) :
    ∃ memory, m.execute (.decimal x) = .completed { m with memory } ∧
      (∃ d₀ d₁ d₂ : Nat, d₀ ≤ 9 ∧ d₁ ≤ 9 ∧ d₂ ≤ 9 ∧ (100 * d₀ + 10 * d₁ + d₂ : Int) = m.v x ∧
        (memory.byteAt m.index).toNat = d₀ ∧ (memory.byteAt (m.index + 1)).toNat = d₁ ∧
        (memory.byteAt (m.index + 2)).toNat = d₂) ∧
      ∀ a, a < m.index ∨ m.index + 2 < a → memory.byteAt a = m.memory.byteAt a := by
  obtain ⟨d₀, d₁, d₂, h₀, h₁, h₂, hvalue, hdigits⟩ := decimalDigits_byte hbyte
  have hthree : 0 ≤ m.index ∧ m.index + (3 : Nat) ≤ 0x1000 := by omega
  obtain ⟨memory, hwrite⟩ :
      ∃ memory, m.memory.writeBlock m.index (decimalDigits (m.v x)) = (memory, .ok ()) :=
    m.memory.writeBlock_of_covers (covers_of_fits hthree)
  have hbyteAt (i d : Nat) (hd : d ≤ 9) (hi : (decimalDigits (m.v x))[i]? = some (d : Int)) :
      (memory.byteAt (m.index + i)).toNat = d := by
    rw [Memory.byteAt_add_of_writeBlock hwrite hi]
    have hvalue := Memory.toNat_ofInt (v := d) (by omega)
    omega
  refine ⟨memory, ?_, ?_, ?_⟩
  · rw [execute]
    exact writeAtIndex_of_ok hwrite _
  · refine ⟨d₀, d₁, d₂, h₀, h₁, h₂, hvalue, ?_, ?_, ?_⟩
    · have hfirst := hbyteAt 0 d₀ h₀ (by rw [hdigits]; rfl)
      rwa [Int.natCast_zero, Int.add_zero] at hfirst
    · exact hbyteAt 1 d₁ h₁ (by rw [hdigits]; rfl)
    · exact hbyteAt 2 d₂ h₂ (by rw [hdigits]; rfl)
  · intro a ha
    apply Classical.byContradiction
    intro hne
    obtain ⟨hfirst, hlast⟩ := Memory.within_of_byteAt_ne hwrite hne
    have hlast : a < m.index + 3 := hlast
    omega

end Machine

end Chip8
