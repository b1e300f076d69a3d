import Chip8.Memory.Layout

/-!
# Refused writes

A byte, a word, a block or the sprites of the digits are written to addresses
that follow one another.  The call is refused when one of them lies outside the
memory.  A block looks at its two ends before it writes; a word is written byte
by byte, so the high byte may be there when the low one is refused.

* `refused_write_keeps`: a refused call leaves every byte as it was, unless it
  is a word that begins at the last address.
* `refused_word_overwrites`: such a word is refused and changes a byte.
-/

namespace Chip8

namespace Memory

variable {start size : Nat} {m m' : Memory start size} {a v : Int} {o : OutOfRange}

/-! ### Bytes and blocks -/

theorem store8_eq_error (h : m.store8 a v = (m', .error o)) :
    m' = m ∧ ¬Covers start size a ∧ o = ⟨a⟩ := by
  by_cases hc : Covers start size a
  · rw [store8, dif_pos hc] at h
    cases h
  · rw [store8_of_not_covers v hc] at h
    cases h
    exact ⟨rfl, hc, rfl⟩

theorem store8_of_covers (v : Int) (h : Covers start size a) :
    ∃ m', m.store8 a v = (m', .ok ()) :=
  ⟨_, by rw [store8, dif_pos h]⟩

theorem covers_of_store8 (h : m.store8 a v = (m', .ok ())) : Covers start size a := by
  by_cases hc : Covers start size a
  · exact hc
  · rw [store8_of_not_covers v hc] at h
    cases h

theorem obstacle_spec {n : Nat} {bad : Int} (h : m.obstacle a n = some bad) :
    (∃ i : Nat, i < n ∧ bad = a + i) ∧ ¬Covers start size bad := by
  have hfirst : m.firstAddress = start := rfl
  have hlast : m.lastAddress = start + size - 1 := rfl
  rw [obstacle] at h
  split at h
  · cases h
  · split at h
    · cases h
      exact ⟨⟨0, by omega, by omega⟩, by omega⟩
    · split at h
      · cases h
        exact ⟨⟨n - 1, by omega, by omega⟩, by omega⟩
      · cases h

theorem covers_of_obstacle_eq_none {n i : Nat} (h : m.obstacle a n = none) (hi : i < n) :
    Covers start size (a + i) := by
  have hfirst : m.firstAddress = start := rfl
  have hlast : m.lastAddress = start + size - 1 := rfl
  rw [obstacle] at h
  split at h
  · omega
  · split at h
    · cases h
    · split at h
      · cases h
      · omega

theorem writeBlock_eq_error {values : List Int} (h : m.writeBlock a values = (m', .error o)) :
    m' = m ∧ (∃ i : Nat, i < values.length ∧ o.address = a + i) ∧
      ¬Covers start size o.address := by
  rw [writeBlock] at h
  split at h
  · next bad hbad =>
    cases h
    exact ⟨rfl, obstacle_spec hbad⟩
  · cases h

theorem covers_of_writeBlock {values : List Int} {i : Nat}
    (h : m.writeBlock a values = (m', .ok ())) (hi : i < values.length) :
    Covers start size (a + i) := by
  rw [writeBlock] at h
  split at h
  · cases h
  · next hnone => exact covers_of_obstacle_eq_none hnone hi

/-! ### Words -/

theorem byteAt_zero : (zero start size).byteAt a = 0 := by
  rw [byteAt]
  split
  · exact Vector.getElem_replicate _
  · rfl

/-- A word whose second address lies outside is refused after its high byte has been written. -/
theorem store16_of_not_covers_succ (v : Int) (hhigh : m.store8 a (v / 256) = (m', .ok ()))
    (hout : ¬Covers start size (a + 1)) : m.store16 a v = (m', .error ⟨a + 1⟩) := by
  simp only [store16, hhigh, store8_of_not_covers v hout]

/-- A refused word has written nothing, or its high byte at the last address. -/
theorem store16_eq_error (h : m.store16 a v = (m', .error o)) :
    (m' = m ∧ ¬Covers start size a ∧ o = ⟨a⟩) ∨
      (m.store8 a (v / 256) = (m', .ok ()) ∧ a = m.lastAddress ∧ o = ⟨a + 1⟩) := by
  have hlast : m.lastAddress = start + size - 1 := rfl
  rcases hhigh : m.store8 a (v / 256) with ⟨m₁, bad | ⟨⟩⟩
  · rw [store16, hhigh] at h
    cases h
    exact .inl (store8_eq_error hhigh)
  · have hin := covers_of_store8 hhigh
    rw [store16, hhigh] at h
    obtain ⟨rfl, hout, rfl⟩ := store8_eq_error h
    exact .inr ⟨rfl, by omega, rfl⟩

theorem store16_eq_ok (h : m.store16 a v = (m', .ok ())) :
    ∃ m₁, m.store8 a (v / 256) = (m₁, .ok ()) ∧ m₁.store8 (a + 1) v = (m', .ok ()) := by
  rcases hhigh : m.store8 a (v / 256) with ⟨m₁, bad | ⟨⟩⟩ <;> rw [store16, hhigh] at h
  · cases h
  · exact ⟨m₁, rfl, h⟩

end Memory

open Memory

/-! ### Calls -/

inductive MemoryWrite
  | byte (a v : Int)
  | word (a v : Int)
  | block (a : Int) (values : List Int)
  | sprites (a : Int)

namespace MemoryWrite

variable {start size : Nat}

def run (m : Memory start size) : MemoryWrite → Memory start size × Except OutOfRange Unit
  | byte a v => m.store8 a v
  | word a v => m.store16 a v
  | block a values => m.writeBlock a values
  | sprites a => m.installFont a

end MemoryWrite

/-! ### What a refused call leaves -/

variable {start size : Nat} {m m' : Memory start size} {w : MemoryWrite} {o : OutOfRange}

/-- **A refused call writes nothing, but for a word at the last address.**  In a memory of some
bytes, a call that is refused leaves every byte as it was, unless it is a word that begins at the
last address: such a word is refused for the address behind the memory, with its high byte
written and all other bytes as they were. -/
theorem refused_write_keeps (hrange : isValidRange start size = true)
    (h : w.run m = (m', .error o)) :
    ((∀ v, w ≠ .word m.lastAddress v) → m' = m) ∧
      ∀ v, w = .word m.lastAddress v →
        o.address = m.lastAddress + 1 ∧
        m'.load8 m.lastAddress = .ok (UInt8.ofInt (v / 256)) ∧
        ∀ b, b ≠ m.lastAddress → m'.load8 b = m.load8 b := by
  have hlast : m.lastAddress = start + size - 1 := rfl
  have hsize : 0 < size := by
    simp only [isValidRange, Bool.and_eq_true, decide_eq_true_eq] at hrange
    omega
  constructor
  · intro hword
    cases w with
    | byte a v => exact (store8_eq_error h).1
    | word a v =>
      rcases store16_eq_error h with ⟨hsame, -⟩ | ⟨-, rfl, -⟩
      · exact hsame
      · exact absurd rfl (hword v)
    | block a values => exact (writeBlock_eq_error h).1
    | sprites a => exact (writeBlock_eq_error h).1
  · rintro v rfl
    rcases store16_eq_error h with ⟨-, hout, -⟩ | ⟨hhigh, -, rfl⟩
    · omega
    · exact ⟨rfl, load8_store8_self hhigh, fun b hb => load8_store8_of_ne hhigh hb⟩

/-- A block of four bytes is asked for a word at its last address. -/
theorem refused_write_keeps_of_word :
    isValidRange 0x10 4 = true ∧
      (MemoryWrite.word 0x13 0x12AB).run (⟨#v[1, 2, 3, 4]⟩ : Memory 0x10 4) =
        (⟨#v[1, 2, 3, 0x12]⟩, .error ⟨0x14⟩) ∧
      ∀ b, b ≠ 0x13 → (⟨#v[1, 2, 3, 0x12]⟩ : Memory 0x10 4).load8 b =
        (⟨#v[1, 2, 3, 4]⟩ : Memory 0x10 4).load8 b := by
  have hrange : isValidRange ((0x10 : Nat) : Int) ((4 : Nat) : Int) = true := by decide
  have hrun : (MemoryWrite.word 0x13 0x12AB).run (⟨#v[1, 2, 3, 4]⟩ : Memory 0x10 4) =
      (⟨#v[1, 2, 3, 0x12]⟩, .error ⟨0x14⟩) := rfl
  exact ⟨hrange, hrun, ((refused_write_keeps hrange hrun).2 0x12AB rfl).2.2⟩

/-- **A refused word may change a byte.**  A word at the last address of the address space is
refused, and its high byte has been written. -/
theorem refused_word_overwrites :
    ∃ m' : Ram, (MemoryWrite.word 0xFFF 0x12AB).run (zero 0 addressSpace) =
        (m', .error ⟨0x1000⟩) ∧
      (zero 0 addressSpace).load8 0xFFF = .ok 0 ∧ m'.load8 0xFFF = .ok 0x12 := by
  have hcovers : Covers 0 addressSpace 0xFFF := by decide
  obtain ⟨m', hhigh⟩ := store8_of_covers (m := zero 0 addressSpace) (0x12AB / 256) hcovers
  refine ⟨m', store16_of_not_covers_succ 0x12AB hhigh (by decide), ?_, load8_store8_self hhigh⟩
  rw [load8_of_covers hcovers, byteAt_zero]

end Chip8
