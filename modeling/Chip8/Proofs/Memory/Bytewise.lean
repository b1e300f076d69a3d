import Chip8.Memory.Bus
import Chip8.Proofs.Memory.Transfers

/-!
# Blocks byte by byte

A block is read and written in one piece, after a look at its two ends.  It comes to
the same as its bytes read and written one by one: it is refused if one of them is, and
if not, it reads the same bytes and leaves the same memory.  A word is its two bytes,
the high one first.

* `readBlock_eq_slice`, `bytes_of_writeBlock`: a block is a slice of the bytes, and one
  that is written takes the place of a slice with as many bytes.
* `writeBlock_cons_eq_ok`: a block is its first byte and a shorter block, and
  `after_stores`: so it is a row of single bytes.
* `blocks_are_bytewise`: blocks and words agree with their bytes.
-/

namespace Chip8

namespace Memory

section

variable {start size n : Nat} {m m' : Memory start size} {a v : Int} {values : List Int}

theorem obstacle_eq_none_iff :
    m.obstacle a n = none ↔ ∀ i : Nat, i < n → Covers start size (a + i) := by
  constructor
  · intro h i hi
    exact covers_of_obstacle_eq_none h hi
  · intro h
    exact obstacle_of_covers h

theorem writeBlock_cons_eq_ok (h : m.writeBlock a (v :: values) = (m', .ok ())) :
    ∃ m₁, m.store8 a v = (m₁, .ok ()) ∧ m₁.writeBlock (a + 1) values = (m', .ok ()) := by
  have hfits : ∀ i : Nat, i < (v :: values).length → Covers start size (a + i) := by
    intro i hi
    exact covers_of_writeBlock h hi
  have hfirst : Covers start size a := by simpa using hfits 0 (by simp)
  have hrest : ∀ i : Nat, i < values.length → Covers start size (a + 1 + i) := by
    intro i hi
    have hcovers := hfits (i + 1) (by simpa using hi)
    omega
  obtain ⟨m₁, hstore⟩ := store8_of_covers (m := m) v hfirst
  refine ⟨m₁, hstore, ?_⟩
  rw [store8, dif_pos hfirst] at hstore
  rw [writeBlock, obstacle_of_covers hfits] at h
  rw [writeBlock, obstacle_of_covers hrest]
  cases hstore
  have hnext : (a + 1 - start).toNat = (a - start).toNat + 1 := by omega
  have hset : m.cells.set (place hfirst) (UInt8.ofInt v) (place hfirst).isLt =
      m.cells.setIfInBounds (a - start).toNat (UInt8.ofInt v) := by
    apply Vector.ext
    intro i hi
    rw [Vector.getElem_set, Vector.getElem_setIfInBounds hi]
    rfl
  rw [hnext, hset]
  exact h

end

/-! ### Slices -/

/-- The place in a list of `n` elements at which a slice begins or ends: a number below zero
counts from the end of the list, and no place lies outside it. -/
def cutAt (n : Nat) (i : Int) : Nat :=
  if i < 0 then (i + n).toNat else min i.toNat n

/-- The elements of a list from one place up to another. -/
def slice {α : Type} (xs : List α) (i j : Int) : List α :=
  (xs.take (cutAt xs.length j)).drop (cutAt xs.length i)

/-- A list with other elements, as many as there may be, in place of a slice. -/
def replaceSlice {α : Type} (xs : List α) (i j : Int) (ys : List α) : List α :=
  xs.take (cutAt xs.length i) ++ ys ++ xs.drop (max (cutAt xs.length i) (cutAt xs.length j))

theorem cutAt_of_le {n : Nat} {i : Int} (hlow : 0 ≤ i) (hhigh : i ≤ n) : cutAt n i = i.toNat := by
  rw [cutAt, if_neg (by omega), Nat.min_eq_left (by omega)]

theorem slice_self {α : Type} (xs : List α) (i : Int) : slice xs i i = [] := by
  rw [slice]
  apply List.drop_eq_nil_of_le
  rw [List.length_take]
  exact Nat.min_le_left _ _

theorem replaceSlice_self {α : Type} (xs : List α) (i : Int) : replaceSlice xs i i [] = xs := by
  rw [replaceSlice, Nat.max_self, List.append_nil, List.take_append_drop]

variable {m m' : Ram} {a : Int} {n : Nat}

theorem length_bytes (m : Ram) : m.bytes.length = addressSpace := by
  simp [bytes]

theorem getElem_bytes (m : Ram) {i : Nat} (hi : i < m.bytes.length) : m.bytes[i] = m.byteAt i := by
  rw [length_bytes] at hi
  rw [byteAt_eq_getElem m hi]
  simp [bytes]

/-- **A block that is read is a slice of the bytes**, also one of no bytes at an address that
lies outside the memory. -/
theorem readBlock_eq_slice {data : List UInt8} (h : m.readBlock a n = .ok data) :
    data = slice m.bytes a (a + n) := by
  rw [readBlock] at h
  split at h
  · cases h
  · next hnone =>
    have hcovers := obstacle_eq_none_iff.mp hnone
    cases h
    cases n with
    | zero => simp [slice_self]
    | succ n =>
      have hfirst := hcovers 0 (by omega)
      have hlast := hcovers n (by omega)
      have hlength := length_bytes m
      rw [slice, hlength, cutAt_of_le (by omega) (by omega), cutAt_of_le (by omega) (by omega)]
      apply List.ext_getElem
      · simp only [List.length_map, List.length_range, List.length_drop, List.length_take, hlength]
        omega
      · intro i hi _
        simp only [List.getElem_map, List.getElem_range, List.getElem_drop, List.getElem_take,
          getElem_bytes]
        congr 1
        omega

theorem toList_putCells {size : Nat} (cells : Vector UInt8 size) {i : Nat} {bytes : List UInt8}
    (h : i + bytes.length ≤ size) : (putCells cells i bytes).toList =
      cells.toList.take i ++ bytes ++ cells.toList.drop (i + bytes.length) := by
  induction bytes generalizing cells i with
  | nil => simp [putCells]
  | cons b rest ih =>
    rw [List.length_cons] at h
    have hlength : cells.toList.length = size := Vector.length_toList
    have htake : (cells.toList.set i b).take (i + 1) = cells.toList.take i ++ [b] := by
      rw [List.take_succ_eq_append_getElem (by rw [List.length_set]; omega),
        List.getElem_set_self, List.take_set_of_le (Nat.le_refl i)]
    have hdrop : (cells.toList.set i b).drop (i + 1 + rest.length) =
        cells.toList.drop (i + (rest.length + 1)) := by
      rw [List.drop_set_of_lt (by omega), Nat.add_assoc, Nat.add_comm 1]
    rw [putCells, ih _ (by omega), Vector.toList_setIfInBounds, htake, hdrop, List.length_cons]
    simp

/-- **A block that is written takes the place of a slice with as many bytes.** -/
theorem bytes_of_writeBlock {values : List Int} (h : m.writeBlock a values = (m', .ok ())) :
    m'.bytes = replaceSlice m.bytes a (a + values.length) (values.map UInt8.ofInt) := by
  rw [writeBlock] at h
  split at h
  · cases h
  · next hnone =>
    have hcovers := obstacle_eq_none_iff.mp hnone
    cases h
    cases values with
    | nil =>
      rw [List.map_nil, List.length_nil, Int.natCast_zero, Int.add_zero, replaceSlice_self]
      rfl
    | cons v values =>
      rw [List.length_cons] at hcovers
      have hfirst := hcovers 0 (by omega)
      have hlast := hcovers values.length (by omega)
      have hplace : (a - (0 : Nat)).toNat = a.toNat := by omega
      have hend : (a + (values.length + 1 : Nat)).toNat = a.toNat + (values.length + 1) := by
        omega
      have hfits : a.toNat + ((v :: values).map UInt8.ofInt).length ≤ addressSpace := by
        rw [List.length_map, List.length_cons]
        omega
      rw [replaceSlice, length_bytes, List.length_cons, cutAt_of_le (by omega) (by omega),
        cutAt_of_le (by omega) (by omega), hend, Nat.max_eq_right (by omega), bytes, hplace,
        toList_putCells _ hfits, List.length_map, List.length_cons]
      rfl

end Memory

/-! ### Calls -/

namespace Bus

open Memory

variable {start size : Nat} {b : Bus start size} {a v : Int}

/-- A call is refused for an address outside the memory. -/
def Refuses (b : Bus start size) (c : BusCall) : Prop :=
  ∃ o : OutOfRange, (b.respond c).answer = .error (.ofOutOfRange o)

def after (b : Bus start size) : List BusCall → Bus start size
  | [] => b
  | c :: rest => (b.respond c).bus.after rest

/-- The calls that write values one by one to the addresses from `a` on. -/
def stores (a : Int) (values : List Int) : List BusCall :=
  values.mapIdx fun i v => .store8 (a + i) v

theorem stores_cons (values : List Int) :
    stores a (v :: values) = .store8 a v :: stores (a + 1) values := by
  have hnext : ∀ i : Nat, a + (i + 1 : Nat) = a + 1 + i := by
    intro i
    omega
  simp only [stores, List.mapIdx_cons, Int.natCast_zero, Int.add_zero, hnext]

/-! ### Which calls are refused -/

theorem refuses_of_read {α : Type} {c : BusCall} {x : Except OutOfRange α} {f : α → BusAnswer}
    {accesses : List MemoryAccess} (hc : b.respond c = b.read x f accesses) :
    b.Refuses c ↔ ∃ o, x = .error o := by
  rw [Refuses, hc]
  cases x with
  | ok value =>
    constructor
    · rintro ⟨r, hr⟩
      cases hr
    · rintro ⟨o, ho⟩
      cases ho
  | error o => exact ⟨fun _ => ⟨o, rfl⟩, fun _ => ⟨o, rfl⟩⟩

theorem refuses_of_write {c : BusCall} {x : Memory start size × Except OutOfRange Unit}
    {answer : BusAnswer} {accesses : List MemoryAccess}
    (hc : b.respond c = b.write x answer accesses) : b.Refuses c ↔ ∃ o, x.2 = .error o := by
  obtain ⟨m', o | ⟨⟩⟩ := x
  · rw [Refuses, hc]
    exact ⟨fun _ => ⟨o, rfl⟩, fun _ => ⟨o, rfl⟩⟩
  · rw [Refuses, hc]
    exact ⟨by rintro ⟨_, ⟨⟩⟩, by rintro ⟨_, ⟨⟩⟩⟩

theorem refuses_load8_iff : b.Refuses (.load8 a) ↔ ¬Covers start size a := by
  rw [refuses_of_read rfl]
  by_cases h : Covers start size a
  · simp [load8_of_covers h, h]
  · simp [load8_of_not_covers h, h]

theorem refuses_store8_iff : b.Refuses (.store8 a v) ↔ ¬Covers start size a := by
  rw [refuses_of_write rfl]
  by_cases h : Covers start size a
  · obtain ⟨m', hstore⟩ := store8_of_covers (m := b.memory) v h
    simp [hstore, h]
  · simp [store8_of_not_covers v h, h]

theorem respond_readBlock (n : Nat) :
    b.respond (.readBlock a n) = b.read (b.memory.readBlock a n) .bytes [] := by
  rw [respond, if_neg (by omega), Int.toNat_natCast]

theorem refuses_readBlock_iff {n : Nat} :
    b.Refuses (.readBlock a n) ↔ ∃ i : Nat, i < n ∧ ¬Covers start size (a + i) := by
  rw [refuses_of_read (respond_readBlock n)]
  constructor
  · rintro ⟨o, h⟩
    rw [readBlock] at h
    split at h
    · next bad hbad =>
      obtain ⟨⟨i, hi, rfl⟩, hout⟩ := obstacle_spec hbad
      exact ⟨i, hi, hout⟩
    · cases h
  · rintro ⟨i, hi, hout⟩
    cases h : b.memory.readBlock a n with
    | ok data =>
      rw [readBlock] at h
      split at h
      · cases h
      · next hnone => exact absurd (obstacle_eq_none_iff.mp hnone i hi) hout
    | error o => exact ⟨o, rfl⟩

theorem refuses_writeBlock_iff {values : List Int} :
    b.Refuses (.writeBlock a values) ↔
      ∃ i : Nat, i < values.length ∧ ¬Covers start size (a + i) := by
  rw [refuses_of_write rfl]
  constructor
  · rintro ⟨o, h⟩
    obtain ⟨-, ⟨i, hi, haddress⟩, hout⟩ := writeBlock_eq_error (Prod.ext rfl h)
    exact ⟨i, hi, haddress ▸ hout⟩
  · rintro ⟨i, hi, hout⟩
    rcases h : b.memory.writeBlock a values with ⟨m', o | ⟨⟩⟩
    · exact ⟨o, rfl⟩
    · exact absurd (covers_of_writeBlock h hi) hout

/-! ### What the others answer -/

theorem answer_load8 (h : Covers start size a) :
    (b.respond (.load8 a)).answer = .ok (.number (b.memory.byteAt a).toNat) := by
  rw [respond, load8_of_covers h]
  rfl

theorem respond_readBlock_of_not_refuses {n : Nat} (h : ¬b.Refuses (.readBlock a n)) :
    ∃ data : List UInt8, b.memory.readBlock a n = .ok data ∧
      (b.respond (.readBlock a n)).answer = .ok (.bytes data) ∧
      data.length = n ∧ ∀ (i : Nat) (hi : i < data.length),
        (b.respond (.load8 (a + i))).answer = .ok (.number data[i].toNat) := by
  have hcovers : ∀ i : Nat, i < n → Covers start size (a + i) := by
    intro i hi
    apply Decidable.byContradiction
    intro hout
    exact h (refuses_readBlock_iff.mpr ⟨i, hi, hout⟩)
  have hread := readBlock_of_covers b.memory hcovers
  refine ⟨(List.range n).map fun (i : Nat) => b.memory.byteAt (a + i), hread, ?_, ?_, ?_⟩
  · rw [respond_readBlock, hread]
    rfl
  · rw [List.length_map, List.length_range]
  · intro i hi
    rw [List.length_map, List.length_range] at hi
    rw [answer_load8 (hcovers i hi), List.getElem_map, List.getElem_range]

theorem after_stores {values : List Int} {m' : Memory start size}
    (h : b.memory.writeBlock a values = (m', .ok ())) :
    b.after (stores a values) = { b with memory := m' } := by
  induction values generalizing b a with
  | nil =>
    cases h
    rfl
  | cons v values ih =>
    obtain ⟨m₁, hstore, hrest⟩ := writeBlock_cons_eq_ok h
    have hbus : (b.respond (.store8 a v)).bus = { b with memory := m₁ } := by
      rw [respond, hstore]
      rfl
    rw [stores_cons, after, hbus]
    exact ih hrest

/-- How the answer to a word follows from the answers to its two bytes. -/
inductive WordAnswer :
    Except Refusal BusAnswer → Except Refusal BusAnswer → Except Refusal BusAnswer → Prop
  | ofBytes (high low : Int) :
      WordAnswer (.ok (.number high)) (.ok (.number low)) (.ok (.number (256 * high + low)))
  | noHigh (r : Refusal) (low : Except Refusal BusAnswer) : WordAnswer (.error r) low (.error r)
  | noLow (high : Int) (r : Refusal) : WordAnswer (.ok (.number high)) (.error r) (.error r)

theorem wordAnswer_load16 (b : Bus start size) (a : Int) :
    WordAnswer (b.respond (.load8 a)).answer (b.respond (.load8 (a + 1))).answer
      (b.respond (.load16 a)).answer := by
  simp only [respond, load16]
  cases b.memory.load8 a with
  | error o => exact .noHigh _ _
  | ok high =>
    cases b.memory.load8 (a + 1) with
    | error o => exact .noLow _ _
    | ok low =>
      have hword : ((high.toNat * 256 + low.toNat : Nat) : Int) =
          256 * (high.toNat : Int) + (low.toNat : Int) := by omega
      have hanswer := WordAnswer.ofBytes high.toNat low.toNat
      rw [← hword] at hanswer
      exact hanswer

/-- A word that has been written is read back, and no byte but its two has changed. -/
theorem respond_store16 (h : (b.respond (.store16 a v)).answer = .ok .nothing) :
    ((b.respond (.store16 a v)).bus.respond (.load16 a)).answer = .ok (.number (v % 65536)) ∧
      ∀ c, c ≠ a → c ≠ a + 1 →
        (b.respond (.store16 a v)).bus.memory.load8 c = b.memory.load8 c := by
  rcases hstore : b.memory.store16 a v with ⟨m', o | ⟨⟩⟩
  · rw [respond, hstore] at h
    cases h
  · have hbus : (b.respond (.store16 a v)).bus = { b with memory := m' } := by
      rw [respond, hstore]
      rfl
    obtain ⟨m₁, hhigh, hlow⟩ := store16_eq_ok hstore
    rw [hbus]
    constructor
    · have hload : m'.load16 a =
          .ok ((UInt8.ofInt (v / 256)).toNat * 256 + (UInt8.ofInt v).toNat) := by
        rw [load16, load8_store8_of_ne hlow (by omega), load8_store8_self hhigh,
          load8_store8_self hlow]
        rfl
      have hhighByte := toNat_ofInt_eq_emod (v / 256)
      have hlowByte := toNat_ofInt_eq_emod v
      have hword : ((((UInt8.ofInt (v / 256)).toNat * 256 + (UInt8.ofInt v).toNat : Nat)) : Int) =
          v % 65536 := by omega
      rw [respond, Bus.read, hload]
      exact congrArg (fun n => Except.ok (BusAnswer.number n)) hword
    · intro c hhighNe hlowNe
      rw [load8_store8_of_ne hlow hlowNe, load8_store8_of_ne hhigh hhighNe]

/-- **Blocks and words agree with their bytes.**  For every memory and every address:

* a block is read unless one of its bytes could not be, and then it has these bytes, which are a
  slice of the memory;
* a block is written unless one of its bytes could not be, and then it tells their number, leaves
  the memory that they leave one by one, and takes the place of a slice with as many bytes;
* a word is read as its two bytes, and is refused as they are;
* a word that has been written is read back by its low sixteen bits, and no other byte changes;
* whatever has been called, the memory has 4096 bytes;
* a block of no bytes is never refused and changes nothing. -/
theorem blocks_are_bytewise (b : Bus 0 addressSpace) (a : Int) :
    (∀ n : Nat,
      (b.Refuses (.readBlock a n) ↔ ∃ i : Nat, i < n ∧ b.Refuses (.load8 (a + i))) ∧
      (¬b.Refuses (.readBlock a n) → ∃ data : List UInt8,
        (b.respond (.readBlock a n)).answer = .ok (.bytes data) ∧ data.length = n ∧
        data = slice b.memory.bytes a (a + n) ∧
        ∀ (i : Nat) (hi : i < data.length),
          (b.respond (.load8 (a + i))).answer = .ok (.number data[i].toNat)) ∧
      (b.respond (.readBlock a n)).bus = b) ∧
    (∀ values : List Int,
      (b.Refuses (.writeBlock a values) ↔
        ∃ (i : Nat) (hi : i < values.length), b.Refuses (.store8 (a + i) values[i])) ∧
      (¬b.Refuses (.writeBlock a values) →
        (b.respond (.writeBlock a values)).answer = .ok (.number values.length) ∧
        (b.respond (.writeBlock a values)).bus = b.after (stores a values) ∧
        (b.respond (.writeBlock a values)).bus.memory.bytes =
          replaceSlice b.memory.bytes a (a + values.length) (values.map UInt8.ofInt)) ∧
      (b.Refuses (.writeBlock a values) → (b.respond (.writeBlock a values)).bus = b)) ∧
    WordAnswer (b.respond (.load8 a)).answer (b.respond (.load8 (a + 1))).answer
      (b.respond (.load16 a)).answer ∧
    (∀ v, (b.respond (.store16 a v)).answer = .ok .nothing →
      ((b.respond (.store16 a v)).bus.respond (.load16 a)).answer = .ok (.number (v % 65536)) ∧
      ∀ c, c ≠ a → c ≠ a + 1 →
        (b.respond (.store16 a v)).bus.memory.load8 c = b.memory.load8 c) ∧
    (∀ calls : List BusCall, ∃ data : List UInt8,
      ((b.after calls).respond .bytes).answer = .ok (.bytes data) ∧ data.length = 4096) ∧
    b.respond (.readBlock a 0) = ⟨.ok (.bytes []), b.reported [], b⟩ ∧
    b.respond (.writeBlock a []) = ⟨.ok (.number 0), b.reported [], b⟩ := by
  refine ⟨?reads, ?writes, wordAnswer_load16 b a, fun v => respond_store16, ?bytes, rfl, rfl⟩
  case reads =>
    intro n
    refine ⟨?_, ?_, by rw [respond_readBlock, Bus.read]⟩
    · simp only [refuses_readBlock_iff, refuses_load8_iff]
    · intro h
      obtain ⟨data, hread, hanswer, hlength, hbytes⟩ := respond_readBlock_of_not_refuses h
      exact ⟨data, hanswer, hlength, readBlock_eq_slice hread, hbytes⟩
  case writes =>
    intro values
    refine ⟨?_, ?_, ?_⟩
    · simp only [refuses_writeBlock_iff, refuses_store8_iff, exists_prop]
    · intro h
      rcases hwrite : b.memory.writeBlock a values with ⟨m', o | ⟨⟩⟩
      · exact absurd ((refuses_of_write rfl).mpr ⟨o, congrArg Prod.snd hwrite⟩) h
      · rw [after_stores hwrite, respond, hwrite]
        exact ⟨rfl, rfl, bytes_of_writeBlock hwrite⟩
    · intro h
      obtain ⟨o, hwrite⟩ := (refuses_of_write rfl).mp h
      obtain ⟨hsame, -⟩ := writeBlock_eq_error (Prod.ext rfl hwrite)
      exact congrArg (fun memory => { b with memory }) hsame
  case bytes =>
    intro calls
    exact ⟨_, rfl, length_bytes _⟩

/-- At the end of a memory of zeros, a word of more than sixteen bits is written and a block is
read, and a block that is longer by one byte is refused. -/
theorem blocks_are_bytewise_of_end :
    let b : Bus 0 addressSpace := ⟨zero 0 addressSpace, false⟩
    (b.respond (.store16 0xFFE 0x2ABCD)).answer = .ok .nothing ∧
      ((b.respond (.store16 0xFFE 0x2ABCD)).bus.respond (.load16 0xFFE)).answer =
        .ok (.number 0xABCD) ∧
      (∃ data : List UInt8, (b.respond (.readBlock 0xFFE 2)).answer = .ok (.bytes data) ∧
        data.length = 2) ∧
      b.Refuses (.writeBlock 0xFFE [1, 2, 3]) := by
  intro b
  obtain ⟨hread, hwrite, -, hword, -⟩ := blocks_are_bytewise b 0xFFE
  have hstored : (b.respond (.store16 0xFFE 0x2ABCD)).answer = .ok .nothing := rfl
  have hfits : ¬b.Refuses (.readBlock 0xFFE (2 : Nat)) := by
    rw [refuses_readBlock_iff]
    decide
  have hlast : b.Refuses (.store8 (0xFFE + (2 : Nat)) 3) := refuses_store8_iff.mpr (by decide)
  obtain ⟨data, hanswer, hlength, -⟩ := (hread 2).2.1 hfits
  exact ⟨hstored, (hword 0x2ABCD hstored).1, ⟨data, hanswer, hlength⟩,
    (hwrite [1, 2, 3]).1.mpr ⟨2, by decide, hlast⟩⟩

end Bus

end Chip8
