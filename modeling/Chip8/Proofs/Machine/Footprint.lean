import Chip8.Proofs.Instruction.Patterns
import Chip8.Proofs.Machine.Frame
import Chip8.Proofs.Machine.Transfers

/-!
# What an instruction may change

Each word of a program may change few things in the machine, and which ones can be read
off its digits: this is the footprint of the word.  The counter and the number of the
completed instructions are not part of it.  An instruction that waits for its key has
not written its register yet, so the footprint also depends on whether the step is
completed.

* `WritesRegister`, `WritesIndex`, `WritesByte`: where a word may write.
* `Footprint`: two machines that differ only where a word may write.
* `footprint_execute`: every instruction stays within the footprint of its word.
* `footprint_step`: so does every step that does not halt the program, and it takes a
  random number for one pattern of words only.
-/

namespace Chip8

open PatternDigit (any)

namespace Instruction

/-- The words that write the register of their second digit, and nothing else. -/
def intoFirst : List Pattern :=
  [⟨6, any, any, any⟩, ⟨7, any, any, any⟩, ⟨8, any, any, 0⟩, ⟨0xC, any, any, any⟩, ⟨0xF, any, 0, 7⟩]

/-- The words that write the register of their second digit and the flag register. -/
def intoFirstAndFlag : List Pattern :=
  [⟨8, any, any, 4⟩, ⟨8, any, any, 5⟩, ⟨8, any, any, 6⟩, ⟨8, any, any, 7⟩, ⟨8, any, any, 0xE⟩]

def logical : List Pattern :=
  [⟨8, any, any, 1⟩, ⟨8, any, any, 2⟩, ⟨8, any, any, 3⟩]

/-- A step at the word may write the register, in this dialect.  Whether the step is completed
matters only where it may wait for a key. -/
inductive WritesRegister (w : Nat) (d : Dialect) (completed : Prop) : Register → Prop
  | first {x : Register} {p : Pattern} : p ∈ intoFirst → p.Matches w → XReads w x →
      WritesRegister w d completed x
  | key {x : Register} : Pattern.Matches ⟨0xF, any, 0, 0xA⟩ w → XReads w x → completed →
      WritesRegister w d completed x
  | operand {x : Register} {p : Pattern} : p ∈ intoFirstAndFlag → p.Matches w → XReads w x →
      WritesRegister w d completed x
  | flag {p : Pattern} : p ∈ intoFirstAndFlag → p.Matches w →
      WritesRegister w d completed flagRegister
  | logic {x : Register} {p : Pattern} : p ∈ logical → p.Matches w → XReads w x →
      WritesRegister w d completed x
  | reset {p : Pattern} : p ∈ logical → p.Matches w → d.logicResetsVf = true →
      WritesRegister w d completed flagRegister
  | collision : Pattern.Matches ⟨0xD, any, any, any⟩ w → WritesRegister w d completed flagRegister
  | load {x z : Register} : Pattern.Matches ⟨0xF, any, 6, 5⟩ w → XReads w x → z ≤ x →
      WritesRegister w d completed z

theorem WritesRegister.mono {w : Nat} {d : Dialect} {completed completed' : Prop} {z : Register}
    (h : WritesRegister w d completed z) (hc : completed → completed') :
    WritesRegister w d completed' z := by
  cases h with
  | first hp hw hx => exact .first hp hw hx
  | key hw hx hdone => exact .key hw hx (hc hdone)
  | operand hp hw hx => exact .operand hp hw hx
  | flag hp hw => exact .flag hp hw
  | logic hp hw hx => exact .logic hp hw hx
  | reset hp hw hresets => exact .reset hp hw hresets
  | collision hw => exact .collision hw
  | load hw hx hz => exact .load hw hx hz

/-- The words that write a register. -/
def registerWriters : List Pattern :=
  intoFirst ++ intoFirstAndFlag ++ logical ++
    [⟨0xD, any, any, any⟩, ⟨0xF, any, 0, 0xA⟩, ⟨0xF, any, 6, 5⟩]

theorem WritesRegister.mem_writers {w : Nat} {d : Dialect} {completed : Prop} {z : Register}
    (h : WritesRegister w d completed z) : ∃ p ∈ registerWriters, p.Matches w := by
  simp only [registerWriters, List.mem_append]
  cases h with
  | first hp hw hx => exact ⟨_, .inl (.inl (.inl hp)), hw⟩
  | operand hp hw hx => exact ⟨_, .inl (.inl (.inr hp)), hw⟩
  | flag hp hw => exact ⟨_, .inl (.inl (.inr hp)), hw⟩
  | logic hp hw hx => exact ⟨_, .inl (.inr hp), hw⟩
  | reset hp hw hresets => exact ⟨_, .inl (.inr hp), hw⟩
  | collision hw => exact ⟨_, .inr (by decide), hw⟩
  | key hw hx hdone => exact ⟨_, .inr (by decide), hw⟩
  | load hw hx hz => exact ⟨_, .inr (by decide), hw⟩

/-- A step at the word may write the index register, in this dialect. -/
inductive WritesIndex (w : Nat) (d : Dialect) : Prop
  | set : Pattern.Matches ⟨0xA, any, any, any⟩ w → WritesIndex w d
  | add : Pattern.Matches ⟨0xF, any, 1, 0xE⟩ w → WritesIndex w d
  | glyph : Pattern.Matches ⟨0xF, any, 2, 9⟩ w → WritesIndex w d
  | store : Pattern.Matches ⟨0xF, any, 5, 5⟩ w → d.loadStoreIncrementsIndex = true →
      WritesIndex w d
  | load : Pattern.Matches ⟨0xF, any, 6, 5⟩ w → d.loadStoreIncrementsIndex = true →
      WritesIndex w d

/-- A step at the word may write the byte at the address, where the index register has this
value. -/
inductive WritesByte (w : Nat) (index : Int) : Int → Prop
  | digit {a : Int} : Pattern.Matches ⟨0xF, any, 3, 3⟩ w → index ≤ a → a ≤ index + 2 →
      WritesByte w index a
  | store {a : Int} {x : Register} : Pattern.Matches ⟨0xF, any, 5, 5⟩ w → XReads w x →
      index ≤ a → a ≤ index + x.val → WritesByte w index a

end Instruction

open Instruction (WritesRegister WritesIndex WritesByte)

namespace Machine

/-- The machines differ at most where a step at the word may write, in the counter, and in the
number of completed instructions. -/
structure Footprint (w : Nat) (completed : Prop) (m m' : Machine) : Prop where
  byteAt_eq : ∀ a, ¬WritesByte w m.index a → m'.memory.byteAt a = m.memory.byteAt a
  display_eq : ¬Pattern.Matches ⟨0, 0, 0xE, 0⟩ w → ¬Pattern.Matches ⟨0xD, any, any, any⟩ w →
    m'.display = m.display
  stack_eq : ¬Pattern.Matches ⟨2, any, any, any⟩ w → ¬Pattern.Matches ⟨0, 0, 0xE, 0xE⟩ w →
    m'.stack = m.stack
  delay_eq : ¬Pattern.Matches ⟨0xF, any, 1, 5⟩ w → m'.timers.delay = m.timers.delay
  sound_eq : ¬Pattern.Matches ⟨0xF, any, 1, 8⟩ w → m'.timers.sound = m.timers.sound
  ticks_eq : m'.timers.ticks = m.timers.ticks
  awaiting_eq : ¬Pattern.Matches ⟨0xF, any, 0, 0xA⟩ w → m'.keypad.awaiting = m.keypad.awaiting
  latch_eq : ¬Pattern.Matches ⟨0xF, any, 0, 0xA⟩ w → m'.keypad.latch = m.keypad.latch
  flags_eq : m'.keypad.flags = m.keypad.flags
  held_eq : m'.keypad.held = m.keypad.held
  index_eq : ¬WritesIndex w m.dialect → m'.index = m.index
  v_eq : ∀ z, ¬WritesRegister w m.dialect completed z → m'.v z = m.v z
  dialect_eq : m'.dialect = m.dialect
  halted_eq : m'.halted = m.halted

variable {m m' : Machine} {w : Nat} {completed : Prop} {i : Instruction}

namespace Footprint

theorem refl (w : Nat) (completed : Prop) (m : Machine) : Footprint w completed m m where
  byteAt_eq _ _ := rfl
  display_eq _ _ := rfl
  stack_eq _ _ := rfl
  delay_eq _ := rfl
  sound_eq _ := rfl
  ticks_eq := rfl
  awaiting_eq _ := rfl
  latch_eq _ := rfl
  flags_eq := rfl
  held_eq := rfl
  index_eq _ := rfl
  v_eq _ _ := rfl
  dialect_eq := rfl
  halted_eq := rfl

theorem of_passed (h : Footprint w completed m.passed m') : Footprint w completed m m' :=
  { h with }

theorem setCounter (h : Footprint w completed m m') (address : Int) :
    Footprint w completed m (m'.setCounter address) :=
  { h with }

theorem count (h : Footprint w completed m m') : Footprint w completed m m'.count :=
  { h with }

/-- What may be written by a step that is not completed may be written. -/
theorem mono {completed' : Prop} (h : Footprint w completed m m') (hc : completed → completed') :
    Footprint w completed' m m' :=
  { h with v_eq := fun z hno => h.v_eq z fun hw => hno (hw.mono hc) }

theorem skipIf (m : Machine) (condition : Bool) : Footprint w completed m (m.skipIf condition) := by
  rw [Machine.skipIf]
  split
  · exact (refl w completed m).setCounter _
  · exact refl w completed m

theorem setIndex (h : Footprint w completed m m') (hw : WritesIndex w m.dialect) (address : Int) :
    Footprint w completed m (m'.setIndex address) :=
  { h with index_eq := fun hno => absurd hw hno }

theorem passIndex (h : Footprint w completed m m')
    (hw : m.dialect.loadStoreIncrementsIndex = true → WritesIndex w m.dialect) (count : Nat) :
    Footprint w completed m (m'.passIndex count) := by
  rw [Machine.passIndex]
  split
  · next hquirk =>
    rw [h.dialect_eq] at hquirk
    exact h.setIndex (hw hquirk) _
  · exact h

theorem setV (h : Footprint w completed m m') {x : Register}
    (hw : WritesRegister w m.dialect completed x) (value : Int) :
    Footprint w completed m (m'.setV x value) := by
  refine { h with v_eq := ?_ }
  intro z hno
  have hne : x ≠ z := by
    rintro rfl
    exact hno hw
  exact (v_setV m' x z value).trans ((if_neg hne).trans (h.v_eq z hno))

theorem setWithFlag (h : Footprint w completed m m') {x : Register}
    (hw : WritesRegister w m.dialect completed x)
    (hflag : WritesRegister w m.dialect completed flagRegister) (value : Int) (flag : Bool) :
    Footprint w completed m (m'.setWithFlag x value flag) :=
  (h.setV hw value).setV hflag (if flag then 1 else 0)

theorem writeBlock {memory : Ram} {values : List Int}
    (hwrite : m.memory.writeBlock m.index values = (memory, .ok ()))
    (hw : ∀ a, m.index ≤ a → a < m.index + values.length → WritesByte w m.index a) :
    Footprint w completed m { m with memory } := by
  refine { refl w completed m with byteAt_eq := ?_ }
  intro a hno
  apply Classical.byContradiction
  intro hne
  obtain ⟨hfirst, hlast⟩ := Memory.within_of_byteAt_ne hwrite hne
  exact hno (hw a hfirst hlast)

theorem setFirst {values : List UInt8}
    (hw : ∀ z : Register, z.val < values.length → WritesRegister w m.dialect completed z) :
    Footprint w completed m { m with registers := m.registers.setFirst values } := by
  refine { refl w completed m with
    index_eq := fun _ => m.registers.index_setFirst values
    v_eq := ?_ }
  intro z hno
  have hlength : values.length ≤ z.val := by
    apply Nat.le_of_not_lt
    intro hlt
    exact hno (hw z hlt)
  exact Registers.get_setFirst_of_le m.registers hlength

end Footprint

/-- **Every instruction stays within the footprint of its word**, one case for each. -/
theorem footprint_execute (hi : i.Reads w) (hx : m.execute i = .completed m') :
    Footprint w True m m' := by
  have hrefl := Footprint.refl w True m
  cases i with
  | stop | random x mask => cases hx
  | clear =>
    cases hx
    exact { hrefl with display_eq := fun hclear _ => absurd hi hclear }
  | ret =>
    rw [execute] at hx
    split at hx <;> cases hx
    refine Footprint.setCounter ?_ _
    exact { hrefl with stack_eq := fun _ hret => absurd hi hret }
  | jump a =>
    cases hx
    exact hrefl.setCounter _
  | call a =>
    rw [execute] at hx
    split at hx <;> cases hx
    refine Footprint.setCounter ?_ _
    exact { hrefl with stack_eq := fun hcall _ => absurd hi.1 hcall }
  | skipEqualByte x n | skipUnequalByte x n | skipEqual x y | skipUnequal x y | skipPressed x
  | skipReleased x =>
    cases hx
    exact Footprint.skipIf m _
  | setByte x n | addByte x n | copy x y =>
    cases hx
    exact hrefl.setV (.first (by decide) hi.1 hi.2.1) _
  | readDelay x =>
    cases hx
    exact hrefl.setV (.first (by decide) hi.1 hi.2) _
  | logic op x y =>
    have hop : ⟨8, any, any, Instruction.logicDigit op⟩ ∈ Instruction.logical := by
      cases op <;> decide
    have hfirst := hrefl.setV (.logic hop hi.1 hi.2.1) (combine op (m.v x) (m.v y))
    cases hx
    split
    · next hreset => exact hfirst.setV (.reset hop hi.1 hreset) 0
    · exact hfirst
  | add x y | subtract x y | subtractFrom x y | shiftRight x y | shiftLeft x y =>
    cases hx
    exact hrefl.setWithFlag (.operand (by decide) hi.1 hi.2.1) (.flag (by decide) hi.1) _ _
  | setIndex a =>
    cases hx
    exact hrefl.setIndex (.set hi.1) _
  | jumpOffset x a =>
    cases hx
    exact hrefl.setCounter _
  | draw x y n =>
    simp only [execute, onMemory] at hx
    split at hx <;> cases hx
    have hflag (flag : Bool) := hrefl.setV (.collision hi.1) (if flag then 1 else 0)
    exact { hrefl with
      display_eq := fun _ hdraw => absurd hi.1 hdraw
      v_eq := (hflag _).v_eq }
  | awaitKey x =>
    rw [execute] at hx
    split at hx
    · split at hx
      · cases hx
      · next keypad key hconsume =>
        cases hx
        have hflags := m.keypad.flags_consume
        have hheld := m.keypad.held_consume
        rw [hconsume] at hflags hheld
        refine Footprint.setV ?_ (.key hi.1 hi.2 trivial) _
        exact { hrefl with
          awaiting_eq := fun hkey => absurd hi.1 hkey
          latch_eq := fun hkey => absurd hi.1 hkey
          flags_eq := hflags
          held_eq := hheld }
    · cases hx
  | setDelay x =>
    rw [execute] at hx
    split at hx <;> cases hx
    exact { hrefl with delay_eq := fun hdelay => absurd hi.1 hdelay }
  | setSound x =>
    rw [execute] at hx
    split at hx <;> cases hx
    exact { hrefl with sound_eq := fun hsound => absurd hi.1 hsound }
  | addIndex x =>
    cases hx
    exact hrefl.setIndex (.add hi.1) _
  | glyph x =>
    cases hx
    exact hrefl.setIndex (.glyph hi.1) _
  | decimal x =>
    rw [execute] at hx
    rcases writeAtIndex_cases m _ _ with ⟨r, hr⟩ | ⟨memory, hwrite, hr⟩ <;> rw [hr] at hx <;>
      cases hx
    refine Footprint.writeBlock hwrite ?_
    intro a hfirst hlast
    have hlast : a < m.index + 3 := hlast
    exact .digit hi.1 hfirst (by omega)
  | store x =>
    rw [execute] at hx
    rcases writeAtIndex_cases m _ _ with ⟨r, hr⟩ | ⟨memory, hwrite, hr⟩ <;> rw [hr] at hx <;>
      cases hx
    refine Footprint.passIndex ?_ (fun hquirk => .store hi.1 hquirk) _
    refine Footprint.writeBlock hwrite ?_
    intro a hfirst hlast
    rw [length_first] at hlast
    exact .store hi.1 hi.2 hfirst (by omega)
  | load x =>
    simp only [execute, onMemory] at hx
    split at hx
    · next values hread =>
      cases hx
      refine Footprint.passIndex ?_ (fun hquirk => .load hi.1 hquirk) _
      refine Footprint.setFirst ?_
      intro z hz
      rw [Memory.length_of_readBlock hread] at hz
      exact .load hi.1 hi.2 (Fin.le_def.mpr (by omega))
    · cases hx

/-! ### Whole steps -/

theorem exists_drawing {m : Machine} (hc : m.OnProgram)
    (hw : Pattern.Matches ⟨0xC, any, any, any⟩ m.word) :
    ∃ m' x mask, m.advance = .drawing m' x mask := by
  have hreads : (Instruction.random (⟨m.word⟩ : Word).x (m.word % 0x100)).Reads m.word :=
    ⟨hw, Word.val_x m.word, rfl⟩
  have hadvance := advance_of_decode hc (Instruction.decode_of_reads m.word_lt hreads)
  exact ⟨_, _, _, hadvance⟩

theorem reads_of_drawing {x : Register} {mask : Nat} (h : m.advance = .drawing m' x mask) :
    (Instruction.random x mask).Reads m.word := by
  rcases m.advance_cases with ⟨m₁, r, hr⟩ | ⟨-, i, hdecode, hi⟩
  · rw [hr] at h
    cases h
  · rw [hi] at h
    rw [← eq_random_of_execute h]
    exact Instruction.reads_of_decode m.word_lt hdecode

theorem Footprint.supply (h : Footprint w completed m m') {x : Register} {mask : Nat}
    (hreads : (Instruction.random x mask).Reads w) (byte : UInt8) :
    Footprint w completed m (m'.supply x mask byte) :=
  (h.setV (.first (by decide) hreads.1 hreads.2.1) _).count

theorem footprint_of_completed (h : m.advance = .completed m') : Footprint m.word True m m' := by
  rcases m.advance_cases with ⟨m₁, r, hr⟩ | ⟨-, i, hdecode, hi⟩
  · rw [hr] at h
    cases h
  · rw [hi] at h
    exact (footprint_execute (Instruction.reads_of_decode m.word_lt hdecode) h).of_passed

theorem footprint_of_waiting (h : m.advance = .waiting m') : Footprint m.word False m m' := by
  rcases m.advance_cases with ⟨m₁, r, hr⟩ | ⟨-, i, hdecode, hi⟩
  · rw [hr] at h
    cases h
  · rw [hi] at h
    obtain ⟨⟨x, rfl⟩, rfl⟩ := execute_eq_waiting h
    have hkey : Pattern.Matches ⟨0xF, any, 0, 0xA⟩ m.word :=
      (Instruction.reads_of_decode m.word_lt hdecode).1
    refine Footprint.of_passed ?_
    exact { Footprint.refl m.word False m.passed with
      awaiting_eq := fun hno => absurd hkey hno
      latch_eq := fun hno => absurd hkey hno }

theorem running_of_goes {byte : UInt8} (hgoes : ∀ r, (m.step byte).status ≠ .ok (.halted r)) :
    m.halted = none := by
  cases hh : m.halted with
  | none => rfl
  | some r =>
    refine absurd ?_ (hgoes r)
    rw [step_of_isHalted hh]

theorem onProgram_of_goes {byte : UInt8} (hgoes : ∀ r, (m.step byte).status ≠ .ok (.halted r)) :
    m.OnProgram := by
  apply Classical.byContradiction
  intro hc
  refine hgoes (.addressOutOfRange m.counter) ?_
  rw [step_of_halted (running_of_goes hgoes) (advance_of_not_onProgram hc)]

/-- **A step that does not halt the program** stays within the footprint of its word. -/
theorem footprint_step {byte : UInt8} (hgoes : ∀ r, (m.step byte).status ≠ .ok (.halted r)) :
    Footprint m.word ((m.step byte).status = .ok .continue) m (m.step byte).machine := by
  have hpassed (completed : Prop) : Footprint m.word completed m m.passed :=
    (Footprint.refl m.word completed m).setCounter _
  have hending := m.ending_step byte
  generalize m.step byte = result at hgoes hending ⊢
  cases hending with
  | completed hh ha => exact (footprint_of_completed ha).count.mono fun _ => rfl
  | waiting hh ha => exact ((footprint_of_waiting ha).setCounter _).mono False.elim
  | stopped | halted => exact absurd rfl (hgoes _)
  | drawing hh ha => exact (hpassed _).supply (reads_of_drawing ha) byte
  | refused => exact hpassed _

/-- **A step takes a random number** exactly at the words of one pattern. -/
theorem drew_step_iff {byte : UInt8} (hgoes : ∀ r, (m.step byte).status ≠ .ok (.halted r)) :
    (m.step byte).drew = true ↔ Pattern.Matches ⟨0xC, any, any, any⟩ m.word := by
  constructor
  · intro hdrew
    have hending := m.ending_step byte
    generalize m.step byte = result at hdrew hending
    cases hending with
    | drawing hh ha => exact (reads_of_drawing ha).1
    | stopped | completed | waiting | halted | refused => cases hdrew
  · intro hw
    obtain ⟨m', x, mask, ha⟩ := exists_drawing (onProgram_of_goes hgoes) hw
    rw [step_of_drawing (running_of_goes hgoes) ha]

end Machine

end Chip8
