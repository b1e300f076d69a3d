import Chip8.Proofs.Instruction.Patterns
import Chip8.Proofs.Machine.Sound
import Chip8.Proofs.Memory.Blocks

/-!
# Why a step halts

A machine whose registers are in range halts for the causes that `HaltCause`
lists, each with its own reason, and for no other.  Below the decoder, `Stops`
says the same of one instruction.

* `execute_halts_iff`: an instruction halts exactly if something stops it.
* `advance_halts_iff`: a step halts exactly if there is a cause.
-/

namespace Chip8

open PatternDigit (any)

/-- What the ending of the first half of a step lets the step report. -/
def Progress.status? : Progress → Option Status
  | .completed _ => some .continue
  | .waiting _ => some .awaitingKey
  | .halted _ r => some (.halted r)
  | .drawing _ _ _ => some .continue
  | .refused _ _ => none

namespace Machine

/-- The instruction cannot be carried out by a machine whose counter is at it. -/
inductive Stops (m : Machine) : Instruction → HaltReason → Prop
  | stop : Stops m .stop (.programEnd m.counter)
  | ret (hs : m.stack.pointer = 0) : Stops m .ret .stackUnderflow
  | call (a : Nat) (hs : m.stack.pointer = 16) : Stops m (.call a) (.stackOverflow 17)
  | draw (x y : Register) (n : Nat) (hn : 0 < n) (hi : 0xFFF < m.index + n - 1) :
    Stops m (.draw x y n) (.addressOutOfRange (m.index + n - 1))
  | decimal (x : Register) (hi : 0xFFF < m.index + 2) :
    Stops m (.decimal x) (.addressOutOfRange (m.index + 2))
  | store (x : Register) (hi : 0xFFF < m.index + x.val) :
    Stops m (.store x) (.addressOutOfRange (m.index + x.val))
  | load (x : Register) (hi : 0xFFF < m.index + x.val) :
    Stops m (.load x) (.addressOutOfRange (m.index + x.val))

/-- What halts a machine, and the reason that is given for it. -/
inductive HaltCause (m : Machine) : HaltReason → Prop
  | offProgram (hc : m.counter < 0x200 ∨ 0xFFE < m.counter) :
    HaltCause m (.addressOutOfRange m.counter)
  | programEnd (hc : m.OnProgram) (hw : m.word = 0) : HaltCause m (.programEnd m.counter)
  | underflow (hc : m.OnProgram) (hw : Pattern.Matches ⟨0, 0, 0xE, 0xE⟩ m.word)
    (hs : m.stack.pointer = 0) : HaltCause m .stackUnderflow
  | overflow (hc : m.OnProgram) (hw : Pattern.Matches ⟨2, any, any, any⟩ m.word)
    (hs : m.stack.pointer = 16) : HaltCause m (.stackOverflow 17)
  | sprite (n : Nat) (hc : m.OnProgram) (hw : Pattern.Matches ⟨0xD, any, any, .only n⟩ m.word)
    (hn : 0 < n) (hi : 0xFFF < m.index + n - 1) :
    HaltCause m (.addressOutOfRange (m.index + n - 1))
  | decimal (hc : m.OnProgram) (hw : Pattern.Matches ⟨0xF, any, 3, 3⟩ m.word)
    (hi : 0xFFF < m.index + 2) : HaltCause m (.addressOutOfRange (m.index + 2))
  | transfer (x : Nat) (hc : m.OnProgram)
    (hw : Pattern.Matches ⟨0xF, .only x, 5, 5⟩ m.word ∨ Pattern.Matches ⟨0xF, .only x, 6, 5⟩ m.word)
    (hi : 0xFFF < m.index + x) : HaltCause m (.addressOutOfRange (m.index + x))
  | unsupported (hc : m.OnProgram) (hw : m.word ≠ 0)
    (hno : ∀ p ∈ instructionSet, ¬p.Matches m.word) : HaltCause m (.unsupported m.word)

variable {m m' : Machine} {r : HaltReason}

/-! ### One instruction -/

/-- The index register is nowhere before the memory, so a block from there on is stopped by its
last address. -/
theorem obstacle_index_iff (h : m.InRange) {n : Nat} {bad : Int} :
    m.memory.obstacle m.index n = some bad ↔
      0 < n ∧ 0xFFF < m.index + n - 1 ∧ bad = m.index + n - 1 :=
  Memory.obstacle_eq_some_iff h.index_word.1

theorem obstacle_index_succ_iff (h : m.InRange) {n : Nat} {bad : Int} :
    m.memory.obstacle m.index (n + 1) = some bad ↔ 0xFFF < m.index + n ∧ bad = m.index + n := by
  have hlast : m.index + (n + 1 : Nat) - 1 = m.index + n := by omega
  rw [obstacle_index_iff h, hlast]
  exact and_iff_right n.succ_pos

theorem onMemory_readBlock_halts_iff {n : Nat} {next : List UInt8 → Progress}
    (hnext : ∀ values, (next values).status? ≠ some (.halted r)) :
    (m'.onMemory (m.memory.readBlock m.index n) next).status? = some (.halted r) ↔
      ∃ bad, m.memory.obstacle m.index n = some bad ∧ r = .addressOutOfRange bad := by
  cases haccess : m.memory.readBlock m.index n with
  | ok values =>
    constructor
    · intro h
      exact absurd h (hnext values)
    · rintro ⟨bad, hbad, -⟩
      cases haccess.symm.trans (Memory.readBlock_eq_error_iff (o := ⟨bad⟩).mpr hbad)
  | error o =>
    have hbad := Memory.readBlock_eq_error_iff.mp haccess
    constructor
    · rintro ⟨⟩
      exact ⟨_, hbad, rfl⟩
    · rintro ⟨bad, hbad', rfl⟩
      cases hbad.symm.trans hbad'
      rfl

theorem writeAtIndex_halts_iff {values : List Int} {next : Machine → Progress}
    (hnext : ∀ n, (next n).status? ≠ some (.halted r)) :
    (m.writeAtIndex values next).status? = some (.halted r) ↔
      ∃ bad, m.memory.obstacle m.index values.length = some bad ∧
        r = .addressOutOfRange bad := by
  rcases hw : m.memory.writeBlock m.index values with ⟨memory, o | ⟨⟩⟩
  · obtain ⟨-, hbad⟩ := Memory.writeBlock_eq_error_iff.mp hw
    rw [writeAtIndex_of_error hw]
    constructor
    · rintro ⟨⟩
      exact ⟨_, hbad, rfl⟩
    · rintro ⟨bad, hbad', rfl⟩
      cases hbad.symm.trans hbad'
      rfl
  · rw [writeAtIndex_of_ok hw]
    constructor
    · intro h
      exact absurd h (hnext _)
    · rintro ⟨bad, hbad, -⟩
      cases hw.symm.trans (Memory.writeBlock_eq_error_iff (o := ⟨bad⟩).mpr ⟨rfl, hbad⟩)

theorem length_first (r : Registers) (x : Register) : (r.first (x.val + 1)).length = x.val + 1 := by
  rw [Registers.first, List.length_take, Vector.length_toList]
  omega

theorem pop_eq_error_iff {s s' : CallStack} :
    s.pop = (s', .error r) ↔ s' = s ∧ s.pointer = 0 ∧ r = .stackUnderflow := by
  obtain ⟨depth, entries⟩ := s
  cases entries with
  | nil => exact ⟨fun h => by cases h; exact ⟨rfl, rfl, rfl⟩, by rintro ⟨rfl, -, rfl⟩; rfl⟩
  | cons a entries => exact ⟨by rintro ⟨⟩, by rintro ⟨-, ⟨⟩, -⟩⟩

theorem push_eq_error_iff (h : m.InRange) (address : Int) {s : CallStack} :
    m.stack.push address = (s, .error r) ↔
      s = m.stack ∧ m.stack.pointer = 16 ∧ r = .stackOverflow 17 := by
  have hdepth : m.stack.depth = 16 := h.depth_eq
  have hpointer : (m.stack.pointer : Int) ≤ 16 := h.pointer_le
  rw [CallStack.push, hdepth]
  by_cases hfull : (16 : Int) ≤ m.stack.pointer
  · have heq : m.stack.pointer = 16 := by omega
    rw [if_pos hfull, heq]
    exact ⟨fun h => by cases h; exact ⟨rfl, rfl, rfl⟩, by rintro ⟨rfl, -, rfl⟩; rfl⟩
  · rw [if_neg hfull]
    constructor
    · intro h
      cases h
    · rintro ⟨-, heq, -⟩
      omega

/-- **An instruction halts** exactly if something stops it. -/
theorem execute_halts_iff (h : m.InRange) {i : Instruction} :
    (m.passed.execute i).status? = some (.halted r) ↔ m.Stops i r := by
  cases i with
  | stop =>
    have hcounter : m.passed.counter - instructionSize = m.counter := by
      rw [counter_passed]
      simp only [instructionSize]
      omega
    show some (Status.halted (.programEnd (m.passed.counter - instructionSize))) = _ ↔ _
    rw [hcounter]
    exact ⟨fun hr => by cases hr; exact .stop, fun hs => by cases hs; rfl⟩
  | ret =>
    rw [execute]
    split
    · next s r' hp =>
      obtain ⟨-, hs, rfl⟩ := pop_eq_error_iff.mp hp
      exact ⟨fun hr => by cases hr; exact .ret hs, fun hs => by cases hs; rfl⟩
    · next s a hp =>
      constructor
      · intro hr
        cases hr
      · intro hs
        cases hs with
        | ret hs =>
          cases hp.symm.trans (pop_eq_error_iff.mpr ⟨rfl, hs, rfl⟩)
  | call a =>
    rw [execute]
    split
    · next s r' hp =>
      obtain ⟨-, hs, rfl⟩ := (push_eq_error_iff h _).mp hp
      exact ⟨fun hr => by cases hr; exact .call a hs, fun hs => by cases hs; rfl⟩
    · next s hp =>
      constructor
      · intro hr
        cases hr
      · intro hs
        cases hs with
        | call _ hs =>
          cases hp.symm.trans ((push_eq_error_iff h _).mpr ⟨rfl, hs, rfl⟩)
  | draw x y n =>
    refine (onMemory_readBlock_halts_iff ?_).trans ?_
    · rintro rows ⟨⟩
    constructor
    · rintro ⟨bad, hbad, rfl⟩
      obtain ⟨hn, hi, rfl⟩ := (obstacle_index_iff h).mp hbad
      exact .draw x y n hn hi
    · intro hs
      cases hs with
      | draw _ _ _ hn hi => exact ⟨_, (obstacle_index_iff h).mpr ⟨hn, hi, rfl⟩, rfl⟩
  | decimal x =>
    refine (writeAtIndex_halts_iff ?_).trans ?_
    · rintro m' ⟨⟩
    constructor
    · rintro ⟨bad, hbad, rfl⟩
      obtain ⟨hi, rfl⟩ := (obstacle_index_succ_iff (n := 2) h).mp hbad
      exact .decimal x hi
    · intro hs
      cases hs with
      | decimal _ hi => exact ⟨_, (obstacle_index_succ_iff (n := 2) h).mpr ⟨hi, rfl⟩, rfl⟩
  | store x =>
    rw [execute]
    refine (writeAtIndex_halts_iff ?_).trans ?_
    · rintro m' ⟨⟩
    rw [length_first]
    constructor
    · rintro ⟨bad, hbad, rfl⟩
      obtain ⟨hi, rfl⟩ := (obstacle_index_succ_iff h).mp hbad
      exact .store x hi
    · intro hs
      cases hs with
      | store _ hi => exact ⟨_, (obstacle_index_succ_iff h).mpr ⟨hi, rfl⟩, rfl⟩
  | load x =>
    refine (onMemory_readBlock_halts_iff ?_).trans ?_
    · rintro values ⟨⟩
    constructor
    · rintro ⟨bad, hbad, rfl⟩
      obtain ⟨hi, rfl⟩ := (obstacle_index_succ_iff h).mp hbad
      exact .load x hi
    · intro hs
      cases hs with
      | load _ hi => exact ⟨_, (obstacle_index_succ_iff h).mpr ⟨hi, rfl⟩, rfl⟩
  | awaitKey x =>
    rw [execute]
    split
    · split
      · exact ⟨by rintro ⟨⟩, by rintro ⟨⟩⟩
      · exact ⟨by rintro ⟨⟩, by rintro ⟨⟩⟩
    · exact ⟨by rintro ⟨⟩, by rintro ⟨⟩⟩
  | setDelay x | setSound x =>
    rw [execute]
    split
    · exact ⟨by rintro ⟨⟩, by rintro ⟨⟩⟩
    · exact ⟨by rintro ⟨⟩, by rintro ⟨⟩⟩
  | _ => exact ⟨by rintro ⟨⟩, by rintro ⟨⟩⟩

theorem execute_status (h : m.InRange) (i : Instruction) :
    (∃ r, (m.execute i).status? = some (.halted r)) ∨ (m.execute i).status? = some .continue ∨
      (m.execute i).status? = some .awaitingKey ∧ ∃ x, i = .awaitKey x := by
  cases i with
  | stop => exact .inl ⟨_, rfl⟩
  | ret | call a =>
    rw [execute]
    split
    · exact .inl ⟨_, rfl⟩
    · exact .inr (.inl rfl)
  | draw x y n | load x =>
    simp only [execute, onMemory]
    split
    · exact .inr (.inl rfl)
    · exact .inl ⟨_, rfl⟩
  | decimal x | store x =>
    rw [execute]
    rcases writeAtIndex_cases m _ _ with ⟨r, hr⟩ | ⟨memory, -, hr⟩ <;> rw [hr]
    · exact .inl ⟨r, rfl⟩
    · exact .inr (.inl rfl)
  | awaitKey x =>
    rw [execute]
    split
    · split
      · exact .inr (.inr ⟨rfl, x, rfl⟩)
      · exact .inr (.inl rfl)
    · exact .inr (.inr ⟨rfl, x, rfl⟩)
  | setDelay x | setSound x =>
    rw [execute, byte?_of_byte (h.v_byte x)]
    exact .inr (.inl rfl)
  | _ => exact .inr (.inl rfl)

theorem eq_random_of_execute {i : Instruction} {x : Register} {mask : Nat}
    (ha : m.execute i = .drawing m' x mask) : i = .random x mask := by
  cases i with
  | random x' mask' =>
    cases ha
    rfl
  | ret | call a =>
    rw [execute] at ha
    split at ha <;> cases ha
  | draw x y n | load x =>
    simp only [execute, onMemory] at ha
    split at ha <;> cases ha
  | decimal x | store x =>
    rw [execute] at ha
    rcases writeAtIndex_cases m _ _ with ⟨r, hr⟩ | ⟨memory, -, hr⟩ <;> rw [hr] at ha <;> cases ha
  | awaitKey x =>
    rw [execute] at ha
    split at ha
    · split at ha <;> cases ha
    · cases ha
  | setDelay x | setSound x =>
    rw [execute] at ha
    split at ha <;> cases ha
  | _ => cases ha

/-! ### One step -/

theorem haltCause_of_stops (hc : m.OnProgram) {i : Instruction} (hi : i.Reads m.word)
    (hs : m.Stops i r) : m.HaltCause r := by
  cases hs with
  | stop => exact .programEnd hc hi
  | ret hs => exact .underflow hc hi hs
  | call a hs => exact .overflow hc hi.1 hs
  | draw x y n hn hi' =>
    obtain ⟨⟨hf, -, -, -⟩, -, -, hlast⟩ := hi
    exact .sprite n hc ⟨hf, trivial, trivial, hlast.symm⟩ hn hi'
  | decimal x hi' => exact .decimal hc hi.1 hi'
  | store x hi' =>
    obtain ⟨⟨hf, -, ht, hl⟩, hx⟩ := hi
    exact .transfer x.val hc (.inl ⟨hf, hx.symm, ht, hl⟩) hi'
  | load x hi' =>
    obtain ⟨⟨hf, -, ht, hl⟩, hx⟩ := hi
    exact .transfer x.val hc (.inr ⟨hf, hx.symm, ht, hl⟩) hi'

theorem advance_of_stops (h : m.InRange) (hc : m.OnProgram) {i : Instruction}
    (hi : i.Reads m.word) (hs : m.Stops i r) : m.advance.status? = some (.halted r) := by
  rw [advance_of_decode hc (Instruction.decode_of_reads m.word_lt hi)]
  exact (execute_halts_iff h).mpr hs

/-- **A step halts** exactly if there is a cause for it. -/
theorem advance_halts_iff (h : m.InRange) :
    m.advance.status? = some (.halted r) ↔ m.HaltCause r := by
  constructor
  · intro ha
    by_cases hc : m.OnProgram
    · cases hd : Instruction.decode ⟨m.word⟩ with
      | none =>
        obtain ⟨hne, hno⟩ := (Instruction.decode_eq_none_iff m.word_lt).mp hd
        rw [advance_of_decode_eq_none hc hd] at ha
        cases ha
        exact .unsupported hc hne hno
      | some i =>
        rw [advance_of_decode hc hd] at ha
        exact haltCause_of_stops hc (Instruction.reads_of_decode m.word_lt hd)
          ((execute_halts_iff h).mp ha)
    · rw [advance_of_not_onProgram hc] at ha
      cases ha
      exact .offProgram (by simp only [OnProgram] at hc; omega)
  · intro hcause
    cases hcause with
    | offProgram hc =>
      rw [advance_of_not_onProgram fun ⟨hfirst, hlast⟩ => by omega]
      rfl
    | programEnd hc hw => exact advance_of_stops h hc (i := .stop) hw .stop
    | underflow hc hw hs => exact advance_of_stops h hc (i := .ret) hw (.ret hs)
    | overflow hc hw hs => exact advance_of_stops h hc (i := .call _) ⟨hw, rfl⟩ (.call _ hs)
    | sprite n hc hw hn hi =>
      obtain ⟨hf, -, -, hlast⟩ := hw
      have hreads : (Instruction.draw _ _ n).Reads m.word :=
        ⟨⟨hf, trivial, trivial, trivial⟩, Word.val_x _, Word.val_y _, hlast.symm⟩
      exact advance_of_stops h hc hreads (.draw _ _ n hn hi)
    | decimal hc hw hi =>
      exact advance_of_stops h hc (i := .decimal _) ⟨hw, Word.val_x _⟩ (.decimal _ hi)
    | transfer x hc hw hi =>
      have hx : (⟨m.word⟩ : Word).x.val = x := by
        rcases hw with ⟨-, hx, -, -⟩ | ⟨-, hx, -, -⟩ <;> exact (Word.val_x _).trans hx
      rw [← hx] at hi ⊢
      rcases hw with ⟨hf, -, ht, hl⟩ | ⟨hf, -, ht, hl⟩
      · have hreads : (Instruction.store _).Reads m.word :=
          ⟨⟨hf, trivial, ht, hl⟩, Word.val_x _⟩
        exact advance_of_stops h hc hreads (.store _ hi)
      · have hreads : (Instruction.load _).Reads m.word :=
          ⟨⟨hf, trivial, ht, hl⟩, Word.val_x _⟩
        exact advance_of_stops h hc hreads (.load _ hi)
    | unsupported hc hw hno =>
      have hdecode := (Instruction.decode_eq_none_iff m.word_lt).mpr ⟨hw, hno⟩
      rw [advance_of_decode_eq_none hc hdecode]
      rfl

/-- A step for whose halting there is no cause continues, or waits for a key at its word. -/
theorem advance_status (h : m.InRange) (hno : ∀ r, ¬m.HaltCause r) :
    m.advance.status? = some .continue ∨
      m.advance.status? = some .awaitingKey ∧ Pattern.Matches ⟨0xF, any, 0, 0xA⟩ m.word := by
  have hne (r) : m.advance.status? ≠ some (.halted r) := fun ha =>
    hno r ((advance_halts_iff h).mp ha)
  by_cases hc : m.OnProgram
  · cases hd : Instruction.decode ⟨m.word⟩ with
    | none => exact absurd (congrArg _ (advance_of_decode_eq_none hc hd)) (hne _)
    | some i =>
      have hpassed : m.passed.InRange := { h with }
      rw [advance_of_decode hc hd] at hne ⊢
      rcases execute_status hpassed i with ⟨r, hr⟩ | hs | ⟨hs, x, rfl⟩
      · exact absurd hr (hne r)
      · exact .inl hs
      · exact .inr ⟨hs, (Instruction.reads_of_decode m.word_lt hd).1⟩
  · exact absurd (congrArg _ (advance_of_not_onProgram hc)) (hne _)

theorem word_of_drawing {x : Register} {mask : Nat} (ha : m.advance = .drawing m' x mask) :
    Pattern.Matches ⟨0xC, any, any, any⟩ m.word := by
  rcases m.advance_cases with ⟨m₁, r, hr⟩ | ⟨-, i, hd, hi⟩
  · rw [ha] at hr
    cases hr
  · obtain rfl := eq_random_of_execute (hi.symm.trans ha)
    exact (Instruction.reads_of_decode m.word_lt hd).1

/-- The ending of the first half settles what a step reports. -/
theorem step_status_eq_ok_iff (hh : m.halted = none) (byte : UInt8) {status : Status} :
    (m.step byte).status = .ok status ↔ m.advance.status? = some status := by
  have hending := m.ending_step byte
  generalize m.step byte = result at hending ⊢
  cases hending with
  | stopped hstopped =>
    rw [hh] at hstopped
    cases hstopped
  | completed _ ha | waiting _ ha | halted _ ha | drawing _ ha =>
    rw [ha]
    exact ⟨fun h => by cases h; rfl, fun h => by cases h; rfl⟩
  | refused _ ha =>
    rw [ha]
    exact ⟨by rintro ⟨⟩, by rintro ⟨⟩⟩

end Machine

end Chip8
