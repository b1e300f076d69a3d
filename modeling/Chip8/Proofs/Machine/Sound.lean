import Chip8.Proofs.Machine.Step

/-!
# What programs keep

A machine is sound if its registers are bytes, its index register has sixteen
bits, its counter lies where a program can bring it and its stack holds addresses
that follow an instruction.  Memory, display and timers need no condition: their
types leave no other values.

* `Sound.step`: a step of a sound machine leads to a sound machine and reports a
  status.
* `sound_fresh`: a machine that has just been built is sound.
-/

namespace Chip8

namespace Machine

/-- Registers, index register and stack have values that programs give them. -/
structure InRange (m : Machine) : Prop where
  v_byte : ∀ x, 0 ≤ m.v x ∧ m.v x ≤ 0xFF
  index_word : 0 ≤ m.index ∧ m.index ≤ 0xFFFF
  depth_eq : m.stack.depth = CallStack.machineDepth
  pointer_le : (m.stack.pointer : Int) ≤ CallStack.machineDepth

/-- Everything in the machine has values that programs give it. -/
structure Sound (m : Machine) : Prop extends InRange m where
  counter_bounds : 0 ≤ m.counter ∧ m.counter ≤ 0x10FE
  returns : ∀ a ∈ m.stack.entries, 0x202 ≤ a ∧ a ≤ 0x1000

theorem sound_fresh (dialect : Dialect) : (fresh dialect).Sound where
  v_byte x := by
    have hx : (fresh dialect).v x = 0 := Vector.getElem_replicate x.isLt
    omega
  index_word := show (0 : Int) ≤ 0 ∧ (0 : Int) ≤ 0xFFFF by decide
  depth_eq := rfl
  pointer_le := show (0 : Int) ≤ 16 by decide
  counter_bounds := show (0 : Int) ≤ 0x200 ∧ (0x200 : Int) ≤ 0x10FE by decide
  returns a ha := absurd ha List.not_mem_nil

variable {m m' : Machine}

/-! ### Changes that keep a machine sound -/

theorem Sound.of_eq (h : m.Sound) (hr : m'.registers = m.registers) (hs : m'.stack = m.stack) :
    m'.Sound where
  v_byte := by rw [show m'.v = m.v from congrArg Registers.get hr]; exact h.v_byte
  index_word := by rw [show m'.index = m.index from congrArg Registers.index hr]; exact h.index_word
  depth_eq := hs ▸ h.depth_eq
  pointer_le := hs ▸ h.pointer_le
  counter_bounds := by
    rw [show m'.counter = m.counter from congrArg Registers.counter hr]
    exact h.counter_bounds
  returns := hs ▸ h.returns

theorem v_setV (m : Machine) (x y : Register) (value : Int) :
    (m.setV x value).v y = if x = y then value else m.v y :=
  Registers.get_set m.registers x y value

theorem Sound.setV (h : m.Sound) (x : Register) {value : Int} (hv : 0 ≤ value ∧ value ≤ 0xFF) :
    (m.setV x value).Sound :=
  { h with
    v_byte := by
      intro y
      rw [v_setV]
      split
      · exact hv
      · exact h.v_byte y }

theorem Sound.setFlag (h : m.Sound) (flag : Bool) :
    Sound { m with registers := m.registers.setFlag flag } :=
  h.setV flagRegister (by split <;> decide)

theorem Sound.setWithFlag (h : m.Sound) (x : Register) {value : Int}
    (hv : 0 ≤ value ∧ value ≤ 0xFF) (flag : Bool) : (m.setWithFlag x value flag).Sound :=
  (h.setV x hv).setFlag flag

theorem Sound.setCounter (h : m.Sound) {address : Int} (ha : 0 ≤ address ∧ address ≤ 0x10FE) :
    (m.setCounter address).Sound :=
  { h with counter_bounds := ha }

theorem Sound.setIndex (h : m.Sound) {address : Int} (ha : 0 ≤ address ∧ address ≤ 0xFFFF) :
    (m.setIndex address).Sound :=
  { h with index_word := ha }

theorem Sound.skipIf (h : m.Sound) (hc : m.counter ≤ 0x1000) (condition : Bool) :
    (m.skipIf condition).Sound := by
  rw [Machine.skipIf]
  split
  · have := h.counter_bounds.1
    refine h.setCounter ⟨?_, ?_⟩
    · simp only [instructionSize]
      omega
    · simp only [instructionSize]
      omega
  · exact h

theorem Sound.passIndex (h : m.Sound) (count : Nat) : (m.passIndex count).Sound := by
  rw [Machine.passIndex]
  split
  · exact h.setIndex (by omega)
  · exact h

theorem toNat_byte (b : UInt8) : 0 ≤ (b.toNat : Int) ∧ (b.toNat : Int) ≤ 0xFF := by
  have := b.toNat_lt
  omega

theorem Sound.setBytes (h : m.Sound) {v : Vector Int 16}
    (hv : ∀ x, 0 ≤ v.get x ∧ v.get x ≤ 0xFF) :
    Sound { m with registers := { m.registers with v } } :=
  { h with v_byte := hv }

theorem Sound.setFirst (h : m.Sound) (values : List UInt8) :
    Sound { m with registers := m.registers.setFirst values } := by
  have hget (f : Fin 16 → Int) (x : Fin 16) : (Vector.ofFn f).get x = f x :=
    Vector.getElem_ofFn x.isLt
  refine h.setBytes fun x => ?_
  rw [hget]
  split
  · exact toNat_byte _
  · exact h.v_byte x

theorem Sound.push (h : m.Sound) (hc : 0x202 ≤ m.counter ∧ m.counter ≤ 0x1000) {s : CallStack}
    (hs : m.stack.push m.counter = (s, .ok ())) : Sound { m with stack := s } := by
  rw [CallStack.push] at hs
  split at hs
  · cases hs
  · next hroom =>
    cases hs
    refine { h with depth_eq := h.depth_eq, pointer_le := ?_, returns := ?_ }
    · have hdepth := h.depth_eq
      show ((m.stack.entries.length + 1 : Nat) : Int) ≤ _
      simp only [CallStack.pointer] at hroom
      omega
    · intro a ha
      rcases List.mem_cons.mp ha with rfl | ha
      · omega
      · exact h.returns a ha

theorem Sound.pop (h : m.Sound) {a : Nat} {s : CallStack} (hs : m.stack.pop = (s, .ok a)) :
    Sound ({ m with stack := s }.setCounter a) := by
  have hpointer := h.pointer_le
  have hreturns := h.returns
  rw [CallStack.pop] at hs
  split at hs
  · cases hs
  · next b r hentries =>
    cases hs
    rw [CallStack.pointer, hentries, List.length_cons] at hpointer
    rw [hentries] at hreturns
    have ha := hreturns a List.mem_cons_self
    refine { h with
      depth_eq := h.depth_eq
      pointer_le := ?_
      counter_bounds := ⟨by show (0 : Int) ≤ a; omega, by show (a : Int) ≤ 0x10FE; omega⟩
      returns := fun b hb => hreturns b (List.mem_cons_of_mem a hb) }
    show (r.length : Int) ≤ _
    omega

end Machine

/-! ### Instructions -/

namespace Instruction

/-- The numbers in the instruction have as many digits as a word leaves for them. -/
def Fits : Instruction → Prop
  | .jump a | .call a | .setIndex a | .jumpOffset _ a => a < 0x1000
  | .setByte _ n => n < 0x100
  | _ => True

theorem fits_of_arithmetic? {x y : Register} {n : Nat} {i : Instruction}
    (h : arithmetic? x y n = some i) : i.Fits := by
  unfold arithmetic? at h
  split at h <;> cases h <;> trivial

theorem fits_of_transfer? {x : Register} {n : Nat} {i : Instruction}
    (h : transfer? x n = some i) : i.Fits := by
  unfold transfer? at h
  split at h <;> cases h <;> trivial

theorem fits_of_decode {w : Word} {i : Instruction} (h : decode w = some i) : i.Fits := by
  have hnn : w.nn < 0x100 := by
    simp only [Word.nn]
    omega
  have hnnn : w.nnn < 0x1000 := by
    simp only [Word.nnn]
    omega
  rw [decode] at h
  split at h
  case h_9 => exact fits_of_arithmetic? h
  case h_16 => exact fits_of_transfer? h
  all_goals
    repeat' split at h
  all_goals
    cases h
  all_goals
    trivial

end Instruction

/-! ### Steps -/

namespace Progress

/-- The first half of a step gives its result, and the machine that it leads to has a property. -/
def Leads (P : Machine → Prop) : Progress → Prop
  | .completed m => P m
  | .waiting m => P m
  | .halted _ _ => True
  | .drawing _ _ _ => True
  | .refused _ _ => False

end Progress

namespace Machine

variable {m m' : Machine}

theorem leads_onMemory {α : Type} {P : Machine → Prop} {access : Except OutOfRange α}
    {next : α → Progress} (h : ∀ a, (next a).Leads P) : (m.onMemory access next).Leads P := by
  cases access with
  | ok a => exact h a
  | error e => trivial

theorem leads_writeAtIndex {P : Machine → Prop} {values : List Int} {next : Machine → Progress}
    (h : ∀ memory, (next { m with memory }).Leads P) : (m.writeAtIndex values next).Leads P := by
  rcases writeAtIndex_cases m values next with ⟨r, hw⟩ | ⟨memory, -, hw⟩
  · rw [hw]
    trivial
  · rw [hw]
    exact h memory

theorem byte?_of_byte {value : Int} (h : 0 ≤ value ∧ value ≤ 0xFF) :
    Timers.byte? value = some (UInt8.ofInt value) :=
  if_pos h

theorem combine_byte (op : LogicOp) (a b : Int) : 0 ≤ combine op a b ∧ combine op a b ≤ 0xFF :=
  toNat_byte _

theorem Sound.shiftOperand (h : m.Sound) (x y : Register) :
    0 ≤ m.shiftOperand x y ∧ m.shiftOperand x y ≤ 0xFF := by
  rw [Machine.shiftOperand]
  split
  · exact h.v_byte y
  · exact h.v_byte x

/-- **Every instruction keeps a machine sound** and comes to a result. -/
theorem Sound.execute (h : m.Sound) (hc : 0x202 ≤ m.counter ∧ m.counter ≤ 0x1000)
    {i : Instruction} (hi : i.Fits) : (m.execute i).Leads Sound := by
  cases i with
  | stop => trivial
  | clear => exact h.of_eq rfl rfl
  | ret =>
    rw [Machine.execute]
    rcases hp : m.stack.pop with ⟨s, r | a⟩
    · trivial
    · exact h.pop hp
  | jump a => exact h.setCounter ⟨by omega, by have : a < 0x1000 := hi; omega⟩
  | call a =>
    have ha : a < 0x1000 := hi
    rw [Machine.execute]
    rcases hp : m.stack.push m.counter with ⟨s, r | ⟨⟩⟩
    · trivial
    · exact (h.push hc hp).setCounter ⟨by omega, by omega⟩
  | skipEqualByte x n => exact h.skipIf hc.2 _
  | skipUnequalByte x n => exact h.skipIf hc.2 _
  | skipEqual x y => exact h.skipIf hc.2 _
  | skipUnequal x y => exact h.skipIf hc.2 _
  | setByte x n => exact h.setV x ⟨by omega, by have : n < 0x100 := hi; omega⟩
  | addByte x n => exact h.setV x (by omega)
  | copy x y => exact h.setV x (h.v_byte y)
  | logic op x y =>
    have hx : (m.setV x (combine op (m.v x) (m.v y))).Sound := h.setV x (combine_byte op _ _)
    show Sound (if m.dialect.logicResetsVf then _ else _)
    split
    · exact hx.setV flagRegister (by decide)
    · exact hx
  | add x y => exact h.setWithFlag x (by omega) _
  | subtract x y => exact h.setWithFlag x (by omega) _
  | subtractFrom x y => exact h.setWithFlag x (by omega) _
  | shiftRight x y =>
    have hs := h.shiftOperand x y
    exact h.setWithFlag x (by omega) _
  | shiftLeft x y => exact h.setWithFlag x (by omega) _
  | setIndex a => exact h.setIndex ⟨by omega, by have : a < 0x1000 := hi; omega⟩
  | jumpOffset x a =>
    have ha : a < 0x1000 := hi
    have hv := h.v_byte (if m.dialect.jumpUsesVx then x else firstRegister)
    exact h.setCounter ⟨by omega, by omega⟩
  | random x mask => trivial
  | draw x y n =>
    exact leads_onMemory fun rows => (h.setFlag _).of_eq rfl rfl
  | skipPressed x => exact h.skipIf hc.2 _
  | skipReleased x => exact h.skipIf hc.2 _
  | readDelay x => exact h.setV x (toNat_byte _)
  | awaitKey x =>
    rw [Machine.execute]
    split
    · split
      · exact h.of_eq rfl rfl
      · next keypad key _ =>
        have hk : Sound { m with keypad } := h.of_eq rfl rfl
        exact hk.setV x ⟨by omega, by omega⟩
    · exact h.of_eq rfl rfl
  | setDelay x =>
    rw [Machine.execute, byte?_of_byte (h.v_byte x)]
    exact h.of_eq rfl rfl
  | setSound x =>
    rw [Machine.execute, byte?_of_byte (h.v_byte x)]
    exact h.of_eq rfl rfl
  | addIndex x => exact h.setIndex (by omega)
  | glyph x => exact h.setIndex (by simp only [glyphAddress, fontStart, glyphHeight]; omega)
  | decimal x =>
    rw [Machine.execute]
    exact leads_writeAtIndex fun memory => h.of_eq rfl rfl
  | store x =>
    have hm (memory : Ram) : Sound { m with memory } := h.of_eq rfl rfl
    rw [Machine.execute]
    exact leads_writeAtIndex fun memory => (hm memory).passIndex _
  | load x => exact leads_onMemory fun values => (h.setFirst values).passIndex _

theorem Sound.passed (h : m.Sound) (hc : m.OnProgram) : m.passed.Sound :=
  h.setCounter ⟨by have := hc.1; simp only [instructionSize]; omega,
    by have := hc.2; simp only [instructionSize]; omega⟩

theorem Sound.advance (h : m.Sound) : m.advance.Leads Sound := by
  by_cases hc : m.OnProgram
  · cases hw : Instruction.decode ⟨m.word⟩ with
    | none =>
      rw [advance_of_decode_eq_none hc hw]
      trivial
    | some i =>
      rw [advance_of_decode hc hw]
      refine (h.passed hc).execute ?_ (Instruction.fits_of_decode hw)
      rw [counter_passed]
      obtain ⟨hfirst, hlast⟩ := hc
      omega
  · rw [advance_of_not_onProgram hc]
    trivial

theorem onProgram_of_drawing {x : Register} {mask : Nat}
    (ha : m.advance = .drawing m' x mask) : m.OnProgram := by
  by_cases hc : m.OnProgram
  · exact hc
  · rw [advance_of_not_onProgram hc] at ha
    cases ha

/-- **A step of a sound machine** leads to a sound machine and reports a status. -/
theorem Sound.step (h : m.Sound) (byte : UInt8) :
    (m.step byte).machine.Sound ∧ ∃ status, (m.step byte).status = .ok status := by
  have hlead := h.advance
  have hending := m.ending_step byte
  generalize m.step byte = result at hending ⊢
  cases hending with
  | stopped => exact ⟨h, _, rfl⟩
  | completed hh ha =>
    rw [ha] at hlead
    exact ⟨Sound.of_eq hlead rfl rfl, _, rfl⟩
  | waiting hh ha =>
    rw [ha] at hlead
    exact ⟨Sound.setCounter hlead h.counter_bounds, _, rfl⟩
  | halted => exact ⟨h.of_eq rfl rfl, _, rfl⟩
  | drawing hh ha =>
    have hpassed := h.passed (onProgram_of_drawing ha)
    exact ⟨(hpassed.setV _ (toNat_byte _)).of_eq rfl rfl, _, rfl⟩
  | refused hh ha =>
    rw [ha] at hlead
    exact hlead.elim

end Machine

end Chip8
