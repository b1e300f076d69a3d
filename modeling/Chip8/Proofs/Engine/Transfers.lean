import Chip8.Proofs.Engine.Arithmetic
import Chip8.Proofs.Engine.Instructions
import Chip8.Proofs.Machine.Transfers

/-!
# Steps that store and load registers

What one step has stored, a later step loads: at the same address, with the same last
register, and as long as the bytes have not been changed.  It does not matter what has
become of the registers in between, nor in which dialects the steps are made.

* `store_completes`, `load_completes`, `decimal_completes`: the three steps.
* `stored_registers_come_back`: what they leave in registers and memory.
-/

namespace Chip8

open PatternDigit (any)

namespace Engine

variable {h : Host} {c : Nat} {e : Engine} {x : Register}

/-- The index register after a transfer of the registers up to `x`. -/
def indexBehind (e : Engine) (x : Register) : Int :=
  if e.machine.dialect.loadStoreIncrementsIndex then e.machine.index + x.val + 1
  else e.machine.index

/-- The machine after the registers of the engine up to `x` have been stored. -/
structure Stored (e : Engine) (x : Register) (m : Machine) : Prop where
  byteAt_eq : ∀ z ≤ x, ((m.memory.byteAt (e.machine.index + z.val)).toNat : Int) = e.machine.v z
  byteAt_eq_of_outside : ∀ a, a < e.machine.index ∨ e.machine.index + x.val < a →
    m.memory.byteAt a = e.machine.memory.byteAt a
  v_eq : ∀ z, m.v z = e.machine.v z
  index_eq : m.index = e.indexBehind x

/-- The machine after the registers of the engine up to `x` have been loaded. -/
structure Loaded (e : Engine) (x : Register) (m : Machine) : Prop where
  v_eq : ∀ z ≤ x, m.v z = (e.machine.memory.byteAt (e.machine.index + z.val)).toNat
  v_eq_of_above : ∀ z, x < z → m.v z = e.machine.v z
  memory_eq : m.memory = e.machine.memory
  index_eq : m.index = e.indexBehind x

/-- The machine after the decimal digits of a register of the engine have been written. -/
structure Digits (e : Engine) (x : Register) (m : Machine) : Prop where
  value_eq : ∃ d₀ d₁ d₂ : Nat, d₀ ≤ 9 ∧ d₁ ≤ 9 ∧ d₂ ≤ 9 ∧
    (100 * d₀ + 10 * d₁ + d₂ : Int) = e.machine.v x ∧
    (m.memory.byteAt e.machine.index).toNat = d₀ ∧
    (m.memory.byteAt (e.machine.index + 1)).toNat = d₁ ∧
    (m.memory.byteAt (e.machine.index + 2)).toNat = d₂
  byteAt_eq_of_outside : ∀ a, a < e.machine.index ∨ e.machine.index + 2 < a →
    m.memory.byteAt a = e.machine.memory.byteAt a
  v_eq : ∀ z, m.v z = e.machine.v z
  index_eq : m.index = e.machine.index

theorem index_passIndex_eq_indexBehind {m : Machine} (hindex : m.index = e.machine.index)
    (hdialect : m.dialect = e.machine.dialect)
    (hfits : 0 ≤ e.machine.index ∧ e.machine.index + x.val ≤ 0xFFF) :
    (m.passIndex (x.val + 1)).index = e.indexBehind x := by
  rw [Machine.passIndex_index (by omega), hindex, hdialect, indexBehind]
  split
  · omega
  · rfl

theorem Poised.store_completes (hp : e.Poised h c) (perform : Request → HostM Reply)
    (hw : Pattern.Matches ⟨0xF, any, 5, 5⟩ e.machine.word)
    (hx : Instruction.XReads e.machine.word x) (hbytes : ∀ z ≤ x, e.OnBytes z z)
    (hfits : 0 ≤ e.machine.index ∧ e.machine.index + x.val ≤ 0xFFF) :
    ∃ m, HostM.Completes perform h c e m ∧ e.Stored x m := by
  have hreads : (Instruction.store x).Reads e.machine.word := ⟨hw, hx⟩
  obtain ⟨memory, hexecute, hstored, hothers⟩ :=
    Machine.execute_store (m := e.machine.passed) x hfits
  have hmemory : ({ e.machine.passed with memory }.passIndex (x.val + 1)).count.memory = memory :=
    Machine.passIndex_memory _ _
  refine ⟨_, hp.completes hreads hexecute, ?_, ?_, ?_, ?_⟩
  · intro z hz
    obtain ⟨hbyte, -⟩ := (hbytes z hz).bytes
    have hz : memory.byteAt (e.machine.index + z.val) = UInt8.ofInt (e.machine.v z) := hstored z hz
    rw [hmemory, hz]
    exact Memory.toNat_ofInt hbyte
  · intro a ha
    rw [hmemory]
    exact hothers a ha
  · intro z
    exact Machine.passIndex_v _ _ z
  · exact index_passIndex_eq_indexBehind rfl rfl hfits

theorem Poised.load_completes (hp : e.Poised h c) (perform : Request → HostM Reply)
    (hw : Pattern.Matches ⟨0xF, any, 6, 5⟩ e.machine.word)
    (hx : Instruction.XReads e.machine.word x)
    (hfits : 0 ≤ e.machine.index ∧ e.machine.index + x.val ≤ 0xFFF) :
    ∃ m, HostM.Completes perform h c e m ∧ e.Loaded x m := by
  have hreads : (Instruction.load x).Reads e.machine.word := ⟨hw, hx⟩
  obtain ⟨registers, hexecute, hindex, hloaded, hothers⟩ :=
    Machine.execute_load (m := e.machine.passed) x hfits
  refine ⟨_, hp.completes hreads hexecute, ?_, ?_, ?_, ?_⟩
  · intro z hz
    exact (Machine.passIndex_v _ _ z).trans (hloaded z hz)
  · intro z hz
    exact (Machine.passIndex_v _ _ z).trans (hothers z hz)
  · exact Machine.passIndex_memory _ _
  · exact index_passIndex_eq_indexBehind hindex rfl hfits

theorem Poised.decimal_completes (hp : e.Poised h c) (perform : Request → HostM Reply)
    (hw : Pattern.Matches ⟨0xF, any, 3, 3⟩ e.machine.word)
    (hx : Instruction.XReads e.machine.word x) (hbytes : e.OnBytes x x)
    (hfits : 0 ≤ e.machine.index ∧ e.machine.index + 2 ≤ 0xFFF) :
    ∃ m, HostM.Completes perform h c e m ∧ e.Digits x m := by
  have hreads : (Instruction.decimal x).Reads e.machine.word := ⟨hw, hx⟩
  obtain ⟨memory, hexecute, hdigits, hothers⟩ :=
    Machine.execute_decimal (m := e.machine.passed) x hfits hbytes.bytes.1
  exact ⟨_, hp.completes hreads hexecute, hdigits, hothers, fun _ => rfl, rfl⟩

end Engine

/-- **What has been stored is loaded.**  A step that stores the registers up to `x` in bytes of the
memory writes each register to its byte and nothing else.  A step that loads the registers up to
`x`, in whatever engine and dialect, from the same address and from the same bytes brings these
values back, and leaves the registers above `x` and the memory alone.  Both leave the index register
where it is, or move it behind the bytes, as the dialect says.  A step that writes the digits of a
register writes its hundreds, its tens and its ones, each less than ten, and nothing else. -/
theorem stored_registers_come_back (perform : Request → HostM Reply) {h : Host} {c : Nat}
    {e : Engine} (hp : e.Poised h c) {x : Register} (hx : Instruction.XReads e.machine.word x)
    (hfirst : 0 ≤ e.machine.index) :
    (Pattern.Matches ⟨0xF, any, 5, 5⟩ e.machine.word → e.machine.index + x.val ≤ 0xFFF →
      (∀ z ≤ x, e.OnBytes z z) →
      ∃ m, HostM.Completes perform h c e m ∧ e.Stored x m ∧
        ∀ (h' : Host) (c' : Nat) (e' : Engine), e'.Poised h' c' →
          Pattern.Matches ⟨0xF, any, 6, 5⟩ e'.machine.word →
          Instruction.XReads e'.machine.word x → e'.machine.index = e.machine.index →
          (∀ z ≤ x, e'.machine.memory.byteAt (e.machine.index + z.val) =
            m.memory.byteAt (e.machine.index + z.val)) →
          ∃ m', HostM.Completes perform h' c' e' m' ∧ e'.Loaded x m' ∧
            ∀ z ≤ x, m'.v z = e.machine.v z) ∧
    (Pattern.Matches ⟨0xF, any, 3, 3⟩ e.machine.word → e.machine.index + 2 ≤ 0xFFF →
      e.OnBytes x x → ∃ m, HostM.Completes perform h c e m ∧ e.Digits x m) := by
  constructor
  · intro hw hlast hbytes
    obtain ⟨m, hm, hstored⟩ := hp.store_completes perform hw hx hbytes ⟨hfirst, hlast⟩
    refine ⟨m, hm, hstored, ?_⟩
    intro h' c' e' hp' hw' hx' hsame hkept
    obtain ⟨m', hm', hloaded⟩ := hp'.load_completes perform hw' hx' (by omega)
    refine ⟨m', hm', hloaded, ?_⟩
    intro z hz
    rw [hloaded.v_eq z hz, hsame, hkept z hz]
    exact hstored.byteAt_eq z hz
  · intro hw hlast hbyte
    exact hp.decimal_completes perform hw hx hbyte ⟨hfirst, hlast⟩

/-- Two registers are stored, changed and loaded again, and then the digits of one are written. -/
def transferProgram : List UInt8 :=
  [0x60, 0x07, 0x61, 0xEA, 0xA3, 0x00, 0xF1, 0x55, 0x60, 0x00, 0x61, 0x00, 0xA3, 0x00, 0xF1, 0x65,
    0xF1, 0x33]

/-- A host after so many steps of the program, in the dialect in which a transfer moves the index
register. -/
def transferHost (steps : Nat) : Host :=
  hostAfter { Dialect.plain with loadStoreIncrementsIndex := true }
    (.load transferProgram "TRANSFER" :: .start :: List.replicate steps .step)

/-- The second register holds 234 when it is stored, 0 before it is loaded and 234 after this. -/
theorem stored_registers_come_back_of_transfer :
    (∃ e m e' m', HostM.Completes HostM.perform (transferHost 3) 0 e m ∧ m.index = 0x302 ∧
      HostM.Completes HostM.perform (transferHost 7) 0 e' m' ∧ e'.machine.v 1 = 0 ∧
      m'.v 1 = 234 ∧ m'.index = 0x302) ∧
    ∃ e m, HostM.Completes HostM.perform (transferHost 8) 0 e m ∧
      (m.memory.byteAt 0x302).toNat = 2 ∧ (m.memory.byteAt 0x303).toNat = 3 ∧
      (m.memory.byteAt 0x304).toNat = 4 := by
  have hstores : ((transferHost 3).engines[0]?.map fun e => (e.standsAt 0xF155, e.machine.v 0,
      e.machine.v 1, e.machine.index, e.machine.dialect.loadStoreIncrementsIndex)) =
      some (true, 7, 234, 0x300, true) := by
    decide +kernel
  have hloads : ((transferHost 7).engines[0]?.map fun e => (e.standsAt 0xF165, e.machine.v 1,
      e.machine.index, e.machine.dialect.loadStoreIncrementsIndex,
      e.machine.memory.byteAt 0x300, e.machine.memory.byteAt 0x301)) =
      some (true, 0, 0x300, true, 7, 234) := by
    decide +kernel
  have hwrites : ((transferHost 8).engines[0]?.map fun e => (e.standsAt 0xF133, e.machine.v 1,
      e.machine.index)) = some (true, 234, 0x302) := by
    decide +kernel
  obtain ⟨e, hp, hword, hknown⟩ := Engine.exists_poised hstores
  obtain ⟨e', hp', hword', hknown'⟩ := Engine.exists_poised hloads
  obtain ⟨e'', hp'', hword'', hknown''⟩ := Engine.exists_poised hwrites
  simp only [Prod.mk.injEq] at hknown hknown' hknown''
  obtain ⟨hv₀, hv₁, hindex, hmoves⟩ := hknown
  obtain ⟨hv', hindex', hmoves', hbyte₀, hbyte₁⟩ := hknown'
  obtain ⟨hv'', hindex''⟩ := hknown''
  have hx : Instruction.XReads e.machine.word 1 := by
    rw [hword]
    rfl
  have hx' : Instruction.XReads e'.machine.word 1 := by
    rw [hword']
    rfl
  have hx'' : Instruction.XReads e''.machine.word 1 := by
    rw [hword'']
    rfl
  obtain ⟨hstore, -⟩ := stored_registers_come_back HostM.perform hp hx (by omega)
  obtain ⟨-, hdigits⟩ := stored_registers_come_back HostM.perform hp'' hx'' (by omega)
  have hupto : ∀ z ≤ (1 : Register), z = 0 ∨ z = 1 := by decide
  have hbytes : ∀ z ≤ (1 : Register), e.OnBytes z z := by
    intro z hz
    rcases hupto z hz with rfl | rfl
    · exact .seen (by omega) (by omega)
    · exact .seen (by omega) (by omega)
  obtain ⟨m, hm, hstored, hload⟩ := hstore (by rw [hword]; decide) (by rw [hindex]; decide) hbytes
  have hkept : ∀ z ≤ (1 : Register), e'.machine.memory.byteAt (e.machine.index + z.val) =
      m.memory.byteAt (e.machine.index + z.val) := by
    intro z hz
    have hbyte := hstored.byteAt_eq z hz
    apply UInt8.toNat_inj.mp
    rw [hindex] at hbyte ⊢
    rcases hupto z hz with rfl | rfl
    · rw [hv₀] at hbyte
      exact (congrArg UInt8.toNat hbyte₀).trans (Int.ofNat_inj.mp hbyte).symm
    · rw [hv₁] at hbyte
      exact (congrArg UInt8.toNat hbyte₁).trans (Int.ofNat_inj.mp hbyte).symm
  obtain ⟨m', hm', hloaded, hsame⟩ := hload _ 0 e' hp' (by rw [hword']; decide) hx'
    (hindex'.trans hindex.symm) hkept
  obtain ⟨m'', hm'', hwritten⟩ := hdigits (by rw [hword'']; decide) (by rw [hindex'']; decide)
    (.seen (by omega) (by omega))
  obtain ⟨d₀, d₁, d₂, h₀, h₁, h₂, hvalue, hd₀, hd₁, hd₂⟩ := hwritten.value_eq
  rw [hv''] at hvalue
  rw [hindex''] at hd₀ hd₁ hd₂
  have hsecond : m'.v 1 = 234 := (hsame 1 (Fin.le_refl 1)).trans hv₁
  refine ⟨⟨e, m, e', m', hm, ?_, hm', hv', hsecond, ?_⟩, e'', m'', hm'', ?_, ?_, ?_⟩
  · rw [hstored.index_eq, Engine.indexBehind, if_pos hmoves, hindex]
    rfl
  · rw [hloaded.index_eq, Engine.indexBehind, if_pos hmoves', hindex']
    rfl
  · omega
  · exact hd₁.trans (by omega)
  · exact hd₂.trans (by omega)

end Chip8
