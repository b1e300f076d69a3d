import Chip8.Proofs.Engine.Bounds
import Chip8.Proofs.Machine.Arithmetic

/-!
# Steps that leave a byte and a flag

The step of an engine at a sum, a difference or a shift.  Its registers hold bytes,
unless a host has written something else into them.

* `Engine.OnBytes.bytes`: after every history of calls the registers hold bytes.
* `result_and_flag_are_exact`: register and flag register together hold the exact
  value, and nothing else changes.
-/

namespace Chip8

open HostM EngineCall

namespace Engine

/-- Why two registers of an engine hold bytes. -/
inductive OnBytes (e : Engine) (x y : Register) : Prop
  /-- They are seen to. -/
  | seen (ha : 0 ≤ e.machine.v x ∧ e.machine.v x ≤ 255)
    (hb : 0 ≤ e.machine.v y ∧ e.machine.v y ≤ 255)
  /-- Calls have made the engine of a new one, and none of them writes the registers. -/
  | called {dialect : Dialect} {draws : List (Draw Request)} {owner : Option Nat}
    {generation : Int} (calls : List EngineCall)
    (he : e = afterAll (Engine.fresh dialect draws owner generation) calls)

theorem OnBytes.bytes {e : Engine} {x y : Register} (h : e.OnBytes x y) :
    (0 ≤ e.machine.v x ∧ e.machine.v x ≤ 255) ∧ 0 ≤ e.machine.v y ∧ e.machine.v y ≤ 255 := by
  cases h with
  | seen ha hb => exact ⟨ha, hb⟩
  | @called dialect draws owner generation calls he =>
    have hfresh : (Engine.fresh dialect draws owner generation).machine.Sound :=
      Machine.sound_fresh dialect
    have hsound : e.machine.Sound := by
      rw [he]
      exact afterAll_induction (P := fun e => e.machine.Sound)
        (fun _ call hs => sound_after hs call) hfresh calls
    exact ⟨hsound.v_byte x, hsound.v_byte y⟩

end Engine

/-- **Result and flag together are exact.**  Take a step at a sum, a difference or a shift of
registers that hold bytes, in any dialect.  It goes on to the next instruction.  The flag register
then holds the flag, and if the first register is another one, it holds a byte that makes up the
exact value with the flag.  Nothing else changes, but that the instruction is counted and its status
noted. -/
theorem result_and_flag_are_exact (perform : Request → HostM Reply) {h : Host} {c : Nat}
    {e : Engine} (he : h.engines[c]? = some e) (hstarted : e.started = true)
    (hfree : e.busy = false) (hrun : e.machine.halted = none) (hc : e.machine.OnProgram)
    {op : FlagOp} (hw : op.pattern.Matches e.machine.word) {x y : Register}
    (hx : Instruction.XReads e.machine.word x) (hy : Instruction.YReads e.machine.word y)
    (hbytes : e.OnBytes x y) :
    let a := e.machine.v x
    let b := e.machine.v y
    let s := if e.machine.dialect.shiftUsesVy then b else a
    ∃ m, stepEngine perform c h = (.ok .continue, (h.putEngine c
        { e with machine := m, lastStatus := some .continue }).addLines e.fetchLines) ∧
      m.counter = e.machine.counter + 2 ∧
      m.v flagRegister = op.flag a b s ∧
      (x ≠ flagRegister →
        0 ≤ m.v x ∧ m.v x ≤ 255 ∧ op.Exact a b s (m.v x) (m.v flagRegister)) ∧
      (∀ z, z ≠ x → z ≠ flagRegister → m.v z = e.machine.v z) ∧
      m.index = e.machine.index ∧
      m = { e.machine with registers := m.registers, completed := e.machine.completed + 1 } := by
  intro a b s
  obtain ⟨ha, hb⟩ := hbytes.bytes
  obtain ⟨r, flag, hadvance, hr, hflag, hexact⟩ := Machine.advance_flagOp hc hw hx hy ha hb
  have hquiet : e.Undisturbed := Engine.undisturbed_of_completed hadvance
  have hreaction : e.reaction = _ := Machine.step_of_completed hrun hadvance e.source.nextByte
  have hstep : stepEngine perform c h = (.ok .continue, (h.putEngine c { e with
      machine := (e.machine.passed.setWithFlag x r flag).count
      lastStatus := some .continue }).addLines e.fetchLines) := by
    rw [stepEngine_apply he hstarted hfree hquiet, Engine.stepped, Engine.outcome, Engine.stepLines,
      hrun, hreaction]
    simp only [List.append_nil]
    rfl
  have hv (z : Register) : (e.machine.passed.setWithFlag x r flag).count.v z =
      if flagRegister = z then (if flag then 1 else 0) else if x = z then r else e.machine.v z :=
    Machine.v_setWithFlag e.machine.passed x z r flag
  have hvf : (e.machine.passed.setWithFlag x r flag).count.v flagRegister = op.flag a b s := by
    rw [hv, if_pos rfl]
    exact hflag
  refine ⟨_, hstep, rfl, hvf, fun hne => ?_, fun z hzx hzf => ?_, rfl, rfl⟩
  · rw [hvf, hv, if_neg (Ne.symm hne), if_pos rfl]
    exact ⟨hr.1, hr.2, hexact⟩
  · rw [hv, if_neg (Ne.symm hzf), if_neg (Ne.symm hzx)]

/-- Calls that bring a new engine up to `V0 := V0 + VF`, with 100 and 200 in the registers. -/
def carryCalls : List EngineCall :=
  [.load [0x6F, 0xC8, 0x60, 0x64, 0x80, 0xF4] "CARRY", .start, .step, .key 5 true, .step]

def carryHost : Host :=
  hostAfter .plain carryCalls

/-- The flag register is read as an operand before it takes the carry. -/
theorem result_and_flag_are_exact_of_carry : ∃ e m, carryHost.engines[0]? = some e ∧
    stepEngine perform 0 carryHost = (.ok .continue, (carryHost.putEngine 0
      { e with machine := m, lastStatus := some .continue }).addLines e.fetchLines) ∧
    m.counter = 0x206 ∧ m.v flagRegister = 1 ∧ 100 + 200 = 256 * 1 + m.v firstRegister := by
  have hstate : (carryHost.engines[0]?.map fun e => (e.started, e.busy, e.machine.halted)) =
      some (true, false, none) := by decide +kernel
  have hregisters : (carryHost.engines[0]?.map fun e =>
      (e.machine.counter, e.machine.word, e.machine.v firstRegister, e.machine.v flagRegister)) =
      some (0x204, 0x80F4, 100, 200) := by decide +kernel
  obtain ⟨e, he, hstate⟩ := Option.map_eq_some_iff.mp hstate
  rw [he, Option.map_some, Option.some_inj] at hregisters
  simp only [Prod.mk.injEq] at hstate hregisters
  obtain ⟨hstarted, hfree, hrun⟩ := hstate
  obtain ⟨hcounter, hword, hfirst, hflag⟩ := hregisters
  have hc : e.machine.OnProgram := by
    rw [Machine.OnProgram, hcounter]
    decide
  have hpattern : FlagOp.add.pattern.Matches e.machine.word := by
    rw [hword]
    decide
  have hx : Instruction.XReads e.machine.word firstRegister := by
    rw [hword]
    rfl
  have hy : Instruction.YReads e.machine.word flagRegister := by
    rw [hword]
    rfl
  have hfresh : (newHost .plain []).engines[0]? = some (Engine.fresh Dialect.plain [] none 0) := rfl
  have hplain : (Engine.fresh Dialect.plain [] none 0).source.IsPlain :=
    fun d hd => absurd hd List.not_mem_nil
  have hlast : carryHost.engines[0]? =
      some (afterAll (Engine.fresh Dialect.plain [] none 0) carryCalls) := by
    rw [carryHost, hostAfter]
    exact (engines_makeAll hfresh ⟨rfl, hplain⟩ carryCalls).1
  have hbytes : e.OnBytes firstRegister flagRegister :=
    .called carryCalls (Option.some.inj (he.symm.trans hlast))
  obtain ⟨m, hstep, hnext, hcarry, hexact, -⟩ :=
    result_and_flag_are_exact perform he hstarted hfree hrun hc hpattern hx hy hbytes
  have hcarry : m.v flagRegister = 1 := by
    rw [hcarry, hfirst, hflag]
    rfl
  obtain ⟨-, -, hsum⟩ := hexact (by decide)
  rw [hcarry, hfirst, hflag] at hsum
  exact ⟨e, m, he, hstep, by rw [hnext, hcounter]; rfl, hcarry, hsum⟩

end Chip8
