import Chip8.Proofs.Engine.Calls
import Chip8.Proofs.Machine.Sound

/-!
# Bounds that every history keeps

An engine whose registers no host writes keeps its machine within fixed bounds,
whatever program it runs and however its steps are mixed with ticks, keys and
writes into the memory.  Its steps are never refused once it has been started.

* `bounded_of_sound`: the bounds follow from what programs keep.
* `bounds_after_calls`: they hold after every history of a new engine, and the
  next step reports a status.
-/

namespace Chip8

/-- The values that the parts of a machine have. -/
structure Machine.Bounded (m : Machine) : Prop where
  registers : m.registers.v.toList.length = 16 ∧ ∀ v ∈ m.registers.v.toList, 0 ≤ v ∧ v ≤ 255
  index : 0 ≤ m.index ∧ m.index ≤ 0xFFFF
  counter : 0 ≤ m.counter ∧ m.counter ≤ 0x10FE
  stack : m.stack.toList.length ≤ 16 ∧ ∀ a ∈ m.stack.toList, 0x202 ≤ a ∧ a ≤ 0x1000
  memory : m.memory.bytes.length = 4096
  picture : m.display.grid.toList.length = 32 ∧
    ∀ row ∈ m.display.grid.toList, (Display.rowPixels row).length = 64
  timers : m.timers.delay.toNat ≤ 255 ∧ m.timers.sound.toNat ≤ 255

theorem bounded_of_sound {m : Machine} (h : m.Sound) : m.Bounded where
  registers := by
    refine ⟨Vector.length_toList, fun v hv => ?_⟩
    obtain ⟨i, hi, rfl⟩ := List.getElem_of_mem hv
    rw [Vector.length_toList] at hi
    exact h.v_byte ⟨i, hi⟩
  index := h.index_word
  counter := h.counter_bounds
  stack := by
    have hpointer : (m.stack.entries.length : Int) ≤ 16 := h.pointer_le
    refine ⟨?_, fun a ha => h.returns a (List.mem_reverse.mp ha)⟩
    rw [CallStack.toList, List.length_reverse]
    omega
  memory := Vector.length_toList
  picture := by
    refine ⟨Vector.length_toList, fun row _ => ?_⟩
    rw [Display.rowPixels, List.length_map, List.length_range]
  timers := by
    have hdelay := m.timers.delay.toNat_lt
    have hsound := m.timers.sound.toNat_lt
    omega

namespace EngineCall

variable {e : Engine}

theorem sound_after (h : e.machine.Sound) (call : EngineCall) : (after e call).machine.Sound := by
  by_cases hcall : call = .step
  · rw [hcall, after]
    split
    · obtain ⟨source, lastStatus, heq⟩ := e.stepped_eq
      rw [heq]
      exact (h.step _).1
    · exact h
  · obtain ⟨_, _, _, hmachine⟩ := machine_after_of_ne_step e hcall
    rw [hmachine]
    exact h.of_eq rfl rfl

end EngineCall

open EngineCall

/-- **A new engine stays within its bounds** through every history of calls, and once it has been
started its next step reports a status. -/
theorem bounds_after_calls {perform : Request → HostM Reply} {h : Host} {c : Nat}
    {dialect : Dialect} {draws : List (Draw Request)} {owner : Option Nat} {generation : Int}
    (he : h.engines[c]? = some (Engine.fresh dialect draws owner generation))
    (hdraws : ∀ d ∈ draws, d.before = none) (calls : List EngineCall) :
    ∃ e, (makeAll perform c calls h).2.engines[c]? = some e ∧ e.machine.Bounded ∧
      (e.started = true → ∃ status,
        (HostM.stepEngine perform c (makeAll perform c calls h).2).1 = .ok status) := by
  obtain ⟨hlast, halone⟩ := engines_makeAll he ⟨rfl, hdraws⟩ calls
  have hfresh : (Engine.fresh dialect draws owner generation).machine.Sound :=
    Machine.sound_fresh dialect
  have hsound : (afterAll (Engine.fresh dialect draws owner generation) calls).machine.Sound :=
    afterAll_induction (P := fun e => e.machine.Sound) (fun _ call hs => sound_after hs call)
      hfresh calls
  refine ⟨_, hlast, bounded_of_sound hsound, fun hstarted => ?_⟩
  obtain ⟨-, status, hstatus⟩ := hsound.step
    (afterAll (Engine.fresh dialect draws owner generation) calls).source.nextByte
  refine ⟨status, ?_⟩
  have hquiet := Engine.undisturbed_of_isPlain halone.plain
  rw [HostM.stepEngine_apply hlast hstarted halone.free hquiet]
  show Except.mapError _ _ = _
  rw [Engine.reaction, hstatus]
  rfl

/-- The bounds after a jump with an offset past the end of the memory, which halts the program. -/
theorem bounds_after_calls_of_far_jump :
    let h := (makeAll HostM.perform 0
      [.load [0x6F, 0xFF, 0x80, 0xF0, 0xBF, 0xFF] "FAR", .start, .step, .tick, .step, .key 3 true,
        .poke 0xFFF [1, 2], .step, .step] (newHost .plain [⟨none, 7⟩])).2
    ∃ e, h.engines[0]? = some e ∧ e.machine.Bounded ∧
      (e.started = true → ∃ status, (HostM.stepEngine HostM.perform 0 h).1 = .ok status) :=
  bounds_after_calls (h := newHost .plain [⟨none, 7⟩]) rfl (by simp) _

end Chip8
