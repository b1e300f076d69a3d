import Chip8.Proofs.Engine.Step
import Chip8.Proofs.Machine.Halting

/-!
# When a step of an engine halts

What a machine's step reports is what the host is told.

* `stepEngine_halts_iff`: the step of an engine that has not halted reports a
  halt exactly if there is a cause, with the reason of this cause; else it
  continues, or waits for a key.
-/

namespace Chip8

open PatternDigit (any)

namespace Engine

theorem outcome_eq_ok_iff {e : Engine} {status : Status} :
    e.outcome = .ok status ↔ e.reaction.status = .ok status := by
  rw [outcome]
  cases e.reaction.status with
  | ok s => exact ⟨fun h => by cases h; rfl, fun h => by cases h; rfl⟩
  | error value => exact ⟨by rintro ⟨⟩, by rintro ⟨⟩⟩

end Engine

/-- **A step halts for these causes only.**  It waits for a key at a word for that only, and in
every other case it continues.  A word that wants a random byte must get it without a request to the
host. -/
theorem stepEngine_halts_iff {perform : Request → HostM Reply} {h : Host} {c : Nat} {e : Engine}
    (he : h.engines[c]? = some e) (hstarted : e.started = true) (hfree : e.busy = false)
    (hready : Pattern.Matches ⟨0xC, any, any, any⟩ e.machine.word → e.source.IsReady)
    (hrun : e.machine.halted = none) (hrange : e.machine.InRange) :
    (∀ r, (HostM.stepEngine perform c h).1 = .ok (.halted r) ↔ e.machine.HaltCause r) ∧
      ((∀ r, ¬e.machine.HaltCause r) →
        (HostM.stepEngine perform c h).1 = .ok .continue ∨
          (HostM.stepEngine perform c h).1 = .ok .awaitingKey ∧
            Pattern.Matches ⟨0xF, any, 0, 0xA⟩ e.machine.word) := by
  have hquiet : e.Undisturbed := fun _ _ _ ha => hready (Machine.word_of_drawing ha)
  rw [HostM.stepEngine_apply he hstarted hfree hquiet]
  have hstatus (status : Status) :
      e.outcome = .ok status ↔ e.machine.advance.status? = some status :=
    Engine.outcome_eq_ok_iff.trans (Machine.step_status_eq_ok_iff hrun _)
  refine ⟨fun r => ?_, fun hno => ?_⟩
  · rw [hstatus, Machine.advance_halts_iff hrange]
  · rw [hstatus, hstatus]
    exact Machine.advance_status hrange hno

/-- An engine whose program draws the two bytes at the last address of the memory. -/
def spriteAtEnd : Engine :=
  { Engine.fresh Dialect.plain [] none 0 with
    started := true
    machine := { (Machine.fresh Dialect.plain).setIndex 0xFFF with
      memory := ⟨Memory.putCells (Vector.replicate addressSpace 0) 0x200 [0xD0, 0x12]⟩ } }

/-- The second byte of a sprite that begins at the last address halts the program. -/
theorem stepEngine_halts_of_sprite_at_end :
    (HostM.stepEngine HostM.perform 0 { Host.ofFiles ⟨[], []⟩ with engines := #[spriteAtEnd] }).1 =
      .ok (.halted (.addressOutOfRange 0x1000)) := by
  have hsound : ((Machine.fresh Dialect.plain).setIndex 0xFFF).Sound :=
    (Machine.sound_fresh Dialect.plain).setIndex (by decide)
  have hmachine : spriteAtEnd.machine.Sound := hsound.of_eq rfl rfl
  have hready : spriteAtEnd.source.IsReady := fun d hd => nomatch hd
  have hcounter : spriteAtEnd.machine.OnProgram :=
    show (0x200 : Int) ≤ 0x200 ∧ (0x200 : Int) ≤ 0xFFE by decide
  have hword : Pattern.Matches ⟨0xD, any, any, 2⟩ spriteAtEnd.machine.word := by decide +kernel
  have hindex : spriteAtEnd.machine.index = 0xFFF := rfl
  have hcause : spriteAtEnd.machine.HaltCause
      (.addressOutOfRange (spriteAtEnd.machine.index + (2 : Nat) - 1)) :=
    .sprite 2 hcounter hword (by decide) (by rw [hindex]; decide)
  rw [hindex] at hcause
  exact ((stepEngine_halts_iff rfl rfl rfl (fun _ => hready) rfl hmachine.toInRange).1 _).mpr hcause

end Chip8
