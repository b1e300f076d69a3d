import Chip8.Proofs.Engine.Lifecycle
import Chip8.Proofs.Host.Asks
import Chip8.Proofs.Host.Reachable
import Chip8.Proofs.Machine.Footprint

/-!
# Steps that get no random number

A step that wants a random number waits for it in the middle of the instruction, with
the counter already past it.  If the request before the number is refused, so is the
step.  A refusal that is a reason to halt puts the counter back; every other one
leaves it where it is, so that the instruction is neither carried out nor met again.

* `stepEngine_of_failed_draw`: the step, for both kinds of refusal.
* `failed_draw_skips_instruction`: what is left of the engine.
-/

namespace Chip8

open PatternDigit (any)

namespace HostM

variable {perform : Request → HostM Reply} {h h' : Host} {c : Nat} {e e' : Engine} {r : Request}
  {value : Int} {refusal : Refusal}

/-- **A step whose number is refused** ends with the engine that the request has left. -/
theorem stepEngine_of_failed_draw (he : h.engines[c]? = some e) (hstarted : e.started = true)
    (hfree : e.busy = false) (hrun : e.machine.halted = none) {m : Machine} {x : Register}
    {mask : Nat} (ha : e.machine.advance = .drawing m x mask)
    (hnext : e.source.next? = some ⟨some r, value⟩)
    (hrefused : perform r (h.halfway c e) = (.error refusal, h'))
    (he' : h'.engines[c]? = some e') :
    stepEngine perform c h =
      (Engine.drawOutcome (.error refusal),
        (h'.putEngine c (e'.closed x mask e.machine.counter (.error refusal))).addLines
          (Engine.drawLines e.machine.counter (.error refusal))) := by
  refine stepEngine_of_drawing he hstarted hfree hrun ha ?_ he'
  rw [drawByte_opened perform he, hnext]
  exact bind_of_error hrefused _

end HostM

/-- **A step that is refused its random number is not undone.**  Take a step at a word that wants a
random number, and let the request before the number be refused.  If the refusal is no reason to
halt, the step is refused with it and leaves the engine as the request has left it, but free: a
request that has left everything alone leaves the engine as it was before the step, with the counter
behind the instruction and one number less.  If it is a reason to halt, the step halts the program
at the instruction.  In both cases the instruction is not counted. -/
theorem failed_draw_skips_instruction {perform : Request → HostM Reply}
    [HostM.KeepsRequests perform] {h h' : Host} {c : Nat} {e : Engine}
    (he : h.engines[c]? = some e) (hstarted : e.started = true) (hfree : e.busy = false)
    (hrun : e.machine.halted = none) (hc : e.machine.OnProgram)
    (hw : Pattern.Matches ⟨0xC, any, any, any⟩ e.machine.word) {r : Request} {value : Int}
    (hnext : e.source.next? = some ⟨some r, value⟩) {refusal : Refusal}
    (hrefused : perform r (h.halfway c e) = (.error refusal, h')) :
    ∃ e', h'.engines[c]? = some e' ∧ e'.machine.completed = e.machine.completed ∧
      ((∀ reason, refusal ≠ .halting reason) →
        HostM.stepEngine perform c h = (.error refusal, h'.putEngine c (e'.marked false)) ∧
        (h' = h.halfway c e → e'.marked false = { e with
          machine := e.machine.setCounter (e.machine.counter + 2)
          source := e.source.advance })) ∧
      ∀ reason, refusal = .halting reason →
        HostM.stepEngine perform c h = (.ok (.halted reason), (h'.putEngine c { e' with
          machine := e'.machine.halt e.machine.counter reason
          busy := false
          lastStatus := some (.halted reason) }).addLines
            [Engine.haltLine e.machine.counter reason]) := by
  obtain ⟨m, x, mask, ha⟩ := Machine.exists_drawing hc hw
  have hengines : EnginesFollow (h.halfway c e).engines
      (perform r (h.halfway c e)).2.engines := HostM.KeepsRequests.engines r _
  rw [hrefused] at hengines
  obtain ⟨e', he', hfollows⟩ := hengines.kept (Host.engines_halfway he)
  have hstep := HostM.stepEngine_of_failed_draw he hstarted hfree hrun ha hnext hrefused he'
  refine ⟨e', he', (hfollows.held rfl).completed_eq, fun hnot => ⟨?_, ?_⟩, ?_⟩
  · rw [hstep]
    cases refusal with
    | halting reason => exact absurd rfl (hnot reason)
    | _ => exact congrArg (Prod.mk _) (Host.addLines_nil _)
  · rintro rfl
    rw [Host.engines_halfway he] at he'
    obtain rfl := Option.some.inj he'
    exact congrArg (fun busy => { e with
      machine := e.machine.passed, source := e.source.advance, busy }) hfree.symm
  · rintro reason rfl
    exact hstep

theorem HostM.performWithin_key_of_busy {h : Host} {c : Nat} {e : Engine}
    (hcurrent : h.current = some c) (he : h.engines[c]? = some e) (hbusy : e.busy = true)
    (depth : Nat) (code : Int) (down : Bool) :
    performWithin (depth + 1) (.key code down) h = (.error (.busy .changeKeys), h) := by
  have hkey : setKey c code down h = (.error (.busy .changeKeys), h) :=
    exclusive_of_busy he hbusy _ _
  rw [performWithin, respond, bind_of_ok (currentEngine_apply hcurrent)]
  exact bind_of_error hkey _

/-- A host with an engine whose next step takes a random number, before which the host wants to
press a key of the same engine. -/
def keyedHost : Host :=
  ((Host.ofFiles ⟨[], []⟩).play [
    .newEngine [] [⟨some (.key 5 true), 7⟩] 0, .loadRom [0xC0, 0xFF, 0x12, 0x00] "DRAW",
    .start]).2

def keyedEngine : Engine :=
  keyedHost.engines[0]?.get (by decide +kernel)

/-- The key is refused and with it the step, and the next step is at the jump behind the word. -/
theorem failed_draw_skips_instruction_of_key :
    ∃ e', HostM.stepEngine (HostM.performWithin 9) 0 keyedHost =
        (.error (.busy .changeKeys), (keyedHost.halfway 0 keyedEngine).putEngine 0 e') ∧
      e' = { keyedEngine with
        machine := keyedEngine.machine.setCounter 0x202
        source := keyedEngine.source.advance } := by
  have he : keyedHost.engines[0]? = some keyedEngine := (Option.some_get _).symm
  have hcurrent : keyedHost.current = some 0 := by decide +kernel
  have hengine : keyedEngine.started = true ∧ keyedEngine.busy = false ∧
      keyedEngine.machine.halted = none ∧ keyedEngine.machine.counter = 0x200 ∧
      keyedEngine.machine.word = 0xC0FF := by decide +kernel
  obtain ⟨hstarted, hfree, hrun, hcounter, hword⟩ := hengine
  have hnext : keyedEngine.source.next? = some ⟨some (.key 5 true), 7⟩ := by rfl
  have hc : keyedEngine.machine.OnProgram := by
    rw [Machine.OnProgram, hcounter]
    decide
  have hw : Pattern.Matches ⟨0xC, any, any, any⟩ keyedEngine.machine.word := by
    rw [hword]
    decide
  have hrefused := HostM.performWithin_key_of_busy (h := keyedHost.halfway 0 keyedEngine)
    hcurrent (Host.engines_halfway he) rfl 8 5 true
  obtain ⟨e', -, -, hstep, -⟩ :=
    failed_draw_skips_instruction he hstarted hfree hrun hc hw hnext hrefused
  obtain ⟨hskipped, hleft⟩ := hstep (by intro reason hreason; cases hreason)
  rw [hcounter] at hleft
  exact ⟨e'.marked false, hskipped, hleft rfl⟩

/-- **The program goes on behind the word** whose random number has been refused.  The refused step
leaves the counter at the jump that follows, and the step after it carries out this jump. -/
theorem failed_draw_is_not_repeated :
    (HostM.stepEngine (HostM.performWithin 9) 0 keyedHost).1.toOption = none ∧
      ((HostM.stepEngine (HostM.performWithin 9) 0 keyedHost).2.engines[0]?.map fun e =>
        (e.machine.counter, e.machine.completed)) = some (0x202, 0) ∧
      ((HostM.stepEngine (HostM.performWithin 9) 0
        (HostM.stepEngine (HostM.performWithin 9) 0 keyedHost).2).2.engines[0]?.map fun e =>
          (e.machine.counter, e.machine.completed)) = some (0x200, 1) := by
  decide +kernel

end Chip8
