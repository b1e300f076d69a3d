import Chip8.Proofs.Engine.Calls
import Chip8.Proofs.Instruction.Patterns

/-!
# Steps that complete an instruction

An engine is poised if its next step carries out the word at the counter: it has been
started, it is free, and its program has not halted.  If the instruction of the word
is completed, the step of the engine goes on, notes its status and the lines that it
leaves, and does nothing else.

* `Poised.completes`: the step of an engine, from what the instruction does.
-/

namespace Chip8

/-- The engine of the host will carry out the word at its counter. -/
structure Engine.Poised (e : Engine) (h : Host) (c : Nat) : Prop where
  engine_eq : h.engines[c]? = some e
  started : e.started = true
  free : e.busy = false
  running : e.machine.halted = none
  onProgram : e.machine.OnProgram

/-- The step of the engine goes on with this machine, and does nothing else. -/
def HostM.Completes (perform : Request → HostM Reply) (h : Host) (c : Nat) (e : Engine)
    (m : Machine) : Prop :=
  stepEngine perform c h = (.ok .continue, (h.putEngine c
    { e with machine := m, lastStatus := some .continue }).addLines e.fetchLines)

theorem Host.engines_putEngine_addLines {h : Host} {c : Nat} {e : Engine}
    (he : h.engines[c]? = some e) (e' : Engine) (lines : List LogLine) :
    ((h.putEngine c e').addLines lines).engines[c]? = some e' :=
  Host.engines_putEngine he

namespace Engine

variable {perform : Request → HostM Reply} {h : Host} {c : Nat} {e : Engine} {m : Machine}
  {i : Instruction}

theorem Poised.advance_eq (hp : e.Poised h c) (hi : i.Reads e.machine.word) :
    e.machine.advance = e.machine.passed.execute i :=
  Machine.advance_of_decode hp.onProgram (Instruction.decode_of_reads e.machine.word_lt hi)

/-- **The step of an engine that is poised** completes its instruction. -/
theorem Poised.completes (hp : e.Poised h c) (hi : i.Reads e.machine.word)
    (hx : e.machine.passed.execute i = .completed m) : HostM.Completes perform h c e m.count := by
  have hadvance : e.machine.advance = .completed m := (hp.advance_eq hi).trans hx
  have hquiet : e.Undisturbed := undisturbed_of_completed hadvance
  have hreaction : e.reaction = _ :=
    Machine.step_of_completed hp.running hadvance e.source.nextByte
  rw [HostM.Completes, HostM.stepEngine_apply hp.engine_eq hp.started hp.free hquiet, stepped,
    outcome, stepLines, hp.running, hreaction]
  simp only [List.append_nil]
  rfl

/-- The next step of the engine carries out this word. -/
def standsAt (e : Engine) (word : Nat) : Bool :=
  e.started && !e.busy && e.machine.halted.isNone && decide e.machine.OnProgram &&
    e.machine.word == word

theorem exists_poised {α : Type} {f : Engine → α} {a : α} {word : Nat}
    (hstate : (h.engines[c]?.map fun e => (e.standsAt word, f e)) = some (true, a)) :
    ∃ e : Engine, e.Poised h c ∧ e.machine.word = word ∧ f e = a := by
  obtain ⟨e, he, hstate⟩ := Option.map_eq_some_iff.mp hstate
  obtain ⟨hstands, ha⟩ := Prod.mk.inj hstate
  simp only [standsAt, Bool.and_eq_true, Bool.not_eq_true', Option.isNone_iff_eq_none,
    decide_eq_true_eq, beq_iff_eq] at hstands
  obtain ⟨⟨⟨⟨hstarted, hfree⟩, hrun⟩, hc⟩, hword⟩ := hstands
  exact ⟨e, ⟨he, hstarted, hfree, hrun, hc⟩, hword, ha⟩

end Engine

end Chip8
