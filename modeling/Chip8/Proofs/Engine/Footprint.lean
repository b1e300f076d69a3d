import Chip8.Proofs.Engine.Halting
import Chip8.Proofs.Engine.Instructions
import Chip8.Proofs.Host.FailedDraw
import Chip8.Proofs.Machine.Footprint

/-!
# What the step of an engine may change

The step of an engine changes its machine within the footprint of the word at the
counter, unless it halts the program, and it takes a number from the source of the
engine if the word wants one.  Where the host has a request to perform before the
number is given, it is the engine that the request has left which is changed in this
way, and the number has been taken before the request.

* `goes_on`: what is known of an engine whose step does not halt the program.
* `steps_stay_within_footprint`: the step, with and without such a request.
-/

namespace Chip8

open PatternDigit (any)

namespace Engine

variable {e : Engine}

theorem stepLines_of_goes (hrun : e.machine.halted = none)
    (hgoes : ∀ r, e.reaction.status ≠ .ok (.halted r)) : e.stepLines = e.fetchLines := by
  rw [stepLines, hrun]
  dsimp only
  split
  · next r hr => exact absurd hr (hgoes r)
  · exact List.append_nil _

theorem stepped_eq_of_drew {p : Prop} [Decidable p] (hdrew : e.reaction.drew = true ↔ p) :
    e.stepped = { e with
      machine := e.reaction.machine
      source := if p then e.source.advance else e.source
      lastStatus := e.stepped.lastStatus } := by
  have hsource : (if e.reaction.drew = true then e.source.advance else e.source) =
      if p then e.source.advance else e.source := by simp only [hdrew]
  rw [← hsource, stepped]
  cases e.outcome <;> rfl

end Engine

namespace HostM

variable {perform : Request → HostM Reply} {h : Host} {c : Nat} {e : Engine}

/-- An engine whose step does not halt the program has not halted, and there is nothing at the
counter that halts it. -/
theorem goes_on (he : h.engines[c]? = some e) (hstarted : e.started = true)
    (hfree : e.busy = false) (hgoes : ∀ r, (stepEngine perform c h).1 ≠ .ok (.halted r)) :
    ∀ byte r, (e.machine.step byte).status ≠ .ok (.halted r) := by
  intro byte r hhalts
  refine hgoes r ?_
  cases hrun : e.machine.halted with
  | some r' =>
    rw [Machine.step_of_isHalted hrun] at hhalts
    cases hhalts
    rw [stepEngine_of_isHalted he hstarted hfree hrun]
  | none =>
    rcases stepEngine_of_free he hstarted hfree with halone | ⟨-, -, m, x, mask, ha⟩
    · -- Whether the program halts does not depend on the random byte.
      rw [halone, Engine.outcome_eq_ok_iff, Engine.reaction, Machine.step_status_eq_ok_iff hrun]
      exact (Machine.step_status_eq_ok_iff hrun byte).mp hhalts
    · rw [Machine.step_of_drawing hrun ha] at hhalts
      cases hhalts

theorem engines_byteOf {r : Request} {value : Int} (h : Host) :
    (byteOf perform (some ⟨some r, value⟩) h).2.engines = (perform r h).2.engines := by
  rcases hr : perform r h with ⟨refusal | a, h'⟩
  · have hbyte : byteOf perform (some ⟨some r, value⟩) h = (.error refusal, h') :=
      bind_of_error hr _
    rw [hbyte]
  · have hbyte : byteOf perform (some ⟨some r, value⟩) h =
        (.ok (UInt8.ofInt value), { h' with notes := h'.notes.push (.reply a) }) :=
      bind_of_ok hr _
    rw [hbyte]

theorem exists_closed {drawn : Except Refusal UInt8}
    (hgoes : ∀ r, Engine.drawOutcome drawn ≠ .ok (.halted r)) (e : Engine) (x : Register)
    (mask : Nat) (counter : Int) :
    ∃ lastStatus, e.closed x mask counter drawn =
      { e with
        machine := Engine.drawMachine e.machine x mask counter drawn
        busy := false
        lastStatus } := by
  cases drawn with
  | ok byte => exact ⟨_, rfl⟩
  | error refusal =>
    cases refusal with
    | halting reason => exact absurd rfl (hgoes reason)
    | _ => exact ⟨e.lastStatus, rfl⟩

end HostM

/-- A number that comes, or is refused without a halt, stays within the footprint of a word that
wants one. -/
theorem Machine.Footprint.drawMachine {w : Nat} {completed : Prop} {m m' : Machine}
    (h : Machine.Footprint w completed m m') {drawn : Except Refusal UInt8}
    (hgoes : ∀ r, Engine.drawOutcome drawn ≠ .ok (.halted r)) {x : Register} {mask : Nat}
    (hreads : (Instruction.random x mask).Reads w) (counter : Int) :
    Machine.Footprint w completed m (Engine.drawMachine m' x mask counter drawn) := by
  cases drawn with
  | ok byte => exact h.supply hreads byte
  | error refusal =>
    cases refusal with
    | halting reason => exact absurd rfl (hgoes reason)
    | _ => exact h

/-- **A step stays within the footprint of its word.**  Take a step of an engine that does not halt
the program.  If the word at the counter wants no random number, or if no request of the host comes
before the number, the step changes the machine within the footprint of the word.  One number is
taken if the word wants one, and none otherwise; of everything else only the last status and the
reports of the fetch are new.  If a request comes before the number, the number is taken first, and
then the engine that the request has left is changed within the footprint. -/
theorem steps_stay_within_footprint {perform : Request → HostM Reply} {h : Host} {c : Nat}
    {e : Engine} (he : h.engines[c]? = some e) (hstarted : e.started = true)
    (hfree : e.busy = false)
    (hgoes : ∀ r, (HostM.stepEngine perform c h).1 ≠ .ok (.halted r)) :
    ((Pattern.Matches ⟨0xC, any, any, any⟩ e.machine.word → e.source.IsReady) →
      ∃ m lastStatus,
        (HostM.stepEngine perform c h).2 = (h.putEngine c { e with
          machine := m
          source := if Pattern.Matches ⟨0xC, any, any, any⟩ e.machine.word then e.source.advance
            else e.source
          lastStatus }).addLines e.fetchLines ∧
        Machine.Footprint e.machine.word ((HostM.stepEngine perform c h).1 = .ok .continue)
          e.machine m) ∧
    ∀ r value e', Pattern.Matches ⟨0xC, any, any, any⟩ e.machine.word →
      e.source.next? = some ⟨some r, value⟩ →
      (perform r (h.halfway c e)).2.engines[c]? = some e' →
      ∃ m lastStatus,
        (HostM.stepEngine perform c h).2.engines[c]? = some { e' with
          machine := m, busy := false, lastStatus } ∧
        Machine.Footprint e.machine.word ((HostM.stepEngine perform c h).1 = .ok .continue)
          e'.machine m := by
  have hgoes' := HostM.goes_on he hstarted hfree hgoes
  have hrun := Machine.running_of_goes (hgoes' 0)
  constructor
  · intro hready
    have hquiet : e.Undisturbed := by
      intro m x mask ha
      exact hready (Machine.reads_of_drawing ha).1
    have hstep : HostM.stepEngine perform c h = _ :=
      HostM.stepEngine_apply he hstarted hfree hquiet
    have hfootprint := Machine.footprint_step (hgoes' e.source.nextByte)
    have hdrew := Machine.drew_step_iff (hgoes' e.source.nextByte)
    rw [hstep]
    refine ⟨e.reaction.machine, e.stepped.lastStatus, ?_, ?_⟩
    · rw [Engine.stepLines_of_goes hrun (hgoes' _), Engine.stepped_eq_of_drew hdrew]
    · exact hfootprint.mono fun hdone => Engine.outcome_eq_ok_iff.mpr hdone
  · intro r value e' hw hnext he'
    obtain ⟨m, x, mask, ha⟩ := Machine.exists_drawing (Machine.onProgram_of_goes (hgoes' 0)) hw
    rcases hdraw : HostM.byteOf perform e.source.next? (h.halfway c e) with ⟨drawn, h'⟩
    have hleft : h'.engines[c]? = some e' := by
      rw [hnext] at hdraw
      rw [← he', ← HostM.engines_byteOf, hdraw]
    rw [← HostM.drawByte_opened perform he] at hdraw
    rw [HostM.stepEngine_of_drawing he hstarted hfree hrun ha hdraw hleft] at hgoes ⊢
    obtain ⟨lastStatus, hclosed⟩ := HostM.exists_closed hgoes e' x mask e.machine.counter
    rw [hclosed]
    refine ⟨_, lastStatus, Host.engines_putEngine hleft, ?_⟩
    exact (Machine.Footprint.refl _ _ _).drawMachine hgoes (Machine.reads_of_drawing ha) _

/-- Calls that bring a new engine up to an instruction that stores two registers. -/
def storingCalls : List EngineCall :=
  [.load [0x61, 0x05, 0xA3, 0x00, 0xF1, 0x55] "STORE", .start, .step, .step]

/-- The host of `storingCalls`, in the dialect in which a transfer moves the index register. -/
def storingHost : Host :=
  hostAfter { Dialect.plain with loadStoreIncrementsIndex := true } storingCalls

/-- A step that stores two registers changes two bytes and no register.  A step whose request is
refused takes its number all the same, and leaves the memory as the request has left it. -/
theorem steps_stay_within_footprint_of_store :
    (∃ e e', storingHost.engines[0]? = some e ∧
      (HostM.stepEngine HostM.perform 0 storingHost).2.engines[0]? = some e' ∧
      (∀ a, a < 0x300 ∨ 0x301 < a → e'.machine.memory.byteAt a = e.machine.memory.byteAt a) ∧
      (∀ z, e'.machine.v z = e.machine.v z) ∧ e'.source = e.source) ∧
    ∃ e', (HostM.stepEngine (HostM.performWithin 9) 0 keyedHost).2.engines[0]? = some e' ∧
      (∀ a, e'.machine.memory.byteAt a = keyedEngine.machine.memory.byteAt a) ∧
      e'.source = keyedEngine.source.advance := by
  constructor
  · have hstate : (storingHost.engines[0]?.map fun e => (e.standsAt 0xF155, e.machine.index)) =
        some (true, 0x300) := by
      decide +kernel
    obtain ⟨e, hp, hword, hindex⟩ := Engine.exists_poised hstate
    have hcontinues : (HostM.stepEngine HostM.perform 0 storingHost).1.toOption =
        some .continue := by
      decide +kernel
    have hgoes : ∀ r, (HostM.stepEngine HostM.perform 0 storingHost).1 ≠ .ok (.halted r) := by
      intro r hr
      rw [hr] at hcontinues
      cases hcontinues
    obtain ⟨halone, -⟩ := steps_stay_within_footprint hp.engine_eq hp.started hp.free hgoes
    rw [hword] at halone
    have hnumber : ¬Pattern.Matches ⟨0xC, any, any, any⟩ 0xF155 := by decide
    obtain ⟨m, lastStatus, hhost, hfootprint⟩ := halone fun hw => absurd hw hnumber
    rw [if_neg hnumber] at hhost
    refine ⟨e, { e with machine := m, lastStatus }, hp.engine_eq, ?_, ?_, ?_, rfl⟩
    · rw [hhost]
      exact Host.engines_putEngine_addLines hp.engine_eq _ _
    · intro a ha
      refine hfootprint.byteAt_eq a ?_
      intro hwrites
      rw [hindex] at hwrites
      cases hwrites with
      | digit hw hfirst hlast => exact absurd hw (by decide)
      | store hw hx hfirst hlast =>
        rw [show _ = 1 from hx] at hlast
        omega
    · intro z
      refine hfootprint.v_eq z ?_
      intro hwrites
      obtain ⟨p, hp, hw⟩ := hwrites.mem_writers
      exact absurd hw ((by decide : ∀ p ∈ Instruction.registerWriters, ¬p.Matches 0xF155) p hp)
  · have hcurrent : keyedHost.current = some 0 := by decide +kernel
    have hengine : keyedEngine.started = true ∧ keyedEngine.busy = false ∧
        keyedEngine.machine.word = 0xC0FF := by
      decide +kernel
    obtain ⟨hstarted, hfree, hword⟩ := hengine
    have he : keyedHost.engines[0]? = some keyedEngine := (Option.some_get _).symm
    have hrefused : (HostM.stepEngine (HostM.performWithin 9) 0 keyedHost).1.toOption = none := by
      decide +kernel
    have hgoes : ∀ r,
        (HostM.stepEngine (HostM.performWithin 9) 0 keyedHost).1 ≠ .ok (.halted r) := by
      intro r hr
      rw [hr] at hrefused
      cases hrefused
    obtain ⟨-, hrequest⟩ := steps_stay_within_footprint he hstarted hfree hgoes
    have hkey := HostM.performWithin_key_of_busy (h := keyedHost.halfway 0 keyedEngine) hcurrent
      (Host.engines_halfway he) rfl 8 5 true
    rw [hword] at hrequest
    obtain ⟨m, lastStatus, hleft, hfootprint⟩ := hrequest (.key 5 true) 7 _ (by decide) (by rfl)
      (by rw [hkey]; exact Host.engines_halfway he)
    refine ⟨_, hleft, ?_, rfl⟩
    intro a
    refine hfootprint.byteAt_eq a ?_
    intro hwrites
    cases hwrites with
    | digit hw hfirst hlast => exact absurd hw (by decide)
    | store hw hx hfirst hlast => exact absurd hw (by decide)

end Chip8
