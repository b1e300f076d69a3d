import Chip8.Proofs.Engine.Calls
import Chip8.Proofs.Engine.Halting
import Chip8.Proofs.Host.Reachable
import Chip8.Proofs.Machine.Report

/-!
# A halt is final

A step that halts the program changes nothing in the engine but that the program
has halted, and after it every step reports the same halt.  A step that waits for
a key empties the latch of the keypad and marks that the program waits.  Only
steps that continue count, and each of them counts as one instruction.

The random numbers come from outside, and a request of the host may wait before
each of them.  What is said here is that the program itself halts; so the source
must not refuse a number for a reason to halt, which a plain source never does.

* `stepEngine_of_halts`, `stepEngine_of_awaits`: what a step has done that reports
  a halt or a wait.
* `completed_makeAll`: the instructions that a history of calls completes.
* `halting_is_final`: all of it for one engine.
-/

namespace Chip8

theorem Engine.stepped_of_reaction {e : Engine} {m : Machine} {status : Status}
    (h : e.reaction = ⟨m, .ok status, false⟩) :
    e.stepped = { e with machine := m, lastStatus := some status } := by
  rw [Engine.stepped, Engine.outcome, h]
  rfl

/-! ### Sources of random numbers -/

/-- No request that waits before a number is refused for a reason to halt. -/
def RandomSource.NeverHalts (perform : Request → HostM Reply) (s : RandomSource) : Prop :=
  ∀ d ∈ s.draws, ∀ r, d.before = some r → ∀ h reason, (perform r h).1 ≠ .error (.halting reason)

theorem RandomSource.IsPlain.neverHalts {s : RandomSource} (hs : s.IsPlain)
    (perform : Request → HostM Reply) : s.NeverHalts perform := by
  intro d hd r hr
  rw [hs d hd] at hr
  cases hr

/-! ### Steps of an engine -/

theorem completed_stepped (e : Engine) :
    e.stepped.machine.completed =
      e.machine.completed + e.outcome.toOption.toList.count .continue := by
  have hmachine : e.stepped.machine = e.reaction.machine := by
    obtain ⟨source, lastStatus, heq⟩ := e.stepped_eq
    rw [heq]
  have houtcome : e.outcome.toOption = e.reaction.status.toOption := by
    rw [Engine.outcome]
    cases e.reaction.status <;> rfl
  rw [hmachine, houtcome]
  exact Machine.completed_step e.machine _

theorem completed_closed (e : Engine) (x : Register) (mask : Nat) (counter : Int)
    (drawn : Except Refusal UInt8) :
    (e.closed x mask counter drawn).machine.completed = e.machine.completed +
      (Engine.drawOutcome drawn).toOption.toList.count .continue := by
  cases drawn with
  | ok byte => rfl
  | error r => cases r <;> rfl

namespace HostM

variable {perform : Request → HostM Reply} {h : Host} {c : Nat} {e : Engine}

/-- A number that is refused is refused by the request before it. -/
theorem drawByte_ne_halting (he : h.engines[c]? = some e) (hs : e.source.NeverHalts perform)
    (reason : HaltReason) : (drawByte perform c h).1 ≠ .error (.halting reason) := by
  rw [drawByte, bind_of_ok (engine_apply he), bind_of_ok (modifyEngine_apply he _)]
  cases hd : e.source.next? with
  | none => rintro ⟨⟩
  | some d =>
    have hmem : d ∈ e.source.draws := List.mem_of_getElem? hd
    obtain ⟨before, value⟩ := d
    cases before with
    | none => rintro ⟨⟩
    | some r =>
      have hr := hs _ hmem r rfl (h.putEngine c { e with source := e.source.advance }) reason
      dsimp only
      rw [bind_apply]
      rcases hx : perform r (h.putEngine c { e with source := e.source.advance }) with
        ⟨refusal | a, h'⟩ <;> rw [hx] at hr
      · intro hrefused
        cases hrefused
        exact hr rfl
      · rintro ⟨⟩

theorem started_and_free_of_ok (he : h.engines[c]? = some e) {status : Status}
    (hstep : (stepEngine perform c h).1 = .ok status) : e.started = true ∧ e.busy = false := by
  rcases stepEngine_cases he with ⟨r, -, hr⟩ | ⟨hs, hfree, -⟩
  · rw [hr] at hstep
    cases hstep
  · exact ⟨hs, hfree⟩

theorem drawOutcome_ne {drawn : Except Refusal UInt8}
    (hdrawn : ∀ reason, drawn ≠ .error (.halting reason)) {status : Status}
    (hcontinue : status ≠ .continue) : Engine.drawOutcome drawn ≠ .ok status := by
  intro h
  cases drawn with
  | ok byte =>
    cases h
    exact hcontinue rfl
  | error r =>
    cases r with
    | halting reason => exact hdrawn reason rfl
    | _ => cases h

/-- **A step that reports a halt or a wait** is a step of the engine alone: it has asked for no
number. -/
theorem stepEngine_of_ne_continue [KeepsRequests perform] (he : h.engines[c]? = some e)
    (hs : e.source.NeverHalts perform) {status : Status} (hcontinue : status ≠ .continue)
    (hstep : (stepEngine perform c h).1 = .ok status) :
    stepEngine perform c h = (e.outcome, (h.putEngine c e.stepped).addLines e.stepLines) := by
  rcases stepEngine_cases he with
    ⟨r, -, hr⟩ | ⟨hstarted, hfree, halone | ⟨hrun, -, m₁, x, mask, ha⟩⟩
  · rw [hr] at hstep
    cases hstep
  · exact halone
  · have hopened : ((h.putEngine c e.opened).addLines e.fetchLines).engines[c]? =
        some e.opened := Host.engines_putEngine he
    have hkeeps := Keeps.follows (x := drawByte perform c)
      ((h.putEngine c e.opened).addLines e.fetchLines)
    obtain ⟨e', he', -⟩ := hkeeps.engines.kept hopened
    rw [stepEngine_of_drawing he hstarted hfree hrun ha rfl he'] at hstep
    exact absurd hstep (drawOutcome_ne (drawByte_ne_halting hopened hs) hcontinue)

/-- **A step that halts the program changes nothing else** in the engine. -/
theorem stepEngine_of_halts [KeepsRequests perform] (he : h.engines[c]? = some e)
    (hs : e.source.NeverHalts perform) {r : HaltReason}
    (hstep : (stepEngine perform c h).1 = .ok (.halted r)) :
    stepEngine perform c h = (.ok (.halted r), (h.putEngine c
      { e with
        machine := { e.machine with halted := some r }
        lastStatus := some (.halted r) }).addLines e.stepLines) := by
  have hcontinue : Status.halted r ≠ .continue := by rintro ⟨⟩
  have halone := stepEngine_of_ne_continue he hs hcontinue hstep
  have houtcome : e.outcome = .ok (.halted r) := (congrArg Prod.fst halone).symm.trans hstep
  have hreaction := Machine.step_of_status_halted (Engine.outcome_eq_ok_iff.mp houtcome)
  rw [halone, houtcome, Engine.stepped_of_reaction hreaction]

/-- **A step that waits for a key changes nothing** but the wait itself and the latch. -/
theorem stepEngine_of_awaits [KeepsRequests perform] (he : h.engines[c]? = some e)
    (hs : e.source.NeverHalts perform)
    (hstep : (stepEngine perform c h).1 = .ok .awaitingKey) :
    stepEngine perform c h = (.ok .awaitingKey, (h.putEngine c
      { e with
        machine := { e.machine with keypad := e.machine.keypad.beginWait }
        lastStatus := some .awaitingKey }).addLines e.stepLines) := by
  have hcontinue : Status.awaitingKey ≠ .continue := by rintro ⟨⟩
  have halone := stepEngine_of_ne_continue he hs hcontinue hstep
  have houtcome : e.outcome = .ok .awaitingKey := (congrArg Prod.fst halone).symm.trans hstep
  have hreaction := Machine.step_of_status_awaitingKey (Engine.outcome_eq_ok_iff.mp houtcome)
  rw [halone, houtcome, Engine.stepped_of_reaction hreaction]

/-! ### Completed instructions -/

/-- **A step completes one instruction if it continues**, and none if it reports anything else or is
refused. -/
theorem completed_stepEngine [KeepsRequests perform] (he : h.engines[c]? = some e) :
    ∃ e', (stepEngine perform c h).2.engines[c]? = some e' ∧ e'.machine.completed =
      e.machine.completed + (stepEngine perform c h).1.toOption.toList.count .continue := by
  rcases stepEngine_cases he with ⟨r, -, hr⟩ | ⟨hs, hfree, halone | ⟨hrun, -, m₁, x, mask, ha⟩⟩
  · rw [hr]
    exact ⟨e, he, rfl⟩
  · rw [halone]
    exact ⟨_, Host.engines_putEngine he, completed_stepped e⟩
  · have hopened : ((h.putEngine c e.opened).addLines e.fetchLines).engines[c]? =
        some e.opened := Host.engines_putEngine he
    have hkeeps := Keeps.follows (x := drawByte perform c)
      ((h.putEngine c e.opened).addLines e.fetchLines)
    obtain ⟨e', he', hf⟩ := hkeeps.engines.kept hopened
    rw [stepEngine_of_drawing he hs hfree hrun ha rfl he']
    refine ⟨_, Host.engines_putEngine he', ?_⟩
    rw [completed_closed, (hf.held rfl).completed_eq]
    rfl

end HostM

namespace EngineCall

open HostM

variable (perform : Request → HostM Reply) (c : Nat) {h : Host} {e : Engine}

/-- The status that a call reports, if it is a step and is not refused. -/
def report (h : Host) : EngineCall → List Status
  | step => (stepEngine perform c h).1.toOption.toList
  | _ => []

def reports : Host → List EngineCall → List Status
  | _, [] => []
  | h, call :: rest => call.report perform c h ++ reports (call.make perform c h).2 rest

variable [KeepsRequests perform]

instance keeps_make (call : EngineCall) : Keeps (call.make perform c) := by
  cases call with
  | releaseAll =>
    exact keeps_modifyMachine (f := fun m => { m with keypad := m.keypad.releaseAll }) c
      fun _ => ⟨rfl, rfl⟩
  | _ =>
    unfold make
    infer_instance

instance keeps_makeAll (calls : List EngineCall) : Keeps (makeAll perform c calls) := by
  induction calls with
  | nil => exact keeps_pure ()
  | cons call rest ih =>
    unfold makeAll
    infer_instance

omit [KeepsRequests perform] in
theorem completed_after {call : EngineCall} (hcall : call ≠ .step) :
    (after e call).machine.completed = e.machine.completed := by
  obtain ⟨_, _, _, hmachine⟩ := machine_after_of_ne_step e hcall
  rw [hmachine]

theorem completed_make (he : h.engines[c]? = some e) (call : EngineCall) :
    ∃ e', (call.make perform c h).2.engines[c]? = some e' ∧ e'.machine.completed =
      e.machine.completed + (call.report perform c h).count .continue := by
  by_cases hcall : call = .step
  · subst hcall
    rw [make, bind_discard_apply]
    exact completed_stepEngine he
  · have hreport : call.report perform c h = [] := by
      cases call with
      | step => exact absurd rfl hcall
      | _ => rfl
    rw [hreport]
    cases hb : e.busy with
    | false => exact ⟨_, engines_make_of_ne_step he hb hcall, completed_after hcall⟩
    | true =>
      -- A busy engine waits for the step that is being made.
      have hkeeps := (keeps_make perform c call).follows h
      obtain ⟨e', he', hf⟩ := hkeeps.engines.kept he
      exact ⟨e', he', (hf.held hb).completed_eq⟩

/-- **The instructions that a history of calls completes** are the steps that have continued. -/
theorem completed_makeAll (he : h.engines[c]? = some e) (calls : List EngineCall) :
    ∃ e', (makeAll perform c calls h).2.engines[c]? = some e' ∧ e'.machine.completed =
      e.machine.completed + (reports perform c h calls).count .continue := by
  induction calls generalizing h e with
  | nil => exact ⟨e, he, rfl⟩
  | cons call rest ih =>
    obtain ⟨e₁, he₁, hcompleted₁⟩ := completed_make perform c he call
    obtain ⟨e₂, he₂, hcompleted₂⟩ := ih he₁
    rw [makeAll, bind_of_ok (attempt_apply _ _)]
    refine ⟨e₂, he₂, ?_⟩
    rw [hcompleted₂, hcompleted₁, reports, List.count_append, Nat.add_assoc]

end EngineCall

/-! ### Everything that may come later -/

/-- Requests and calls on engines lead from one host to another, in any order. -/
inductive Host.Later (h : Host) : Host → Prop
  | now : Later h h
  | request {h' : Host} (hl : Later h h') (depth : Nat) (r : Request) :
    Later h (HostM.performWithin depth r h').2
  | call {h' : Host} (hl : Later h h') (depth c : Nat) (call : EngineCall) :
    Later h (call.make (HostM.performWithin depth) c h').2
  | emptied {h' : Host} (hl : Later h h') : Later h { h' with notes := #[], log := #[] }

theorem Host.Later.enginesFollow {h h' : Host} (hl : h.Later h') :
    EnginesFollow h.engines h'.engines := by
  induction hl with
  | now => exact .refl _
  | request hl depth r ih => exact ih.trans (HostM.KeepsRequests.engines r _)
  | call hl depth c call ih =>
    exact ih.trans ((EngineCall.keeps_make _ c call).follows _).engines
  | emptied hl ih => exact ih

/-- **A halted program never goes on.**  Whatever happens, each of its steps reports the halt and
changes nothing in the machine. -/
theorem stepEngine_of_later {h h' : Host} {c : Nat} {e : Engine}
    (he : h.engines[c]? = some e) (hstarted : e.started = true) (hfree : e.busy = false)
    {r : HaltReason} (hh : e.machine.halted = some r) (hl : h.Later h') :
    ∃ e', h'.engines[c]? = some e' ∧ e'.machine.halted = some r ∧ ∀ perform,
      HostM.stepEngine perform c h' =
        (.ok (.halted r), h'.putEngine c { e' with lastStatus := some (.halted r) }) := by
  obtain ⟨e', he', hf⟩ := hl.enginesFollow.kept he
  have hh' := hf.halted r hh
  exact ⟨e', he', hh', fun perform => HostM.stepEngine_of_isHalted he' (hf.started hstarted)
    (hf.busy_eq.trans hfree) hh'⟩

/-- **A halt changes nothing else and is final.**  Take an engine whose source never halts the
program.  A step that halts the program marks the machine as halted and leaves everything else in
the engine as it was; from then on, whatever is requested, every step reports this halt and changes
nothing in the machine.  A step that waits for a key does nothing but begin to wait.  And over every
history of calls the instructions completed are the steps that have continued. -/
theorem halting_is_final {depth : Nat} {h : Host} {c : Nat} {e : Engine}
    (he : h.engines[c]? = some e)
    (hsource : e.source.NeverHalts (HostM.performWithin depth)) :
    let step := HostM.stepEngine (HostM.performWithin depth) c h
    (∀ r, step.1 = .ok (.halted r) →
      (∃ lines, step.2 = (h.putEngine c
        { e with
          machine := { e.machine with halted := some r }
          lastStatus := some (.halted r) }).addLines lines) ∧
      ∀ h', step.2.Later h' → ∃ e', h'.engines[c]? = some e' ∧ e'.machine.halted = some r ∧
        ∀ perform, HostM.stepEngine perform c h' =
          (.ok (.halted r), h'.putEngine c { e' with lastStatus := some (.halted r) })) ∧
    (step.1 = .ok .awaitingKey → ∃ lines, step.2 = (h.putEngine c
      { e with
        machine := { e.machine with keypad := e.machine.keypad.beginWait }
        lastStatus := some .awaitingKey }).addLines lines) ∧
    ∀ calls, ∃ e', (EngineCall.makeAll (HostM.performWithin depth) c calls h).2.engines[c]? =
        some e' ∧
      e'.machine.completed = e.machine.completed +
        (EngineCall.reports (HostM.performWithin depth) c h calls).count .continue := by
  intro step
  refine ⟨fun r hr => ?_, fun hwait => ?_, fun calls => ?_⟩
  · obtain ⟨hstarted, hfree⟩ := HostM.started_and_free_of_ok he hr
    have hstep : step.2 = _ := congrArg Prod.snd (HostM.stepEngine_of_halts he hsource hr)
    refine ⟨⟨_, hstep⟩, fun h' hl => ?_⟩
    rw [hstep] at hl
    have hhalted : ((h.putEngine c
        { e with
          machine := { e.machine with halted := some r }
          lastStatus := some (.halted r) }).addLines e.stepLines).engines[c]? = some
        { e with
          machine := { e.machine with halted := some r }
          lastStatus := some (.halted r) } := Host.engines_putEngine he
    exact stepEngine_of_later hhalted hstarted hfree rfl hl
  · exact ⟨_, congrArg Prod.snd (HostM.stepEngine_of_awaits he hsource hwait)⟩
  · exact EngineCall.completed_makeAll _ c he calls

/-- A host with a program that comes to its end after one instruction, which has been completed. -/
def endingHost : Host :=
  ((Host.ofFiles ⟨[], []⟩).play [
    .newEngine [] [] 0, .loadRom [0x60, 0x05, 0x00, 0x00] "END", .start, .step 1]).2

def endingEngine : Engine :=
  endingHost.engines[0]?.get (by decide +kernel)

/-- The program has come to its end; a key, a tick and two more steps make no difference. -/
theorem halting_is_final_of_end :
    (∃ lines, (HostM.stepEngine (HostM.performWithin 9) 0 endingHost).2 = (endingHost.putEngine 0
      { endingEngine with
        machine := { endingEngine.machine with halted := some (.programEnd 0x202) }
        lastStatus := some (.halted (.programEnd 0x202)) }).addLines lines) ∧
      (HostM.stepEngine (HostM.performWithin 9) 0
        (HostM.performWithin 9 (.key 5 true)
          (HostM.stepEngine (HostM.performWithin 9) 0 endingHost).2).2).1 =
        .ok (.halted (.programEnd 0x202)) ∧
      ∃ e', (EngineCall.makeAll (HostM.performWithin 9) 0 [.step, .tick, .step]
        endingHost).2.engines[0]? = some e' ∧ e'.machine.completed = 1 := by
  have he : endingHost.engines[0]? = some endingEngine := (Option.some_get _).symm
  have hrun : endingEngine.source.draws.isEmpty = true ∧
      (HostM.stepEngine (HostM.performWithin 9) 0 endingHost).1.toOption =
        some (.halted (.programEnd 0x202)) ∧
      endingEngine.machine.completed = 1 ∧
      (EngineCall.reports (HostM.performWithin 9) 0 endingHost
        [.step, .tick, .step]).count .continue = 0 := by decide +kernel
  obtain ⟨hnil, hhalts, hone, hreports⟩ := hrun
  have hplain : endingEngine.source.IsPlain := by
    intro d hd
    rw [List.isEmpty_iff.mp hnil] at hd
    cases hd
  obtain ⟨hfinal, -, hcompleted⟩ := halting_is_final he (hplain.neverHalts (HostM.performWithin 9))
  obtain ⟨hsame, hlater⟩ := hfinal _ (eq_ok_of_toOption hhalts)
  obtain ⟨e₁, -, -, hstep⟩ := hlater _ (.request .now 9 (.key 5 true))
  obtain ⟨e', he', hcount⟩ := hcompleted [.step, .tick, .step]
  rw [hone, hreports] at hcount
  exact ⟨hsame, congrArg Prod.fst (hstep _), e', he', hcount⟩

end Chip8
