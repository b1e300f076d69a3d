import Chip8.Proofs.Engine.Calls
import Chip8.Proofs.Engine.Halting
import Chip8.Proofs.Machine.Subroutines

/-!
# Calls and returns over a run

A host may use an engine in any way, as long as it leaves the program counter and
the stack to the program.  The steps that continue at a call or at a return make
up the history of the run, and the stack records which calls are open in it.

* `records_makeAll`: the stack after a run.
* `stack_is_bracketed`: what this says for a new engine, its next call and its
  next return.
-/

namespace Chip8

open PatternDigit (any)
open HostM

namespace Engine

/-- The machine after registers have been written, the index register among them, and the flag. -/
def written (m : Machine) (v : List (Register × Int)) (index flag : Option Int) : Machine :=
  let m := v.foldl (fun m (x, value) => m.setV x value) m
  let m := index.elim m m.setIndex
  flag.elim m fun value => m.setV flagRegister (value % 0x100)

theorem stack_foldl_setV (v : List (Register × Int)) (m : Machine) :
    (v.foldl (fun m (x, value) => m.setV x value) m).stack = m.stack := by
  induction v generalizing m with
  | nil => rfl
  | cons write rest ih => exact ih _

theorem stack_written (m : Machine) (v : List (Register × Int)) (index flag : Option Int) :
    (written m v index flag).stack = m.stack := by
  rw [← stack_foldl_setV v m]
  cases index <;> cases flag <;> rfl

end Engine

/-- What a host does with an engine that leaves program counter and stack to the program. -/
inductive EngineUse
  | call (call : EngineCall)
  /-- Writes registers, the index register and the flag. -/
  | write (v : List (Register × Int)) (index flag : Option Int)

namespace EngineUse

section Run

variable (perform : Request → HostM Reply) (c : Nat)

def make : EngineUse → HostM Unit
  | .call asked => asked.make perform c
  | .write v index flag => do
    let _ ← setRegisters c v index none flag

/-- Makes uses one after the other and goes on when one is refused. -/
def makeAll : List EngineUse → HostM Unit
  | [] => pure ()
  | use :: rest => do
    let _ ← attempt (make perform c use)
    makeAll rest

/-- The call or return that a use carries out: a step that continues, by the word it is made at. -/
def marks (h : Host) : EngineUse → List Mark
  | .call .step =>
    match (stepEngine perform c h).1, h.engines[c]? with
    | .ok .continue, some e => e.machine.marks
    | _, _ => []
  | _ => []

/-- The calls and returns that a run carries out, the earliest first. -/
def history : Host → List EngineUse → List Mark
  | _, [] => []
  | h, use :: rest => marks perform c h use ++ history (make perform c use h).2 rest

end Run

variable {perform : Request → HostM Reply} {c : Nat} {h : Host} {e : Engine} {t : List Mark}

/-! ### What a use does to the stack -/

theorem forM_modifyMachine_apply (he : h.engines[c]? = some e) (f : Int → Machine → Machine)
    (value : Option Int) : (value.forM fun a => modifyMachine c (f a)) h =
      (.ok (), h.putEngine c (e.withMachine (value.elim e.machine fun a => f a e.machine))) := by
  cases value with
  | none =>
    show (Except.ok (), h) = _
    rw [Option.elim_none, Engine.withMachine, Host.putEngine_eq_self he]
  | some a => exact modifyMachine_apply he (f a)

theorem engines_setRegisters (he : h.engines[c]? = some e) (v : List (Register × Int))
    (index flag : Option Int) : (setRegisters c v index none flag h).2.engines[c]? =
      some (e.withMachine (Engine.written e.machine v index flag)) := by
  have hv : modifyMachine c (fun m => v.foldl (fun m (x, value) => m.setV x value) m) h =
      (.ok (), h.putEngine c (e.withMachine (Engine.written e.machine v none none))) :=
    modifyMachine_apply he _
  have hindex : index.forM (fun a => modifyMachine c (·.setIndex a))
      (h.putEngine c (e.withMachine (Engine.written e.machine v none none))) =
      (.ok (), h.putEngine c (e.withMachine (Engine.written e.machine v index none))) := by
    rw [forM_modifyMachine_apply (Host.engines_putEngine he) fun a m => m.setIndex a,
      Host.putEngine_putEngine]
    rfl
  have he₂ : (h.putEngine c (e.withMachine (Engine.written e.machine v index none))).engines[c]? =
      some (e.withMachine (Engine.written e.machine v index none)) := Host.engines_putEngine he
  have hcounter (h : Host) :
      (none : Option Int).forM (fun a => modifyMachine c (·.setCounter a)) h = (.ok (), h) := rfl
  unfold setRegisters
  rw [bind_of_ok hv, bind_of_ok hindex, bind_of_ok (hcounter _)]
  cases flag with
  | none => exact he₂
  | some value =>
    dsimp only
    rw [bind_of_ok (modifyMachine_apply he₂ _)]
    exact Host.engines_putEngine he₂

theorem records_make (he : h.engines[c]? = some e) (ha : e.Alone) (hr : e.machine.Records t)
    (use : EngineUse) : ∃ e', (make perform c use h).2.engines[c]? = some e' ∧ e'.Alone ∧
      e'.machine.Records (t ++ marks perform c h use) := by
  cases use with
  | write v index flag =>
    rw [make, EngineCall.bind_discard_apply]
    refine ⟨_, engines_setRegisters he v index flag, ⟨ha.free, ha.plain⟩, ?_⟩
    show (Engine.written e.machine v index flag).Records (t ++ [])
    rw [List.append_nil]
    exact hr.of_eq (Engine.stack_written _ v index flag)
  | call asked =>
    refine ⟨_, EngineCall.engines_make he ha asked, EngineCall.alone_after ha asked, ?_⟩
    by_cases hasked : asked = .step
    case neg =>
      obtain ⟨_, _, _, hmachine⟩ := EngineCall.machine_after_of_ne_step e hasked
      have hmarks : marks perform c h (.call asked) = [] := by
        cases asked with
        | step => exact absurd rfl hasked
        | _ => rfl
      rw [hmachine, hmarks, List.append_nil]
      exact hr.of_eq rfl
    subst hasked
    rw [EngineCall.after, marks, he]
    cases hs : e.started with
    | false =>
      rw [stepEngine_of_not_started he hs]
      show e.machine.Records (t ++ [])
      rw [List.append_nil]
      exact hr
    | true =>
      rw [stepEngine_apply he hs ha.free (Engine.undisturbed_of_isPlain ha.plain)]
      have hmachine : e.stepped.machine = e.reaction.machine := by
        obtain ⟨source, lastStatus, heq⟩ := e.stepped_eq
        rw [heq]
      rw [if_pos rfl, hmachine]
      by_cases hcontinue : e.outcome = .ok .continue
      · rw [hcontinue]
        exact hr.step (Engine.outcome_eq_ok_iff.mp hcontinue)
      · split
        · next hcontinue' _ => exact absurd hcontinue' hcontinue
        · rw [List.append_nil]
          exact hr.of_eq (Machine.stack_step_of_ne_continue
            fun hstatus => hcontinue (Engine.outcome_eq_ok_iff.mpr hstatus))

/-- **The stack after a run records the run.** -/
theorem records_makeAll (perform : Request → HostM Reply) (he : h.engines[c]? = some e)
    (ha : e.Alone) (hr : e.machine.Records t) (uses : List EngineUse) :
    ∃ e', (makeAll perform c uses h).2.engines[c]? = some e' ∧
      e'.Alone ∧ e'.machine.Records (t ++ history perform c h uses) := by
  induction uses generalizing h e t with
  | nil =>
    rw [history, List.append_nil]
    exact ⟨e, he, ha, hr⟩
  | cons use rest ih =>
    obtain ⟨e₁, he₁, ha₁, hr₁⟩ := records_make he ha hr use
    rw [makeAll, bind_of_ok (attempt_apply _ _), history, ← List.append_assoc]
    exact ih he₁ ha₁ hr₁

theorem stepEngine_of_alone (perform : Request → HostM Reply) (he : h.engines[c]? = some e)
    (ha : e.Alone) (hstarted : e.started = true) :
    (stepEngine perform c h).1 = e.outcome ∧
      ∃ e', (stepEngine perform c h).2.engines[c]? = some e' ∧
        e'.machine = e.reaction.machine := by
  obtain ⟨source, lastStatus, hstepped⟩ := e.stepped_eq
  rw [stepEngine_apply he hstarted ha.free (Engine.undisturbed_of_isPlain ha.plain)]
  exact ⟨rfl, _, Host.engines_putEngine he, by rw [hstepped]⟩

end EngineUse

open EngineUse Mark

/-- **Calls and returns are well bracketed.**  Take a new engine and any run of uses of it.  The
stack holds, the earliest first, the addresses of the instructions after the calls that no later
return has closed, and never more than sixteen.  A return that is next goes to the instruction
after the call that it closes; if it closes none, it halts the program.  A call that is next
continues, unless sixteen calls are open: then it halts the program.  A halt leaves the stack as
it was. -/
theorem stack_is_bracketed (perform : Request → HostM Reply) {h : Host} {c : Nat}
    {dialect : Dialect} {draws : List (Draw Request)} {owner : Option Nat} {generation : Int}
    (he : h.engines[c]? = some (Engine.fresh dialect draws owner generation))
    (hdraws : ∀ d ∈ draws, d.before = none) (uses : List EngineUse) :
    let h' := (makeAll perform c uses h).2
    let t := history perform c h uses
    let step := stepEngine perform c h'
    ∃ e, h'.engines[c]? = some e ∧
      e.machine.stack.toList.map Nat.cast = (openCalls t).map (· + 2) ∧
      e.machine.stack.toList.length ≤ 16 ∧
      (e.started = true → e.machine.halted = none → e.machine.OnProgram →
        ∃ e', step.2.engines[c]? = some e' ∧
          (Pattern.Matches ⟨0, 0, 0xE, 0xE⟩ e.machine.word →
            (∀ a, ReturnsTo t a → step.1 = .ok .continue ∧ e'.machine.counter = a + 2) ∧
            ((∀ a, ¬ReturnsTo t a) → step.1 = .ok (.halted .stackUnderflow) ∧
              e'.machine.stack = e.machine.stack)) ∧
          (Pattern.Matches ⟨2, any, any, any⟩ e.machine.word →
            ((openCalls t).length < 16 → step.1 = .ok .continue) ∧
            ((openCalls t).length = 16 → step.1 = .ok (.halted (.stackOverflow 17)) ∧
              e'.machine.stack = e.machine.stack))) := by
  intro h' t step
  obtain ⟨e, he', halone, hrecords⟩ := records_makeAll perform he ⟨rfl, hdraws⟩
    (Machine.records_fresh dialect) uses
  have hlength : e.machine.stack.toList.length = e.machine.stack.pointer :=
    List.length_reverse
  refine ⟨e, he', hrecords.toList_eq, hlength ▸ hrecords.pointer_le,
    fun hstarted hrun hc => ?_⟩
  obtain ⟨hstep, e', hstepped, hmachine⟩ := stepEngine_of_alone perform he' halone
    hstarted
  have hstatus {status : Status} (hs : e.reaction.status = .ok status) : step.1 = .ok status :=
    hstep.trans (Engine.outcome_eq_ok_iff.mpr hs)
  refine ⟨e', hstepped, fun hret => ⟨fun a hto => ?_, fun hno => ?_⟩,
    fun hcall => ⟨fun hroom => ?_, fun hfull => ?_⟩⟩
  · obtain ⟨hcontinue, hcounter⟩ := hrecords.step_ret e.source.nextByte hrun hc hret hto
    exact ⟨hstatus hcontinue, by rw [hmachine]; exact hcounter⟩
  · have hhalt := hrecords.step_ret_of_none e.source.nextByte hrun hc hret hno
    exact ⟨hstatus (congrArg _ hhalt), by rw [hmachine, Engine.reaction, hhalt]⟩
  · exact hstatus (hrecords.step_call e.source.nextByte hrun hc hcall hroom)
  · have hhalt := hrecords.step_call_of_full e.source.nextByte hrun hc hcall hfull
    exact ⟨hstatus (congrArg _ hhalt), by rw [hmachine, Engine.reaction, hhalt]⟩

/-- Two calls, one inside the other, and a return is next. -/
def nestedUses : List EngineUse :=
  [.call (.load [0x22, 0x06, 0, 0, 0, 0, 0x22, 0x0A, 0x00, 0xEE, 0x00, 0xEE] "NESTED"),
    .call .start, .write [(firstRegister, -1)] (some 5) none, .call .step, .call (.key 5 true),
    .call .step]

/-- The return of the inner call goes back into the outer one. -/
theorem stack_is_bracketed_of_nested :
    let h := newHost .plain [⟨none, 7⟩]
    ∃ e, (makeAll HostM.perform 0 nestedUses h).2.engines[0]? = some e ∧
      e.machine.stack.toList.map Nat.cast = [(0x202 : Int), 0x208] ∧
      (stepEngine HostM.perform 0 (makeAll HostM.perform 0 nestedUses h).2).1 = .ok .continue ∧
      ∃ e', (stepEngine HostM.perform 0
        (makeAll HostM.perform 0 nestedUses h).2).2.engines[0]? = some e' ∧
        e'.machine.counter = 0x208 := by
  intro h
  have hhistory : history HostM.perform 0 h nestedUses = [.call 0x200, .call 0x206] := by
    decide +kernel
  have hnext : (makeAll HostM.perform 0 nestedUses h).2.engines[0]?.all
      (fun e => e.started && e.machine.halted.isNone && decide (e.machine.OnProgram) &&
        decide (Pattern.Matches ⟨0, 0, 0xE, 0xE⟩ e.machine.word)) = true := by decide +kernel
  obtain ⟨e, he, hstack, -, hstep⟩ := stack_is_bracketed HostM.perform
    (h := h) (c := 0) rfl (by simp) nestedUses
  rw [he] at hnext
  simp only [Option.all_some, Bool.and_eq_true, decide_eq_true_eq, Option.isNone_iff_eq_none]
    at hnext
  obtain ⟨⟨⟨hstarted, hrun⟩, hc⟩, hw⟩ := hnext
  rw [hhistory] at hstack hstep
  obtain ⟨e', he', hret, -⟩ := hstep hstarted hrun hc
  obtain ⟨hcontinue, hcounter⟩ := (hret hw).1 0x206 ⟨[.call 0x200], [], rfl, .nil⟩
  exact ⟨e, he, hstack, hcontinue, e', he', hcounter⟩

end Chip8
