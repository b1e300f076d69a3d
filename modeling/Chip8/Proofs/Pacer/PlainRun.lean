import Chip8.Proofs.Engine.Step
import Chip8.Proofs.Machine.Frame

/-!
# Plain runs

A plain run makes steps one after the other and ticks the timers after every
`T`-th of them.  It knows neither a schedule nor a clock.  Pauses and keys come
between its steps; a step that halts stops it for good.

* `PlainRun.OnTime`: as long as the program has not halted, `j` steps have
  ticked the timers `j / T` times.
* `PlainRun.onTime_replay`: this holds after every list of calls.
-/

namespace Chip8

def Engine.ticked (e : Engine) : Engine :=
  { e with machine := e.machine.tickTimers }

inductive PacerCall
  /-- A batch of so many steps. -/
  | run (count : Int)
  | pause
  | resume
  /-- A move of a key of the engine's keypad. -/
  | key (code : Int) (down : Bool)

/-- Calls made one after the other, with the answers of all of them. -/
def replay {S A : Type} (answer : PacerCall → S → List A × S) : List PacerCall → S → List A × S
  | [], s => ([], s)
  | call :: rest, s =>
    let first := answer call s
    let others := replay answer rest first.2
    (first.1 ++ others.1, others.2)

/-- An engine that makes its steps one at a time. -/
structure PlainRun where
  engine : Engine
  /-- How many steps have been counted. -/
  steps : Nat
  power : Power
  lastStatus : Option Status

namespace PlainRun

/-- One step.  The timers tick after it if it is a `T`-th one and has not halted.  A step that is
refused is not counted. -/
def step (T : Nat) (s : PlainRun) : Except Refusal Unit × PlainRun :=
  let e := s.engine.stepped
  match s.engine.outcome with
  | .error r => (.error r, { s with engine := e })
  | .ok (.halted reason) =>
    (.ok (), ⟨e, s.steps + 1, .stopped, some (.halted reason)⟩)
  | .ok status =>
    (.ok (), ⟨if (s.steps + 1) % T = 0 then e.ticked else e, s.steps + 1, s.power, some status⟩)

/-- Up to so many steps, as long as the run goes on. -/
def run (T : Nat) : Nat → PlainRun → Except Refusal Unit × PlainRun
  | 0, s => (.ok (), s)
  | n + 1, s =>
    if s.power = .running then
      match s.step T with
      | (.error r, s') => (.error r, s')
      | (.ok (), s') => run T n s'
    else (.ok (), s)

/-- What a call does to the run; a batch answers with the last status. -/
def answer (T : Nat) : PacerCall → PlainRun → List (Except Refusal (Option Status)) × PlainRun
  | .run count, s =>
    match s.run T count.toNat with
    | (.error r, s') => ([.error r], s')
    | (.ok (), s') => ([.ok s'.lastStatus], s')
  | .pause, s => ([], if s.power = .running then { s with power := .paused } else s)
  | .resume, s => ([], if s.power = .paused then { s with power := .running } else s)
  | .key code down, s => ([], { s with engine := s.engine.keyed code down })

/-- Until the program halts, every `T`-th step has ticked the timers once. -/
def OnTime (T first : Nat) (s : PlainRun) : Prop :=
  s.power ≠ .stopped → s.engine.machine.timers.ticks = first + s.steps / T

variable {T first : Nat} {s : PlainRun}

/-! ### One step -/

theorem step_of_refused {r : Refusal} (ho : s.engine.outcome = .error r) :
    s.step T = (.error r, { s with engine := s.engine.stepped }) := by
  rw [step, ho]

theorem step_of_halted {reason : HaltReason} (ho : s.engine.outcome = .ok (.halted reason)) :
    s.step T = (.ok (), ⟨s.engine.stepped, s.steps + 1, .stopped, some (.halted reason)⟩) := by
  rw [step, ho]

theorem step_of_passed {status : Status} (ho : s.engine.outcome = .ok status)
    (hgo : status.isHalted = false) :
    s.step T = (.ok (),
      ⟨if (s.steps + 1) % T = 0 then s.engine.stepped.ticked else s.engine.stepped, s.steps + 1,
        s.power, some status⟩) := by
  rw [step, ho]
  cases status with
  | halted reason => cases hgo
  | «continue» | awaitingKey => rfl

theorem run_of_rests (hrest : s.power ≠ .running) (n : Nat) : s.run T n = (.ok (), s) := by
  cases n with
  | zero => rfl
  | succ n => rw [run, if_neg hrest]

/-! ### The ticks of the timers -/

theorem ticks_stepped (e : Engine) :
    e.stepped.machine.timers.ticks = e.machine.timers.ticks := by
  obtain ⟨source, lastStatus, heq⟩ := e.stepped_eq
  rw [heq]
  exact (Machine.sameFrame_step e.machine _).ticks_eq

theorem ticks_keyed (e : Engine) (code : Int) (down : Bool) :
    (e.keyed code down).machine.timers.ticks = e.machine.timers.ticks := by
  rw [Engine.keyed]
  split <;> rfl

theorem onTime_step (h : s.OnTime T first) : (s.step T).2.OnTime T first := by
  have hticks := ticks_stepped s.engine
  rw [step]
  split
  · intro hp
    rw [hticks]
    exact h hp
  · intro hp
    exact absurd rfl hp
  · intro hp
    by_cases hT : (s.steps + 1) % T = 0
    · show (if _ then _ else _ : Engine).machine.timers.ticks = first + (s.steps + 1) / T
      rw [if_pos hT, Nat.succ_div_of_mod_eq_zero hT]
      show s.engine.stepped.machine.timers.ticks + 1 = _
      rw [hticks, h hp]
      rfl
    · show (if _ then _ else _ : Engine).machine.timers.ticks = first + (s.steps + 1) / T
      rw [if_neg hT, Nat.succ_div_of_mod_ne_zero hT, hticks, h hp]

theorem onTime_run (h : s.OnTime T first) (n : Nat) : (s.run T n).2.OnTime T first := by
  induction n generalizing s with
  | zero => exact h
  | succ n ih =>
    have hstep := onTime_step h
    rw [run]
    split
    · split
      · next r s' heq =>
        rw [heq] at hstep
        exact hstep
      · next s' heq =>
        rw [heq] at hstep
        exact ih hstep
    · exact h

theorem onTime_answer (h : s.OnTime T first) (call : PacerCall) :
    (answer T call s).2.OnTime T first := by
  cases call with
  | run count =>
    have hrun := onTime_run h count.toNat
    rw [answer]
    split
    · next r s' heq =>
      rw [heq] at hrun
      exact hrun
    · next s' heq =>
      rw [heq] at hrun
      exact hrun
  | pause =>
    rw [answer]
    split
    · next hp =>
      intro _
      refine h ?_
      rw [hp]
      decide
    · exact h
  | resume =>
    rw [answer]
    split
    · next hp =>
      intro _
      refine h ?_
      rw [hp]
      decide
    · exact h
  | key code down =>
    intro hp
    exact (ticks_keyed s.engine code down).trans (h hp)

theorem onTime_replay (h : s.OnTime T first) (calls : List PacerCall) :
    (replay (answer T) calls s).2.OnTime T first := by
  induction calls generalizing s with
  | nil => exact h
  | cons call rest ih => exact ih (onTime_answer h call)

end PlainRun

end Chip8
