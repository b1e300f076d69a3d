import Chip8.Proofs.Engine.Finality
import Chip8.Proofs.Engine.Instructions
import Chip8.Proofs.Host.Respected
import Chip8.Proofs.Machine.Timers

/-!
# The timers of an engine in use

A run of calls on an engine makes a history of its timers: each tick that the host asks
for is one, and so is each load that a step has completed.  Nothing else counts: neither
steps that wait, halt or are refused, nor keys, nor what the host requests in the middle
of a step.  The induction is on the run, and the engine is free between the calls.

* `timerHistory`: the history of a run.
* `records_stepEngine`, `records_make`: what one call adds to it.
* `timers_show_history`: the timers after any run, and the step that reads one.
-/

namespace Chip8

/-- What a step adds to the history of the timers, by what it reports. -/
def Machine.timerEvents (m : Machine) : Except Refusal Status → List TimerEvent
  | .ok .continue => m.timerLoads
  | _ => []

theorem Machine.timerEvents_of_ne {m : Machine} {outcome : Except Refusal Status}
    (h : outcome ≠ .ok .continue) : m.timerEvents outcome = [] := by
  rcases outcome with r | status
  · rfl
  · cases status with
    | «continue» => exact absurd rfl h
    | _ => rfl

theorem Machine.timerEvents_of_no_load {m : Machine} (h : m.timerLoads = [])
    (outcome : Except Refusal Status) : m.timerEvents outcome = [] := by
  by_cases hgoes : outcome = .ok .continue
  · rw [hgoes]
    exact h
  · exact timerEvents_of_ne hgoes

namespace Engine

variable {e : Engine} {t : List TimerEvent}

theorem timers_closed (e : Engine) (x : Register) (mask : Nat) (counter : Int)
    (drawn : Except Refusal UInt8) :
    (e.closed x mask counter drawn).machine.timers = e.machine.timers := by
  cases drawn with
  | ok byte => rfl
  | error r => cases r <;> rfl

theorem records_stepped (h : e.machine.timers.Records t) :
    e.stepped.machine.timers.Records (t ++ e.machine.timerEvents e.outcome) := by
  obtain ⟨source, lastStatus, heq⟩ := e.stepped_eq
  rw [heq]
  show e.reaction.machine.timers.Records _
  by_cases hgoes : e.outcome = .ok .continue
  · rw [hgoes]
    exact Machine.records_step h (outcome_eq_ok_iff.mp hgoes)
  · have hstays : e.reaction.status ≠ .ok .continue :=
      fun hstatus => hgoes (outcome_eq_ok_iff.mpr hstatus)
    have hkept : e.reaction.machine.timers = e.machine.timers := Machine.timers_step hstays
    rw [hkept, Machine.timerEvents_of_ne hgoes, List.append_nil]
    exact h

end Engine

namespace HostM

variable {perform : Request → HostM Reply} [∀ r, RespectsSteps (perform r)] {h : Host} {c : Nat}
  {e : Engine} {t : List TimerEvent}

/-- **A step adds to the history what it reports**, whatever the host requests in the middle of
it. -/
theorem records_stepEngine (he : h.engines[c]? = some e) (hr : e.machine.timers.Records t) :
    ∃ e', (stepEngine perform c h).2.engines[c]? = some e' ∧
      e'.machine.timers.Records (t ++ e.machine.timerEvents (stepEngine perform c h).1) := by
  rcases stepEngine_cases he with
    ⟨r, -, hrefused⟩ | ⟨hs, hfree, halone | ⟨hrun, -, m₁, x, mask, ha⟩⟩
  · rw [hrefused]
    refine ⟨e, he, ?_⟩
    rw [Machine.timerEvents_of_ne (by rintro ⟨⟩), List.append_nil]
    exact hr
  · rw [halone]
    exact ⟨_, Host.engines_putEngine he, Engine.records_stepped hr⟩
  · -- The engine is busy while the number is asked for, and the request leaves its timers alone.
    have hopened : ((h.putEngine c e.opened).addLines e.fetchLines).engines[c]? =
        some e.opened := Host.engines_putEngine he
    have hinner := RespectsSteps.respects (x := drawByte perform c)
      ((h.putEngine c e.opened).addLines e.fetchLines)
    obtain ⟨e', he', hrespected⟩ := hinner.engine hopened rfl
    rw [stepEngine_of_drawing he hs hfree hrun ha rfl he']
    refine ⟨_, Host.engines_putEngine he', ?_⟩
    rw [Machine.timerEvents_of_no_load (Machine.timerLoads_of_drawing ha), List.append_nil,
      Engine.timers_closed, hrespected.machine.timers_eq]
    exact hr

end HostM

namespace EngineCall

open HostM TimerEvent

def isTick : EngineCall → Bool
  | tick => true
  | _ => false

section Run

variable (perform : Request → HostM Reply) (c : Nat)

/-- What a call adds to the history of the timers. -/
def timerEvents (h : Host) : EngineCall → List TimerEvent
  | tick => [.tick]
  | step => h.engines[c]?.elim [] fun e => e.machine.timerEvents (stepEngine perform c h).1
  | _ => []

def timerHistory : Host → List EngineCall → List TimerEvent
  | _, [] => []
  | h, call :: rest => call.timerEvents perform c h ++ timerHistory (call.make perform c h).2 rest

end Run

variable {perform : Request → HostM Reply} {c : Nat} {h : Host} {e : Engine}
  {t : List TimerEvent}

theorem records_after (hr : e.machine.timers.Records t) {call : EngineCall}
    (hstep : call ≠ .step) :
    (after e call).machine.timers.Records (t ++ call.timerEvents perform c h) := by
  cases call with
  | step => exact absurd rfl hstep
  | tick => exact hr.tick
  | load data name =>
    show (e.orSelf (e.load data name)).machine.timers.Records (t ++ [])
    rw [List.append_nil]
    cases hl : e.load data name with
    | error r => exact hr
    | ok e' =>
      obtain ⟨memory, rfl⟩ := Engine.load_eq_ok hl
      exact hr
  | start =>
    show (e.orSelf e.start).machine.timers.Records (t ++ [])
    rw [List.append_nil]
    cases hs : e.start with
    | error r => exact hr
    | ok e' =>
      rw [Engine.start_eq_ok hs]
      exact hr
  | key code down =>
    show (e.keyed code down).machine.timers.Records (t ++ [])
    rw [List.append_nil, Engine.keyed]
    cases Keypad.key? code <;> exact hr
  | poke address data =>
    show (Engine.poked e.machine address data).timers.Records (t ++ [])
    rw [List.append_nil, Engine.poked]
    split <;> exact hr
  | retire | releaseAll =>
    show e.machine.timers.Records (t ++ [])
    rw [List.append_nil]
    exact hr

section Calls

variable (perform) [∀ r, RespectsSteps (perform r)] [KeepsRequests perform]

/-- **A call adds its event to the history**, and leaves the engine free. -/
theorem records_make (he : h.engines[c]? = some e) (hfree : e.busy = false)
    (hr : e.machine.timers.Records t) (call : EngineCall) :
    ∃ e', (call.make perform c h).2.engines[c]? = some e' ∧ e'.busy = false ∧
      e'.machine.timers.Records (t ++ call.timerEvents perform c h) := by
  have hrecords : ∃ e', (call.make perform c h).2.engines[c]? = some e' ∧
      e'.machine.timers.Records (t ++ call.timerEvents perform c h) := by
    by_cases hstep : call = .step
    · subst hstep
      rw [make, bind_discard_apply, timerEvents, he]
      exact records_stepEngine he hr
    · exact ⟨_, engines_make_of_ne_step he hfree hstep, records_after hr hstep⟩
  obtain ⟨e', he', hr'⟩ := hrecords
  obtain ⟨e'', he'', hfollows⟩ := ((keeps_make perform c call).follows h).engines.kept he
  rw [he'] at he''
  cases he''
  exact ⟨e', he', hfollows.busy_eq.trans hfree, hr'⟩

/-- **The timers record the run.** -/
theorem records_makeAll (he : h.engines[c]? = some e) (hfree : e.busy = false)
    (hr : e.machine.timers.Records t) (calls : List EngineCall) :
    ∃ e', (makeAll perform c calls h).2.engines[c]? = some e' ∧ e'.busy = false ∧
      e'.machine.timers.Records (t ++ timerHistory perform c h calls) := by
  induction calls generalizing h e t with
  | nil =>
    rw [timerHistory, List.append_nil]
    exact ⟨e, he, hfree, hr⟩
  | cons call rest ih =>
    obtain ⟨e₁, he₁, hfree₁, hr₁⟩ := records_make perform he hfree hr call
    rw [makeAll, bind_of_ok (attempt_apply _ _), timerHistory, ← List.append_assoc]
    exact ih he₁ hfree₁ hr₁

end Calls

/-! ### Ticks -/

theorem count_tick_timerLoads (m : Machine) : m.timerLoads.count .tick = 0 := by
  rw [Machine.timerLoads]
  split
  · rfl
  · split <;> rfl

theorem count_tick_timerEvents (perform : Request → HostM Reply) (c : Nat) (h : Host)
    (call : EngineCall) :
    (call.timerEvents perform c h).count .tick = if call.isTick then 1 else 0 := by
  cases call with
  | step =>
    rw [timerEvents]
    cases h.engines[c]? with
    | none => rfl
    | some e =>
      show (e.machine.timerEvents _).count .tick = 0
      by_cases hgoes : (stepEngine perform c h).1 = .ok .continue
      · rw [hgoes]
        exact count_tick_timerLoads e.machine
      · rw [Machine.timerEvents_of_ne hgoes]
        rfl
  | _ => rfl

theorem count_tick_timerHistory (perform : Request → HostM Reply) (c : Nat) (h : Host)
    (calls : List EngineCall) :
    (timerHistory perform c h calls).count .tick = calls.countP isTick := by
  induction calls generalizing h with
  | nil => rfl
  | cons call rest ih =>
    rw [timerHistory, List.count_append, ih, count_tick_timerEvents, List.countP_cons,
      Nat.add_comm]

end EngineCall

open HostM EngineCall TimerEvent

theorem Engine.Poised.readDelay_completes {e : Engine} {h : Host} {c : Nat} {x : Register}
    (hp : e.Poised h c) (perform : Request → HostM Reply)
    (hreads : (Instruction.readDelay x).Reads e.machine.word) :
    ∃ m, Completes perform h c e m ∧ m.v x = e.machine.timers.delay.toNat ∧
      m.timers = e.machine.timers := by
  refine ⟨_, hp.completes hreads rfl, ?_, rfl⟩
  exact (Machine.v_setV e.machine.passed x x _).trans (if_pos rfl)

/-- **The timers show their history.**  Take a new engine and any run of calls on it: steps of
whatever program, ticks, keys, and all the others that write no registers.  The host may have
requests of its own in the middle of steps.  Then each timer shows the value with which a step has
loaded it last, less the ticks since then, but not less than zero; the engine counts as many ticks
as there were; and a step at the word that reads the delay timer goes on and brings just this value
into its register. -/
theorem timers_show_history (depth : Nat) {h : Host} {c : Nat} {dialect : Dialect}
    {draws : List (Draw Request)} {owner : Option Nat} {generation : Int}
    (he : h.engines[c]? = some (Engine.fresh dialect draws owner generation))
    (calls : List EngineCall) :
    let perform := performWithin depth
    let h' := (makeAll perform c calls h).2
    let t := timerHistory perform c h calls
    ∃ e, h'.engines[c]? = some e ∧
      (e.machine.timers.delay.toNat : Int) = max 0 (lastLoaded .delay t - ticksSince .delay t) ∧
      (e.machine.timers.sound.toNat : Int) = max 0 (lastLoaded .sound t - ticksSince .sound t) ∧
      e.machine.timers.ticks = calls.countP isTick ∧
      ∀ x, e.started = true → e.machine.halted = none → e.machine.OnProgram →
        (Instruction.readDelay x).Reads e.machine.word →
        ∃ m, Completes perform h' c e m ∧ m.timers = e.machine.timers ∧
          m.v x = max 0 (lastLoaded .delay t - ticksSince .delay t) := by
  intro perform h' t
  obtain ⟨e, he', hfree, hr⟩ := records_makeAll perform he rfl Timers.records_fresh calls
  rw [List.nil_append] at hr
  refine ⟨e, he', hr.value_eq .delay, hr.value_eq .sound, ?_, ?_⟩
  · exact hr.ticks_eq.trans (count_tick_timerHistory perform c h calls)
  · intro x hstarted hrun hc hreads
    obtain ⟨m, hm, hv, htimers⟩ :=
      Engine.Poised.readDelay_completes ⟨he', hstarted, hfree, hrun, hc⟩ perform hreads
    refine ⟨m, hm, htimers, ?_⟩
    rw [hv]
    exact hr.value_eq .delay

/-- The delay timer is set to five and ticks twice.  Then a step wants a random number, and the tick
before the number is refused, and the step with it. -/
def countdownCalls : List EngineCall :=
  [.load [0x60, 0x05, 0xF0, 0x15, 0xC1, 0xFF, 0xF2, 0x07] "COUNT", .start, .step, .step, .tick,
    .key 5 true, .tick, .step]

/-- The timer shows three, and the next step reads it. -/
theorem timers_show_history_of_countdown :
    let h := newHost .plain [⟨some (.tick 1), 7⟩]
    ∃ e m, (makeAll (performWithin 9) 0 countdownCalls h).2.engines[0]? = some e ∧
      e.machine.timers.delay.toNat = 3 ∧ e.machine.timers.ticks = 2 ∧
      Completes (performWithin 9) (makeAll (performWithin 9) 0 countdownCalls h).2 0 e m ∧
      m.v 2 = 3 := by
  intro h
  have hhistory : timerHistory (performWithin 9) 0 h countdownCalls =
      [.load .delay 5, .tick, .tick] := by
    decide +kernel
  have hstate : ((makeAll (performWithin 9) 0 countdownCalls h).2.engines[0]?.map
      fun e => (e.standsAt 0xF207, e.machine.completed)) = some (true, 2) := by
    decide +kernel
  obtain ⟨e, he, hdelay, -, hticks, hread⟩ :=
    timers_show_history 9 (h := h) (c := 0) rfl countdownCalls
  obtain ⟨e', hp, hword, -⟩ := Engine.exists_poised hstate
  rw [hp.engine_eq] at he
  cases he
  have hreads : (Instruction.readDelay 2).Reads e.machine.word := by
    rw [hword]
    exact ⟨by decide, rfl⟩
  obtain ⟨m, hm, -, hv⟩ := hread 2 hp.started hp.running hp.onProgram hreads
  rw [hhistory] at hdelay hv
  have hthree : (max 0 (lastLoaded .delay [.load .delay 5, .tick, .tick] -
      ticksSince .delay [.load .delay 5, .tick, .tick]) : Int) = 3 := by
    decide
  exact ⟨e, m, hp.engine_eq, by omega, hticks, hm, hv.trans hthree⟩

end Chip8
