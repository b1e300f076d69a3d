import Chip8.Proofs.Pacer.Rate
import Chip8.Proofs.Pacer.Regular

/-!
# The timers after a change of the rate

A pacer that runs begins its regular cues anew when its rate changes: the next tick
of the timers comes one new interval later, and from then on the pacer makes a plain
run with the new interval.  A pacer that has paused keeps its schedule, with the tick
where the old interval has put it.

* `paces_restarted`, `tracks_restarted`: the plain run that begins with a new rate.
* `new_rate_begins_ticks_anew`: what a change of the rate does to the ticks.
-/

namespace Chip8

namespace Pacer

variable {q : Pacer}

/-- A pacer without frame callback that runs has one tick on its schedule when its regular cues have
begun anew. -/
theorem restarted_of_runs (hframes : q.frames = none) (hrun : q.power = .running) :
    q.restarted = { q with
      schedule := ⟨[⟨((q.count + q.timerInterval : Nat) : Int), q.nextOrder, .tickTimers⟩]⟩
      nextOrder := q.nextOrder + 1
      timerActive := true
      frameActive := false } := by
  have hcleared : q.stopPeriodic.clearSchedule.power = .running := hrun
  have hunwanted : ¬q.stopPeriodic.clearSchedule.timerActive = true := by
    intro hactive
    cases hactive
  have hnone : (q.stopPeriodic.clearSchedule.startTimers.frameActive ||
      q.stopPeriodic.clearSchedule.startTimers.frames.isNone) = true := by
    rw [startTimers, if_neg hunwanted]
    show (false || q.frames.isNone) = true
    rw [hframes]
    rfl
  rw [restarted, if_pos hrun, startPeriodic, if_pos hcleared, startFrames, if_pos hnone,
    startTimers, if_neg hunwanted]
  rfl

theorem restarted_of_rests (hrest : q.power ≠ .running) : q.restarted = q :=
  if_neg hrest

theorem paces_restarted (hframes : q.frames = none) (hrun : q.power = .running) (e : Engine) :
    q.restarted.Paces q.handle q.timerInterval q.count ⟨e, 0, .running, q.lastStatus⟩ := by
  have hfirst : nextMultiple q.timerInterval 0 = q.timerInterval := by
    rw [nextMultiple, Nat.zero_div, Nat.zero_add, Nat.one_mul]
  rw [restarted_of_runs hframes hrun]
  refine ⟨rfl, rfl, rfl, hrun, rfl, by rintro ⟨⟩, fun _ => ⟨rfl, q.nextOrder, ?_⟩⟩
  rw [hfirst]

end Pacer

namespace HostM

variable {h h' : Host} {p : Nat} {q : Pacer}

theorem tracks_restarted {e : Engine} (hframes : q.frames = none) (hrun : q.power = .running)
    (he : h.engines[q.handle.engine]? = some e) (hstarted : e.started = true)
    (hfree : e.busy = false) (hplain : e.source.IsPlain)
    (hcurrent : (isCurrent q.handle h).1 = .ok true) (hpacer : h'.pacers[p]? = some q.restarted)
    (hengines : h'.engines = h.engines) (hsessions : h'.sessions = h.sessions) :
    h'.Tracks q.handle p q.timerInterval q.count ⟨e, 0, .running, q.lastStatus⟩ where
  engine := by
    rw [hengines]
    exact he
  started := hstarted
  free := hfree
  plain := hplain
  current := by
    rw [isCurrent_of_eq hengines hsessions]
    exact hcurrent
  pacer := ⟨q.restarted, hpacer, Pacer.paces_restarted hframes hrun e⟩

end HostM

/-- **A new rate begins the ticks of the timers anew, if the pacer runs.**  Take a pacer without
frame callback in a host that requests lead to, and a change of its rate that is not refused.  Power
and count stay, and the new interval follows from the new rate.  If the pacer runs, one tick is on
its schedule, one new interval ahead, and nothing else is; and whatever is asked of it from then on,
it makes the plain run with the new interval, so that until the program halts the timers tick once
for each new interval of steps.  If it does not run, its schedule stays as it was, with at most one
tick on it. -/
theorem new_rate_begins_ticks_anew {h h' : Host} (hr : h.Reachable) {p : Nat} {q : Pacer}
    (hq : h.pacers[p]? = some q) (hframes : q.frames = none) {rate : Float}
    (hset : HostM.setRate p rate h = (.ok (), h')) :
    ∃ T q', Pace.timerInterval rate q.timerFrequency = .ok T ∧ 0 < T ∧
      h'.pacers[p]? = some q' ∧ q'.timerInterval = T ∧ q'.count = q.count ∧ q'.power = q.power ∧
      (q.power = .running →
        (∃ order, q'.schedule = ⟨[⟨((q.count + T : Nat) : Int), order, .tickTimers⟩]⟩) ∧
        ∀ e, h.engines[q.handle.engine]? = some e → e.started = true → e.source.IsPlain →
          (HostM.isCurrent q.handle h).1 = .ok true →
          ∀ (perform : Request → HostM Reply) (calls : List PacerCall),
            let made := replay (PacerCall.make perform p q.handle.engine) calls h'
            let plain := replay (PlainRun.answer T) calls ⟨e, 0, .running, q.lastStatus⟩
            made.1 = plain.1 ∧ made.2.engines[q.handle.engine]? = some plain.2.engine ∧
              (plain.2.power ≠ .stopped → plain.2.engine.machine.timers.ticks =
                e.machine.timers.ticks + plain.2.steps / T)) ∧
      (q.power ≠ .running → q'.schedule = q.schedule ∧ q'.pending .tickTimers ≤ 1) := by
  obtain ⟨base, T, frameInterval, htimer, hframe, hpacer, hengines, hsessions⟩ :=
    HostM.setRate_eq_ok hq hset
  have hpos : 0 < T := Pace.interval_pos htimer
  refine ⟨T, _, htimer, hpos, hpacer, ?_⟩
  by_cases hrun : q.power = .running
  · have hanew := Pacer.restarted_of_runs (q := { q with
      rate, base, timerInterval := T, frameInterval }) hframes hrun
    refine ⟨by rw [hanew], by rw [hanew], by rw [hanew], fun _ => ⟨?_, ?_⟩, fun h => absurd hrun h⟩
    · rw [hanew]
      exact ⟨_, rfl⟩
    · intro e he hstarted hplain hcurrent perform calls
      have hbegins : h'.Tracks q.handle p T q.count ⟨e, 0, .running, q.lastStatus⟩ :=
        HostM.tracks_restarted (q := { q with rate, base, timerInterval := T, frameInterval })
          hframes hrun he hstarted (hr.free he) hplain hcurrent hpacer hengines hsessions
      obtain ⟨hanswers, htracks⟩ := HostM.tracks_replay perform hpos calls hbegins
      have hontime : PlainRun.OnTime T e.machine.timers.ticks ⟨e, 0, .running, q.lastStatus⟩ := by
        intro _
        rw [Nat.zero_div]
        rfl
      exact ⟨hanswers, htracks.engine, PlainRun.onTime_replay hontime calls⟩
  · have hkept := Pacer.restarted_of_rests (q := { q with
      rate, base, timerInterval := T, frameInterval }) hrun
    have hcalm : q.IsCalm := by
      intro script hscript
      rw [hframes] at hscript
      cases hscript
    rw [hkept]
    refine ⟨rfl, rfl, rfl, fun h => absurd h hrun, fun _ => ⟨rfl, ?_⟩⟩
    exact (hr.planned p q hq hcalm).pending_le_one (.inl rfl)

/-- A host with a pacer that has executed three steps of the four between two ticks. -/
def slowHost : Host :=
  jumpingHost 240 (1 / 60) none (.steady 0 0) [.powerOn, .runSteps 3]

def slowPacer : Pacer :=
  slowHost.pacers[0]?.get (by decide +kernel)

def slowEngine : Engine :=
  slowHost.engines[0]?.get (by decide +kernel)

/-- With half the rate the next tick comes two steps later, after the fifth one. -/
theorem new_rate_begins_ticks_anew_of_half :
    let made := replay (PacerCall.make (HostM.performWithin 9) 0 slowPacer.handle.engine)
      [.run 1, .pause, .resume, .run 1] (HostM.setRate 0 120 slowHost).2
    ∃ q', (HostM.setRate 0 120 slowHost).2.pacers[0]? = some q' ∧ q'.timerInterval = 2 ∧
      (∃ order, q'.schedule = ⟨[⟨5, order, .tickTimers⟩]⟩) ∧
      ∃ e', made.2.engines[slowPacer.handle.engine]? = some e' ∧
        e'.machine.timers.ticks = slowEngine.machine.timers.ticks + 1 := by
  intro made
  have hr : slowHost.Reachable := reachable_jumpingHost _ _ _ _ _
  have hq : slowHost.pacers[0]? = some slowPacer := (Option.some_get _).symm
  have hpacer : slowPacer.handle.engine = 0 ∧ slowPacer.frames.isNone = true ∧
      slowPacer.power = .running ∧ slowPacer.count = 3 ∧
      (Pace.timerInterval 120 slowPacer.timerFrequency).toOption = some 2 := by decide +kernel
  obtain ⟨hzero, hframes, hrun, hcount, hpace⟩ := hpacer
  have hengine : slowEngine.started = true ∧ slowEngine.source.draws.isEmpty = true ∧
      (HostM.isCurrent slowPacer.handle slowHost).1.toOption = some true := by decide +kernel
  obtain ⟨hstarted, hempty, hcurrent⟩ := hengine
  have hset : (HostM.setRate 0 120 slowHost).1.toOption = some () := by decide +kernel
  have he : slowHost.engines[slowPacer.handle.engine]? = some slowEngine := by
    rw [hzero]
    exact (Option.some_get _).symm
  have hplain : slowEngine.source.IsPlain := by
    intro d hd
    rw [List.isEmpty_iff.mp hempty] at hd
    cases hd
  obtain ⟨T, q', hT, -, hq', hinterval, -, -, hrunning, -⟩ :=
    new_rate_begins_ticks_anew hr hq (Option.isNone_iff_eq_none.mp hframes)
      (eq_of_toOption hset)
  rw [hT] at hpace
  obtain rfl : T = 2 := Option.some.inj hpace
  obtain ⟨⟨order, hschedule⟩, hticks⟩ := hrunning hrun
  rw [hcount] at hschedule
  obtain ⟨-, hmade, hon⟩ := hticks slowEngine he hstarted hplain
    (eq_ok_of_toOption hcurrent) (HostM.performWithin 9) [.run 1, .pause, .resume, .run 1]
  have hplainRun : (replay (PlainRun.answer 2) [.run 1, .pause, .resume, .run 1]
      ⟨slowEngine, 0, .running, slowPacer.lastStatus⟩).2.power ≠ .stopped ∧
      (replay (PlainRun.answer 2) [.run 1, .pause, .resume, .run 1]
        ⟨slowEngine, 0, .running, slowPacer.lastStatus⟩).2.steps = 2 := by decide +kernel
  have hone := hon hplainRun.1
  rw [hplainRun.2] at hone
  exact ⟨q', hq', hinterval, ⟨order, hschedule⟩, _, hmade, hone⟩

/-- A host with a pacer that has been powered on and paused; its tick is ten steps ahead. -/
def pausedHost : Host :=
  jumpingHost 600 (1 / 60) none (.steady 0 0) [.powerOn, .pause]

/-- **A pacer that has paused ticks at its old rate first.**  After a change to a rate of one step
for each tick, the tick on its schedule is still ten steps ahead. -/
theorem paused_pacer_keeps_old_tick :
    (HostM.setRate 0 60 pausedHost).1.toOption = some () ∧
      ((HostM.setRate 0 60 pausedHost).2.pacers[0]?.map fun q =>
        (q.power, q.count, q.timerInterval, q.schedule.events.map Event.clock)) =
        some (.paused, 0, 1, [10]) := by
  decide +kernel

end Chip8
