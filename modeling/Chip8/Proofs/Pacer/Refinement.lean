import Chip8.Proofs.Pacer.Tracking

/-!
# Pacers without frame callback make plain runs

Batches, pauses and keys, in any order, take a pacer that has been powered on and
the plain run of its engine from one state to the other alike.

* `tracks_make`: one call on both sides.
* `tracks_powerOn`: a pacer that has just been powered on tracks the run that
  begins with its engine.
* `powered_run_is_plain`: whatever is asked of a pacer that has been powered on,
  a plain run does the same.
-/

namespace Chip8

def PacerCall.make (perform : Request → HostM Reply) (p c : Nat) :
    PacerCall → Host → List (Except Refusal (Option Status)) × Host
  | .run count, h => ([(HostM.runSteps perform p count h).1], (HostM.runSteps perform p count h).2)
  | .pause, h => ([], (HostM.pause perform p h).2)
  | .resume, h => ([], (HostM.resume perform p h).2)
  | .key code down, h => ([], (HostM.setKey c code down h).2)

variable {x : Handle} {p T start : Nat} {s : PlainRun} {h : Host} {q : Pacer}

namespace Pacer

theorem Paces.setPower (hq : q.Paces x T start s) (hon : s.power ≠ .stopped) (power : Power)
    (hp : power ≠ .stopped) (nextOrder : Nat) (base : Int) :
    { q with power, nextOrder, base }.Paces x T start { s with power } :=
  ⟨hq.handle_eq, hq.interval_eq, hq.count_eq, rfl, hq.lastStatus_eq, fun hs => absurd hs hp,
    fun _ => hq.on hon⟩

theorem InOrder.paces_startPeriodic (hq : q.InOrder) (hframes : q.frames = none)
    (hstopped : q.power = .stopped) (e : Engine) (base : Int) :
    { q with power := .running, base }.startPeriodic.Paces q.handle q.timerInterval q.count
      ⟨e, 0, .running, q.lastStatus⟩ := by
  obtain ⟨hschedule, hactive⟩ := hq.idle hframes hstopped
  have hidle : ¬{ q with power := Power.running, base }.timerActive = true := by
    show ¬q.timerActive = true
    rw [hactive]
    decide
  have hnone : (q.frameActive || q.frames.isNone) = true := by
    rw [hframes, Option.isNone_none, Bool.or_true]
  have hstart : { q with power := Power.running, base }.startPeriodic =
      { q with power := .running, base, timerActive := true }.enqueue .tickTimers
        q.timerInterval := by
    rw [Pacer.startPeriodic, if_pos rfl, Pacer.startTimers, if_neg hidle, Pacer.startFrames]
    exact if_pos hnone
  have hclock : (q.count : Int) + (q.timerInterval : Nat) =
      ((q.count + nextMultiple q.timerInterval 0 : Nat) : Int) := by
    rw [nextMultiple, Nat.zero_div, Nat.zero_add, Nat.one_mul]
    rfl
  rw [hstart]
  refine ⟨rfl, rfl, rfl, rfl, rfl, by rintro ⟨⟩, fun _ => ⟨rfl, q.nextOrder, ?_⟩⟩
  show q.schedule.insert ⟨(q.count : Int) + (q.timerInterval : Nat), q.nextOrder, .tickTimers⟩ = _
  rw [hschedule, hclock]
  rfl

end Pacer

namespace HostM

variable (perform : Request → HostM Reply)

/-! ### Calls -/

theorem readClock_changes (k : Nat) (h : Host) :
    (readClock k h).2 = { h with clocks := h.clocks.modify k Clock.read } := by
  rw [readClock, bind_of_ok (modify_apply _ h), bind_of_ok (get_apply _)]
  cases (h.clocks.modify k Clock.read)[k]? <;> rfl

theorem rebase_changes (hq : h.pacers[p]? = some q) : ∃ base,
    (rebase p h).2.engines = h.engines ∧ (rebase p h).2.sessions = h.sessions ∧
      (rebase p h).2.pacers[p]? = some { q with base } := by
  rw [rebase, bind_of_ok (pacerAt_apply hq), bind_apply]
  have hread : (readClock q.clock h).2 =
      { h with clocks := h.clocks.modify q.clock Clock.read } := readClock_changes q.clock h
  rcases hr : readClock q.clock h with ⟨r | now, h'⟩ <;> rw [hr] at hread <;> subst hread
  · exact ⟨q.base, rfl, rfl, hq⟩
  · dsimp only
    rcases Pace.baseTime now q.count q.rate with failure | base
    · exact ⟨q.base, rfl, rfl, hq⟩
    · refine ⟨base, rfl, rfl, ?_⟩
      show ({ h with clocks := _, pacers := h.pacers.modify p _ } : Host).pacers[p]? = _
      rw [modify_eq_setIfInBounds hq]
      exact Host.pacers_putPacer (h := h) hq

/-! ### Tracking -/

theorem tracks_runSteps (hT : 0 < T) (ht : h.Tracks x p T start s) (count : Int) :
    ((PacerCall.run count).make perform p x.engine h).1 = (PlainRun.answer T (.run count) s).1 ∧
      ((PacerCall.run count).make perform p x.engine h).2.Tracks x p T start
        (PlainRun.answer T (.run count) s).2 ∧
      ((PacerCall.run count).make perform p x.engine h).2.sessions = h.sessions := by
  obtain ⟨hanswer, ht', hsame⟩ := tracks_batch perform hT count.toNat ht
  rw [PacerCall.make, PlainRun.answer, runSteps_eq, bind_apply]
  rcases hb : batch perform p count.toNat h with ⟨outcome, h'⟩
  rcases hs : s.run T count.toNat with ⟨outcome', s'⟩
  rw [hb, hs] at hanswer ht'
  rw [hb] at hsame
  have hsessions : h'.sessions = h.sessions := hsame.sessions_eq
  obtain rfl : outcome = outcome' := hanswer
  cases outcome with
  | error r => exact ⟨rfl, ht', hsessions⟩
  | ok _ =>
    obtain ⟨q, hq, hpaces⟩ := ht'.pacer
    have hreport : report p h' = (.ok s'.lastStatus, h') := by
      rw [report, bind_of_ok (pacerAt_apply hq), pure_apply, hpaces.lastStatus_eq]
    dsimp only
    rw [hreport]
    exact ⟨rfl, ht', hsessions⟩

theorem tracks_pause (hT : 0 < T) (ht : h.Tracks x p T start s) :
    (pause perform p h).2.Tracks x p T start (PlainRun.answer T .pause s).2 ∧
      (pause perform p h).2.sessions = h.sessions := by
  obtain ⟨q, hq, hpaces⟩ := ht.pacer
  rw [pause, bind_of_ok (pacerAt_apply hq), PlainRun.answer, hpaces.power_eq]
  by_cases hrun : s.power = .running
  · have hq' : (h.putPacer p { q with nextOrder := q.nextOrder + 1 }).pacers[p]? =
        some { q with nextOrder := q.nextOrder + 1 } := Host.pacers_putPacer hq
    have hon : s.power ≠ .stopped := by
      rw [hrun]
      decide
    have hpause : { q with nextOrder := q.nextOrder + 1 }.pauseNow =
        { q with power := .paused, nextOrder := q.nextOrder + 1 } :=
      if_pos (hpaces.power_eq.trans hrun)
    rw [if_pos hrun, if_pos hrun, cueNow_of_ahead perform hq (hpaces.ahead hT), fire,
      modifyPacer_apply hq', hpause]
    have hpaces' := hpaces.setPower hon .paused (by decide) (q.nextOrder + 1) q.base
    exact ⟨tracks_of_eq ht ht.engine ⟨rfl, rfl, rfl, rfl, rfl⟩ ht.plain rfl
      ⟨_, Host.pacers_putPacer hq', hpaces'⟩, rfl⟩
  · rw [if_neg hrun, if_neg hrun]
    exact ⟨ht, rfl⟩

theorem tracks_resume (hT : 0 < T) (ht : h.Tracks x p T start s) :
    (resume perform p h).2.Tracks x p T start (PlainRun.answer T .resume s).2 ∧
      (resume perform p h).2.sessions = h.sessions := by
  obtain ⟨q, hq, hpaces⟩ := ht.pacer
  rw [resume, bind_of_ok (pacerAt_apply hq), PlainRun.answer, hpaces.power_eq]
  by_cases hpaused : s.power = .paused
  · have hq' : (h.putPacer p { q with nextOrder := q.nextOrder + 1 }).pacers[p]? =
        some { q with nextOrder := q.nextOrder + 1 } := Host.pacers_putPacer hq
    have hon : s.power ≠ .stopped := by
      rw [hpaused]
      decide
    have hrests : q.power ≠ .running := by
      rw [hpaces.power_eq, hpaused]
      decide
    -- Whether the new base is refused or not, the pacer runs.
    obtain ⟨base, hengines, hsessions, hpacer⟩ := rebase_changes (Host.pacers_putPacer hq')
    rw [if_pos hpaused, if_pos hpaused, cueNow_of_ahead perform hq (hpaces.ahead hT), fire,
      bind_of_ok (pacerAt_apply hq'), if_pos hrests, bind_of_ok (modifyPacer_apply hq' _)]
    have hpaces' := hpaces.setPower hon .running (by decide) (q.nextOrder + 1) base
    refine ⟨tracks_of_eq ht ?_ ⟨rfl, rfl, rfl, rfl, rfl⟩ ht.plain hsessions
      ⟨_, hpacer, hpaces'⟩, hsessions⟩
    rw [hengines]
    exact ht.engine
  · rw [if_neg hpaused, if_neg hpaused]
    exact ⟨ht, rfl⟩

theorem tracks_setKey (ht : h.Tracks x p T start s) (code : Int) (down : Bool) :
    (setKey x.engine code down h).2.Tracks x p T start
        (PlainRun.answer T (.key code down) s).2 ∧
      (setKey x.engine code down h).2.sessions = h.sessions := by
  obtain ⟨q, hq, hpaces⟩ := ht.pacer
  have hplain : (s.engine.keyed code down).source.IsPlain := by
    rw [Engine.keyed]
    split <;> exact ht.plain
  rw [setKey_apply ht.engine ht.free]
  exact ⟨tracks_of_eq ht (Host.engines_putEngine ht.engine) (s.engine.sameRole_keyed code down)
    hplain rfl ⟨q, hq, hpaces.setEngine _⟩, rfl⟩

/-- **A call** leaves both sides in step, and both answer alike.  It does nothing to the
sessions. -/
theorem tracks_make (hT : 0 < T) (ht : h.Tracks x p T start s) (call : PacerCall) :
    (call.make perform p x.engine h).1 = (PlainRun.answer T call s).1 ∧
      (call.make perform p x.engine h).2.Tracks x p T start (PlainRun.answer T call s).2 ∧
      (call.make perform p x.engine h).2.sessions = h.sessions := by
  cases call with
  | run count => exact tracks_runSteps perform hT ht count
  | pause => exact ⟨rfl, tracks_pause perform hT ht⟩
  | resume => exact ⟨rfl, tracks_resume perform hT ht⟩
  | key code down => exact ⟨rfl, tracks_setKey ht code down⟩

theorem tracks_replay (hT : 0 < T) (calls : List PacerCall) {s : PlainRun} {h : Host}
    (ht : h.Tracks x p T start s) :
    (replay (PacerCall.make perform p x.engine) calls h).1 =
        (replay (PlainRun.answer T) calls s).1 ∧
      (replay (PacerCall.make perform p x.engine) calls h).2.Tracks x p T start
        (replay (PlainRun.answer T) calls s).2 := by
  induction calls generalizing s h with
  | nil => exact ⟨rfl, ht⟩
  | cons call rest ih =>
    obtain ⟨hanswer, ht', -⟩ := tracks_make perform hT ht call
    obtain ⟨hanswers, htracks⟩ := ih ht'
    refine ⟨?_, htracks⟩
    rw [replay, replay, hanswer, hanswers]

theorem powerOn_eq_ok {h' : Host} (hq : h.pacers[p]? = some q) (hon : powerOn p h = (.ok (), h')) :
    ∃ base, h'.engines = h.engines ∧ h'.sessions = h.sessions ∧
      h'.pacers[p]? = some ({ q with power := .running, base } : Pacer).startPeriodic := by
  have hq' : (h.putPacer p { q with power := .running }).pacers[p]? =
      some { q with power := .running } := Host.pacers_putPacer hq
  obtain ⟨base, hengines, hsessions, hpacer⟩ := rebase_changes hq'
  rw [powerOn, bind_of_ok (modifyPacer_apply hq _), bind_apply] at hon
  rcases hb : rebase p (h.putPacer p { q with power := .running }) with ⟨r | _, h₁⟩ <;>
    rw [hb] at hon hengines hsessions hpacer
  · cases hon
  · dsimp only at hon hpacer
    rw [modifyPacer_apply hpacer] at hon
    cases hon
    exact ⟨base, hengines, hsessions, Host.pacers_putPacer hpacer⟩

/-- **A pacer that has just been powered on** is at the beginning of the plain run. -/
theorem tracks_powerOn {e : Engine} (hq : h.pacers[p]? = some q) (horder : q.InOrder)
    (hframes : q.frames = none) (hstopped : q.power = .stopped)
    (he : h.engines[q.handle.engine]? = some e) (hstarted : e.started = true)
    (hfree : e.busy = false) (hplain : e.source.IsPlain)
    (hcurrent : (isCurrent q.handle h).1 = .ok true) (hon : (powerOn p h).1 = .ok ()) :
    (powerOn p h).2.Tracks q.handle p q.timerInterval q.count ⟨e, 0, .running, q.lastStatus⟩ := by
  obtain ⟨base, hengines, hsessions, hpacer⟩ := powerOn_eq_ok hq (Prod.ext hon rfl)
  have he' : (powerOn p h).2.engines[q.handle.engine]? = some e := by
    rw [hengines]
    exact he
  refine ⟨he', hstarted, hfree, hplain, ?_, _, hpacer,
    horder.paces_startPeriodic hframes hstopped e base⟩
  rw [isCurrent_congr he he' rfl rfl rfl hsessions]
  exact hcurrent

end HostM

/-- **A pacer is a plain run.**  Take a pacer without frame callback whose engine has been started,
whose handle is current, and that has been powered on.  Whatever is asked of it, the answers, the
engine, the count, the power and the last status are those of the run that makes one step after the
other and ticks the timers after every `T`-th one; and until the program halts the timers have
ticked once for each `T` steps. -/
theorem powered_run_is_plain {e : Engine} (hr : h.Reachable) (hq : h.pacers[p]? = some q)
    (hframes : q.frames = none) (hstopped : q.power = .stopped)
    (he : h.engines[q.handle.engine]? = some e) (hstarted : e.started = true)
    (hplain : e.source.IsPlain) (hcurrent : (HostM.isCurrent q.handle h).1 = .ok true)
    (hon : (HostM.powerOn p h).1 = .ok ()) (perform : Request → HostM Reply)
    (calls : List PacerCall) :
    let made := replay (PacerCall.make perform p q.handle.engine) calls (HostM.powerOn p h).2
    let plain := replay (PlainRun.answer q.timerInterval) calls ⟨e, 0, .running, q.lastStatus⟩
    made.1 = plain.1 ∧
      made.2.engines[q.handle.engine]? = some plain.2.engine ∧
      (∃ q', made.2.pacers[p]? = some q' ∧ q'.count = q.count + plain.2.steps ∧
        q'.power = plain.2.power ∧ q'.lastStatus = plain.2.lastStatus) ∧
      (plain.2.power ≠ .stopped → plain.2.engine.machine.timers.ticks =
        e.machine.timers.ticks + plain.2.steps / q.timerInterval) := by
  intro made plain
  have horder : q.InOrder := hr.inOrder p q hq
  have hbegins := HostM.tracks_powerOn hq horder hframes hstopped he hstarted (hr.free he) hplain
    hcurrent hon
  obtain ⟨hanswers, htracks⟩ := HostM.tracks_replay perform horder.timer_pos calls hbegins
  obtain ⟨q', hq', hpaces⟩ := htracks.pacer
  have hbegin : PlainRun.OnTime q.timerInterval e.machine.timers.ticks
      ⟨e, 0, .running, q.lastStatus⟩ := by
    intro _
    rw [Nat.zero_div]
    rfl
  exact ⟨hanswers, htracks.engine,
    ⟨q', hq', hpaces.count_eq, hpaces.power_eq, hpaces.lastStatus_eq⟩,
    PlainRun.onTime_replay hbegin calls⟩

/-- A host with a pacer that executes two steps between two ticks of the timers. -/
def idleHost : Host :=
  jumpingHost 120 (1 / 60) none (.steady 0 0) []

def idlePacer : Pacer :=
  idleHost.pacers[0]?.get (by decide +kernel)

def idleEngine : Engine :=
  idleHost.engines[0]?.get (by decide +kernel)

/-- Two steps with a pause between them. -/
def pausingCalls : List PacerCall :=
  [.run 1, .pause, .run 5, .key 0xA true, .resume, .run 1]

/-- The batch in the pause has no steps, and the timers tick after the second step. -/
theorem powered_run_is_plain_of_pause :
    let made := replay (PacerCall.make (HostM.performWithin 9) 0 idlePacer.handle.engine)
      pausingCalls (HostM.powerOn 0 idleHost).2
    let plain := replay (PlainRun.answer idlePacer.timerInterval) pausingCalls
      ⟨idleEngine, 0, .running, idlePacer.lastStatus⟩
    made.1 = plain.1 ∧ made.2.engines[idlePacer.handle.engine]? = some plain.2.engine ∧
      plain.2.engine.machine.timers.ticks =
        idleEngine.machine.timers.ticks + plain.2.steps / idlePacer.timerInterval := by
  have hreachable : idleHost.Reachable := reachable_jumpingHost _ _ _ _ _
  have hq : idleHost.pacers[0]? = some idlePacer := (Option.some_get _).symm
  have hzero : idlePacer.handle.engine = 0 := by decide +kernel
  have he : idleHost.engines[idlePacer.handle.engine]? = some idleEngine := by
    rw [hzero]
    exact (Option.some_get _).symm
  have hframes : idlePacer.frames = none := Option.isNone_iff_eq_none.mp (by decide +kernel)
  have hstopped : idlePacer.power = .stopped := by decide +kernel
  have hstarted : idleEngine.started = true := by decide +kernel
  have hplain : idleEngine.source.IsPlain := by
    have hnil : idleEngine.source.draws.isEmpty = true := by decide +kernel
    intro d hd
    rw [List.isEmpty_iff.mp hnil] at hd
    cases hd
  have hcurrent : (HostM.isCurrent idlePacer.handle idleHost).1 = .ok true :=
    eq_ok_of_toOption (by decide +kernel)
  have hon : (HostM.powerOn 0 idleHost).1 = .ok () := eq_ok_of_toOption (by decide +kernel)
  have hrunning : (replay (PlainRun.answer idlePacer.timerInterval) pausingCalls
      ⟨idleEngine, 0, .running, idlePacer.lastStatus⟩).2.power ≠ .stopped := by decide +kernel
  obtain ⟨hanswers, hengine, -, hticks⟩ := powered_run_is_plain hreachable hq hframes hstopped he
    hstarted hplain hcurrent hon (HostM.performWithin 9) pausingCalls
  exact ⟨hanswers, hengine, hticks hrunning⟩

end Chip8
