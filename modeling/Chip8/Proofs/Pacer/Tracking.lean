import Chip8.Proofs.Pacer.Batches
import Chip8.Proofs.Pacer.PlainRun

/-!
# Pacers that track a plain run

A pacer that has no frame callback lets nothing happen between its steps but the
ticks of the timers.  While it is on, its schedule holds exactly one of them, at
the next multiple of its interval.  `Host.Tracks` says so, and that engine, count,
power and last status are those of a plain run.

* `round_of_refused`, `round_of_halted`, `round_of_passed`: a round keeps up with
  a step of the plain run, however this ends.
* `tracks_batch`: a batch of the pacer is one of the plain run.
-/

namespace Chip8

/-! ### What an engine is to its host -/

/-- Both engines have the same standing with the host. -/
structure Engine.SameRole (e e' : Engine) : Prop where
  started_eq : e'.started = e.started
  busy_eq : e'.busy = e.busy
  retired_eq : e'.retired = e.retired
  owner_eq : e'.owner = e.owner
  generation_eq : e'.generation = e.generation

namespace Engine

theorem sameRole_stepped (e : Engine) : e.SameRole e.stepped := by
  obtain ⟨source, lastStatus, heq⟩ := e.stepped_eq
  rw [heq]
  exact ⟨rfl, rfl, rfl, rfl, rfl⟩

theorem sameRole_ticked (e : Engine) : e.SameRole e.ticked :=
  ⟨rfl, rfl, rfl, rfl, rfl⟩

theorem sameRole_keyed (e : Engine) (code : Int) (down : Bool) :
    e.SameRole (e.keyed code down) := by
  rw [keyed]
  split <;> exact ⟨rfl, rfl, rfl, rfl, rfl⟩

theorem SameRole.trans {e e' e'' : Engine} (h : e.SameRole e') (h' : e'.SameRole e'') :
    e.SameRole e'' where
  started_eq := h'.started_eq.trans h.started_eq
  busy_eq := h'.busy_eq.trans h.busy_eq
  retired_eq := h'.retired_eq.trans h.retired_eq
  owner_eq := h'.owner_eq.trans h.owner_eq
  generation_eq := h'.generation_eq.trans h.generation_eq

end Engine

/-! ### The next multiple -/

/-- The next multiple of `T` after `j`. -/
def nextMultiple (T j : Nat) : Nat :=
  (j / T + 1) * T

section Multiples

variable {T j : Nat}

theorem lt_nextMultiple (hT : 0 < T) : j < nextMultiple T j := by
  rw [nextMultiple, Nat.mul_comm]
  exact Nat.lt_mul_div_succ j hT

theorem nextMultiple_of_mod_eq_zero (h : (j + 1) % T = 0) : nextMultiple T j = j + 1 := by
  rw [nextMultiple, ← Nat.succ_div_of_mod_eq_zero h]
  exact Nat.div_mul_cancel (Nat.dvd_of_mod_eq_zero h)

theorem nextMultiple_succ_of_mod_eq_zero (h : (j + 1) % T = 0) :
    nextMultiple T (j + 1) = j + 1 + T := by
  rw [nextMultiple, Nat.succ_mul, Nat.div_mul_cancel (Nat.dvd_of_mod_eq_zero h)]

theorem nextMultiple_succ_of_mod_ne_zero (h : (j + 1) % T ≠ 0) :
    nextMultiple T (j + 1) = nextMultiple T j := by
  rw [nextMultiple, Nat.succ_div_of_mod_ne_zero h, nextMultiple]

end Multiples

/-! ### The relation -/

/-- The pacer is as far as the plain run, and its schedule holds the next tick of the timers. -/
structure Pacer.Paces (x : Handle) (T start : Nat) (s : PlainRun) (q : Pacer) : Prop where
  handle_eq : q.handle = x
  interval_eq : q.timerInterval = T
  count_eq : q.count = start + s.steps
  power_eq : q.power = s.power
  lastStatus_eq : q.lastStatus = s.lastStatus
  stopped : s.power = .stopped → q.schedule = .empty
  on : s.power ≠ .stopped → q.timerActive = true ∧ ∃ order,
    q.schedule = ⟨[⟨((start + nextMultiple T s.steps : Nat) : Int), order, .tickTimers⟩]⟩

/-- Engine and pacer of the host are as far as the plain run. -/
structure Host.Tracks (x : Handle) (p T start : Nat) (s : PlainRun) (h : Host) : Prop where
  engine : h.engines[x.engine]? = some s.engine
  started : s.engine.started = true
  free : s.engine.busy = false
  plain : s.engine.source.IsPlain
  current : (HostM.isCurrent x h).1 = .ok true
  pacer : ∃ q, h.pacers[p]? = some q ∧ q.Paces x T start s

/-- The hosts differ in their engines, their pacers and their logs only. -/
def Host.SameSurroundings (h h' : Host) : Prop :=
  ∃ engines pacers log, h' = { h with engines, pacers, log }

variable {x : Handle} {p T start : Nat} {s : PlainRun} {h : Host} {q : Pacer}

theorem Host.SameSurroundings.refl (h : Host) : h.SameSurroundings h :=
  ⟨_, _, _, rfl⟩

theorem Host.SameSurroundings.sessions_eq {h' : Host} (hs : h.SameSurroundings h') :
    h'.sessions = h.sessions := by
  obtain ⟨engines, pacers, log, rfl⟩ := hs
  rfl

theorem Host.SameSurroundings.trans {h' h'' : Host} (hs : h.SameSurroundings h')
    (hs' : h'.SameSurroundings h'') : h.SameSurroundings h'' := by
  obtain ⟨_, _, _, rfl⟩ := hs
  obtain ⟨engines, pacers, log, rfl⟩ := hs'
  exact ⟨engines, pacers, log, rfl⟩

namespace Pacer.Paces

theorem ahead (hT : 0 < T) (hq : q.Paces x T start s) : q.Ahead := by
  intro e he
  by_cases hp : s.power = .stopped
  · rw [hq.stopped hp] at he
    cases he
  · obtain ⟨-, order, hschedule⟩ := hq.on hp
    rw [hschedule] at he
    rcases List.mem_singleton.mp he with rfl
    have hlt : s.steps < nextMultiple T s.steps := lt_nextMultiple hT
    rw [hq.count_eq]
    show ((start + s.steps : Nat) : Int) < ((start + nextMultiple T s.steps : Nat) : Int)
    omega

theorem setEngine (hq : q.Paces x T start s) (engine : Engine) :
    q.Paces x T start { s with engine } :=
  ⟨hq.handle_eq, hq.interval_eq, hq.count_eq, hq.power_eq, hq.lastStatus_eq, hq.stopped, hq.on⟩

theorem count_countStep (hq : q.Paces x T start s) (status : Status) :
    (q.countStep status).count = start + (s.steps + 1) := by
  show q.count + 1 = _
  rw [hq.count_eq]
  rfl

theorem countStep_of_early (hq : q.Paces x T start s) (hearly : (s.steps + 1) % T ≠ 0) (e : Engine)
    (status : Status) :
    (q.countStep status).Paces x T start ⟨e, s.steps + 1, s.power, some status⟩ where
  handle_eq := hq.handle_eq
  interval_eq := hq.interval_eq
  count_eq := hq.count_countStep status
  power_eq := hq.power_eq
  lastStatus_eq := rfl
  stopped := hq.stopped
  on hp := by
    obtain ⟨hactive, order, hschedule⟩ := hq.on hp
    refine ⟨hactive, order, ?_⟩
    show q.schedule = ⟨[⟨((start + nextMultiple T (s.steps + 1) : Nat) : Int), order, .tickTimers⟩]⟩
    rw [nextMultiple_succ_of_mod_ne_zero hearly]
    exact hschedule

/-- A step that halts leaves nothing on the schedule. -/
theorem stopNow_countStep (hq : q.Paces x T start s) (e : Engine) (status : Status) :
    (q.countStep status).stopNow.Paces x T start ⟨e, s.steps + 1, .stopped, some status⟩ where
  handle_eq := hq.handle_eq
  interval_eq := hq.interval_eq
  count_eq := hq.count_countStep status
  power_eq := rfl
  lastStatus_eq := rfl
  stopped _ := rfl
  on hp := absurd rfl hp

/-- After a `T`-th step the tick on the schedule is due. -/
theorem schedule_of_due (hq : q.Paces x T start s) (hp : s.power ≠ .stopped)
    (hdue : (s.steps + 1) % T = 0) (status : Status) : ∃ order, (q.countStep status).schedule =
      ⟨[⟨(q.countStep status).count, order, .tickTimers⟩]⟩ := by
  obtain ⟨-, order, hschedule⟩ := hq.on hp
  refine ⟨order, ?_⟩
  show q.schedule = _
  rw [hschedule, nextMultiple_of_mod_eq_zero hdue, hq.count_countStep status]

theorem renewed (hq : q.Paces x T start s) (hp : s.power ≠ .stopped) (hdue : (s.steps + 1) % T = 0)
    (e : Engine) (status : Status) :
    ({ q.countStep status with schedule := .empty }.enqueue .tickTimers q.timerInterval).Paces x T
      start ⟨e, s.steps + 1, s.power, some status⟩ where
  handle_eq := hq.handle_eq
  interval_eq := hq.interval_eq
  count_eq := hq.count_countStep status
  power_eq := hq.power_eq
  lastStatus_eq := rfl
  stopped hs := absurd hs hp
  on _ := by
    refine ⟨(hq.on hp).1, q.nextOrder, ?_⟩
    have hclock : ((q.count + 1 : Nat) : Int) + (q.timerInterval : Nat) =
        ((start + nextMultiple T (s.steps + 1) : Nat) : Int) := by
      rw [nextMultiple_succ_of_mod_eq_zero hdue, hq.interval_eq, hq.count_eq]
      omega
    exact congrArg (fun clock => Schedule.mk [⟨clock, q.nextOrder, Cue.tickTimers⟩]) hclock

end Pacer.Paces

namespace HostM

/-! ### The handle stays current -/

theorem isCurrent_putPacer (x : Handle) (h : Host) (p : Nat) (q : Pacer) :
    (isCurrent x (h.putPacer p q)).1 = (isCurrent x h).1 :=
  isCurrent_of_eq rfl rfl

variable (perform : Request → HostM Reply)

theorem tracks_of_eq {s' : PlainRun} {h' : Host} (ht : h.Tracks x p T start s)
    (he : h'.engines[x.engine]? = some s'.engine) (hsame : s.engine.SameRole s'.engine)
    (hplain : s'.engine.source.IsPlain) (hsessions : h'.sessions = h.sessions)
    (hq : ∃ q, h'.pacers[p]? = some q ∧ q.Paces x T start s') : h'.Tracks x p T start s' where
  engine := he
  started := hsame.started_eq.trans ht.started
  free := hsame.busy_eq.trans ht.free
  plain := hplain
  current := by
    rw [isCurrent_congr ht.engine he hsame.retired_eq hsame.owner_eq hsame.generation_eq hsessions]
    exact ht.current
  pacer := hq

theorem settle_of_tracks (hT : 0 < T) (ht : h.Tracks x p T start s) :
    settle perform p h = (.ok (), h) := by
  obtain ⟨q, hq, hpaces⟩ := ht.pacer
  exact settle_of_ahead perform hq (hpaces.ahead hT)

theorem isCurrent_of_tracks (ht : h.Tracks x p T start s) : isCurrent x h = (.ok true, h) :=
  Prod.ext ht.current (isCurrent_unchanged x h)

/-! ### One tick of the timers -/

theorem tickHandle_apply {e : Engine} (he : h.engines[x.engine]? = some e) (hfree : e.busy = false)
    (hcurrent : (isCurrent x h).1 = .ok true) :
    tickHandle x h = (.ok (), h.putEngine x.engine e.ticked) := by
  have hx : isCurrent x h = (.ok true, h) := Prod.ext hcurrent (isCurrent_unchanged x h)
  rw [tickHandle, bind_of_ok hx]
  exact tickEngine_apply he hfree

theorem fire_tickTimers_apply {e : Engine} (hq : h.pacers[p]? = some q)
    (hactive : q.timerActive = true) (hpower : q.power ≠ .stopped)
    (he : h.engines[q.handle.engine]? = some e) (hfree : e.busy = false)
    (hcurrent : (isCurrent q.handle h).1 = .ok true) :
    fire perform p .tickTimers h =
      (.ok (), (h.putEngine q.handle.engine e.ticked).putPacer p
        (q.enqueue .tickTimers q.timerInterval)) := by
  have hwanted : (q.timerActive && q.power ≠ .stopped) = true := by
    rw [hactive, Bool.true_and, decide_eq_true hpower]
  have hq' : (h.putEngine q.handle.engine e.ticked).pacers[p]? = some q := hq
  rw [fire, bind_of_ok (pacerAt_apply hq), if_pos hwanted,
    bind_of_ok (tickHandle_apply he hfree hcurrent), modifyPacer_apply hq']

/-! ### One step -/

theorem stepHandle_of_tracks (ht : h.Tracks x p T start s) :
    stepHandle perform x h = (s.engine.outcome,
      (h.putEngine x.engine s.engine.stepped).addLines s.engine.stepLines) := by
  rw [stepHandle_of_current (isCurrent_of_tracks ht)]
  exact stepEngine_apply ht.engine ht.started ht.free (Engine.undisturbed_of_isPlain ht.plain)

theorem round_of_running (hT : 0 < T) (ht : h.Tracks x p T start s) (hrun : s.power = .running) :
    round perform p h = (do
      let status ← stepHandle perform x
      modifyPacer p (·.countStep status)
      if status.isHalted then
        modifyPacer p Pacer.stopNow
        return false
      return true) h := by
  obtain ⟨q, hq, hpaces⟩ := ht.pacer
  have hgo : ¬q.power ≠ .running := by
    rw [hpaces.power_eq, hrun]
    exact fun h => h rfl
  rw [round, bind_of_ok (settle_of_tracks perform hT ht), bind_of_ok (pacerAt_apply hq), if_neg hgo,
    hpaces.handle_eq, bind_of_ok (isCurrent_of_tracks ht)]
  rfl

theorem tracks_stepped (ht : h.Tracks x p T start s) {s' : PlainRun} {lines : List LogLine}
    {e : Engine} {q : Pacer} (hs : s'.engine = e) (he : s.engine.SameRole e)
    (hplain : e.source.IsPlain) (hq : q.Paces x T start s') :
    (((h.putEngine x.engine e).addLines lines).putPacer p q).Tracks x p T start s' := by
  subst hs
  obtain ⟨q₀, hq₀, -⟩ := ht.pacer
  exact tracks_of_eq ht (Host.engines_putEngine ht.engine) he hplain rfl
    ⟨q, Host.pacers_putPacer hq₀, hq⟩

theorem round_of_refused (hT : 0 < T) (ht : h.Tracks x p T start s) (hrun : s.power = .running)
    {r : Refusal} (ho : s.engine.outcome = .error r) :
    ∃ h', round perform p h = (.error r, h') ∧ h'.Tracks x p T start (s.step T).2 ∧
      h.SameSurroundings h' := by
  obtain ⟨q, hq, hpaces⟩ := ht.pacer
  have hstep := stepHandle_of_tracks perform ht
  rw [ho] at hstep
  refine ⟨_, (round_of_running perform hT ht hrun).trans (bind_of_error hstep _), ?_, _, _, _, rfl⟩
  rw [PlainRun.step_of_refused ho]
  exact tracks_of_eq ht (Host.engines_putEngine ht.engine) s.engine.sameRole_stepped
    (Engine.isPlain_stepped ht.plain) rfl ⟨q, hq, hpaces.setEngine _⟩

theorem round_of_halted (hT : 0 < T) (ht : h.Tracks x p T start s) (hrun : s.power = .running)
    {reason : HaltReason} (ho : s.engine.outcome = .ok (.halted reason)) :
    ∃ h', round perform p h = (.ok false, h') ∧ h'.Tracks x p T start (s.step T).2 ∧
      h.SameSurroundings h' := by
  obtain ⟨q, hq, hpaces⟩ := ht.pacer
  have hstep := stepHandle_of_tracks perform ht
  rw [ho] at hstep
  have hq₁ : ((h.putEngine x.engine s.engine.stepped).addLines s.engine.stepLines).pacers[p]? =
      some q := hq
  refine ⟨((h.putEngine x.engine s.engine.stepped).addLines s.engine.stepLines).putPacer p
    (q.countStep (.halted reason)).stopNow, ?_, ?_, _, _, _, rfl⟩
  · have hhalted : (Status.halted reason).isHalted = true := rfl
    rw [round_of_running perform hT ht hrun, bind_of_ok hstep, bind_of_ok (modifyPacer_apply hq₁ _),
      if_pos hhalted, bind_of_ok (modifyPacer_apply (Host.pacers_putPacer hq₁) _), pure_apply,
      Host.putPacer_putPacer]
  · rw [PlainRun.step_of_halted ho]
    have hstopped := hpaces.stopNow_countStep s.engine.stepped (.halted reason)
    exact tracks_stepped ht rfl s.engine.sameRole_stepped (Engine.isPlain_stepped ht.plain) hstopped

theorem due_of_tick {order : Int} (hschedule : q.schedule = ⟨[⟨q.count, order, .tickTimers⟩]⟩) :
    q.due = [⟨q.count, order, .tickTimers⟩] ∧ q.takeDue = { q with schedule := .empty } := by
  have hle : (⟨q.count, order, .tickTimers⟩ : Event Cue).clock ≤ q.count := Int.le_refl _
  refine ⟨?_, congrArg (fun schedule => { q with schedule }) ?_⟩
  · rw [Pacer.due, hschedule, Schedule.due_cons [] hle]
    rfl
  · rw [hschedule, Schedule.rest_cons [] hle]
    rfl

theorem settle_of_tick {e : Engine} {order : Int} (hq : h.pacers[p]? = some q)
    (hschedule : q.schedule = ⟨[⟨q.count, order, .tickTimers⟩]⟩) (hactive : q.timerActive = true)
    (hpower : q.power ≠ .stopped) (he : h.engines[q.handle.engine]? = some e)
    (hfree : e.busy = false) (hcurrent : (isCurrent q.handle h).1 = .ok true) :
    settle perform p h =
      (.ok (), (h.putEngine q.handle.engine e.ticked).putPacer p
        ({ q with schedule := .empty }.enqueue .tickTimers q.timerInterval)) := by
  obtain ⟨hdue, htake⟩ := due_of_tick hschedule
  have hq' : (h.putPacer p { q with schedule := .empty }).pacers[p]? =
      some { q with schedule := .empty } := Host.pacers_putPacer hq
  have hcurrent' :
      (isCurrent q.handle (h.putPacer p { q with schedule := .empty })).1 = .ok true := by
    rw [isCurrent_putPacer]
    exact hcurrent
  have hfire := fire_tickTimers_apply perform hq' hactive hpower he hfree hcurrent'
  rw [settle, bind_of_ok (pacerAt_apply hq), hdue, bind_of_ok (modifyPacer_apply hq _), htake,
    fireAll, bind_of_ok hfire]
  exact congrArg (Prod.mk _) (Host.putPacer_putPacer (h.putEngine q.handle.engine e.ticked) p _ _)

/-- **A step that does not halt** is counted, and the timers tick after it if it is time. -/
theorem round_of_passed (hT : 0 < T) (ht : h.Tracks x p T start s) (hrun : s.power = .running)
    {status : Status} (ho : s.engine.outcome = .ok status) (hgo : status.isHalted = false) :
    ∃ h' h'', round perform p h = (.ok true, h') ∧ settle perform p h' = (.ok (), h'') ∧
      h''.Tracks x p T start (s.step T).2 ∧ h.SameSurroundings h'' := by
  obtain ⟨q, hq, hpaces⟩ := ht.pacer
  have hstep := stepHandle_of_tracks perform ht
  rw [ho] at hstep
  have hq₁ : ((h.putEngine x.engine s.engine.stepped).addLines s.engine.stepLines).pacers[p]? =
      some q := hq
  have hround : round perform p h = (.ok true,
      ((h.putEngine x.engine s.engine.stepped).addLines s.engine.stepLines).putPacer p
        (q.countStep status)) := by
    rw [round_of_running perform hT ht hrun, bind_of_ok hstep,
      bind_of_ok (modifyPacer_apply hq₁ _), hgo]
    rfl
  have hrole := s.engine.sameRole_stepped
  have hplain : s.engine.stepped.source.IsPlain := Engine.isPlain_stepped ht.plain
  rw [PlainRun.step_of_passed ho hgo]
  by_cases hdue : (s.steps + 1) % T = 0
  · -- The tick on the schedule is due now, and the next one comes one interval later.
    have hon : s.power ≠ .stopped := by
      rw [hrun]
      decide
    have hpower : q.power ≠ .stopped := by
      rw [hpaces.power_eq]
      exact hon
    obtain ⟨order, hschedule⟩ := hpaces.schedule_of_due hon hdue status
    have hrenewed := hpaces.renewed hon hdue s.engine.stepped.ticked status
    obtain rfl := hpaces.handle_eq
    have he₁ : (((h.putEngine q.handle.engine s.engine.stepped).addLines
        s.engine.stepLines).putPacer p (q.countStep status)).engines[q.handle.engine]? =
        some s.engine.stepped := Host.engines_putEngine ht.engine
    have hcurrent : (isCurrent q.handle (((h.putEngine q.handle.engine s.engine.stepped).addLines
        s.engine.stepLines).putPacer p (q.countStep status))).1 = .ok true := by
      rw [isCurrent_congr ht.engine he₁ hrole.retired_eq hrole.owner_eq hrole.generation_eq rfl]
      exact ht.current
    have hsettle := settle_of_tick perform (Host.pacers_putPacer hq₁) hschedule
      (hpaces.on hon).1 hpower he₁ (hrole.busy_eq.trans ht.free) hcurrent
    rw [if_pos hdue]
    refine ⟨_, _, hround, hsettle, ?_, _, _, _, rfl⟩
    have hticked := hrole.trans (Engine.sameRole_ticked _)
    exact tracks_of_eq ht (Host.engines_putEngine he₁) hticked hplain rfl
      ⟨_, Host.pacers_putPacer (Host.pacers_putPacer hq₁), hrenewed⟩
  · -- The next tick is the same one as before the step.
    have hpaces' := hpaces.countStep_of_early hdue s.engine.stepped status
    rw [if_neg hdue]
    refine ⟨_, _, hround, settle_of_ahead perform (Host.pacers_putPacer hq₁) (hpaces'.ahead hT), ?_,
      _, _, _, rfl⟩
    exact tracks_stepped ht rfl hrole hplain hpaces'

/-! ### Batches -/

/-- A batch begins with what is due, so that this may as well have happened. -/
theorem batch_of_settle {h h' : Host} (hsettle : settle perform p h = (.ok (), h'))
    (hsettle' : settle perform p h' = (.ok (), h')) (n : Nat) :
    batch perform p n h = batch perform p n h' := by
  cases n with
  | zero => exact hsettle.trans hsettle'.symm
  | succ n => rw [batch_succ, round, bind_assoc, bind_of_ok hsettle, bind_of_ok hsettle']

theorem round_of_tracks_rests (hT : 0 < T) (ht : h.Tracks x p T start s)
    (hrest : s.power ≠ .running) : round perform p h = (.ok false, h) := by
  obtain ⟨q, hq, hpaces⟩ := ht.pacer
  have hq' : q.power ≠ .running := by
    rw [hpaces.power_eq]
    exact hrest
  rw [round, bind_of_ok (settle_of_tracks perform hT ht), bind_of_ok (pacerAt_apply hq), if_pos hq']
  rfl

/-- **A batch** of the pacer is one of the plain run, and nothing else happens. -/
theorem tracks_batch (hT : 0 < T) (n : Nat) {s : PlainRun} {h : Host}
    (ht : h.Tracks x p T start s) :
    (batch perform p n h).1 = (s.run T n).1 ∧
      (batch perform p n h).2.Tracks x p T start (s.run T n).2 ∧
      h.SameSurroundings (batch perform p n h).2 := by
  induction n generalizing s h with
  | zero =>
    have hsettle : batch perform p 0 h = (.ok (), h) := settle_of_tracks perform hT ht
    rw [hsettle]
    exact ⟨rfl, ht, .refl h⟩
  | succ n ih =>
    rw [batch_succ, PlainRun.run]
    by_cases hrun : s.power = .running
    · rw [if_pos hrun]
      rcases ho : s.engine.outcome with r | status
      · obtain ⟨h', hround, ht', hsame⟩ := round_of_refused perform hT ht hrun ho
        rw [bind_of_error hround]
        rw [PlainRun.step_of_refused ho] at ht' ⊢
        exact ⟨rfl, ht', hsame⟩
      cases hgo : status.isHalted with
      | true =>
        obtain ⟨reason, rfl⟩ : ∃ reason, status = .halted reason := by
          cases status with
          | halted reason => exact ⟨reason, rfl⟩
          | «continue» | awaitingKey => cases hgo
        obtain ⟨h', hround, ht', hsame⟩ := round_of_halted perform hT ht hrun ho
        have hsettle := settle_of_tracks perform hT ht'
        rw [bind_of_ok hround]
        rw [PlainRun.step_of_halted ho] at ht' ⊢
        show (settle perform p h').1 = (PlainRun.run T n _).1 ∧
          (settle perform p h').2.Tracks x p T start (PlainRun.run T n _).2 ∧
          h.SameSurroundings (settle perform p h').2
        rw [hsettle, PlainRun.run_of_rests (s := ⟨_, _, .stopped, _⟩) (by rintro ⟨⟩)]
        exact ⟨rfl, ht', hsame⟩
      | false =>
        obtain ⟨h', h'', hround, hsettle, ht', hsame⟩ := round_of_passed perform hT ht hrun ho hgo
        have hsettle' := settle_of_tracks perform hT ht'
        obtain ⟨hanswer, htracks, hsame'⟩ := ih ht'
        rw [bind_of_ok hround]
        rw [PlainRun.step_of_passed ho hgo] at hanswer htracks ⊢
        show (batch perform p n h').1 = _ ∧ (batch perform p n h').2.Tracks _ _ _ _ _ ∧
          h.SameSurroundings (batch perform p n h').2
        rw [batch_of_settle perform hsettle hsettle']
        exact ⟨hanswer, htracks, hsame.trans hsame'⟩
    · rw [if_neg hrun, bind_of_ok (round_of_tracks_rests perform hT ht hrun)]
      have hsettle := settle_of_tracks perform hT ht
      show (settle perform p h).1 = _ ∧ (settle perform p h).2.Tracks _ _ _ _ _ ∧
        h.SameSurroundings (settle perform p h).2
      rw [hsettle]
      exact ⟨rfl, ht, .refl h⟩

end HostM

end Chip8
