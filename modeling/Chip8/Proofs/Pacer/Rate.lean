import Chip8.Proofs.Pacer.Launch

/-!
# Changes of the rate

A new rate is taken over before anything that follows from it has been worked out:
first the base, then the interval of the timers, then the one of the display.  The
first of them that cannot be worked out refuses the change, and what was taken over
before it stays.  `Pacer.retime` is the change as a function of the pacer and of
what its clock says.

* `setRate_apply`: the call does to the pacer what `retime` says, and reads a clock.
* `retime_cases`: a change is refused at one of three points, or has worked out
  everything.
* `setRate_eq_ok`: what a change that is not refused leaves.
* `refused_rate_is_kept`: a rate that is refused because it is not positive leaves
  everything as it was; any other rate that is refused stays in the pacer.
-/

namespace Chip8

theorem exists_refusal_of_toOption {α : Type} {x : Except Refusal α × Host}
    (hx : x.1.toOption = none) : ∃ r, x = (.error r, x.2) := by
  rcases x with ⟨r | a, h⟩
  · exact ⟨r, rfl⟩
  · cases hx

theorem eq_of_toOption {α : Type} {x : Except Refusal α × Host} {a : α}
    (hx : x.1.toOption = some a) : x = (.ok a, x.2) :=
  Prod.ext (eq_ok_of_toOption hx) rfl

namespace Pacer

/-- Begins the regular cues anew, if the pacer runs. -/
def restarted (q : Pacer) : Pacer :=
  if q.power = .running then q.stopPeriodic.clearSchedule.startPeriodic else q

/-- What a reading of the clock makes the base with a new rate. -/
def newBase (q : Pacer) (rate : Float) (now : Except Refusal Int) : Except Refusal Int := do
  (Pace.baseTime (← now) q.count rate).mapError Refusal.conversion

/-- What a new rate makes of a pacer, and whether it is refused. -/
def retime (q : Pacer) (rate : Float) (now : Except Refusal Int) : Except Refusal Unit × Pacer :=
  match q.newBase rate now with
  | .error r => (.error r, { q with rate })
  | .ok base =>
    match Pace.timerInterval rate q.timerFrequency with
    | .error failure => (.error (.conversion failure), { q with rate, base })
    | .ok timerInterval =>
      match Pace.frameInterval rate q.refresh with
      | .error failure => (.error (.conversion failure), { q with rate, base, timerInterval })
      | .ok frameInterval =>
        (.ok (), { q with rate, base, timerInterval, frameInterval }.restarted)

/-- What a refused change of the rate leaves: all that could be worked out before it was refused. -/
inductive RateRefused (q : Pacer) (rate : Float) (now : Except Refusal Int) :
    Refusal → Pacer → Prop
  | noBase {r : Refusal} : q.newBase rate now = .error r → RateRefused q rate now r { q with rate }
  | noTimerInterval {base : Int} {failure : Binary64.ConversionError} :
    q.newBase rate now = .ok base → Pace.timerInterval rate q.timerFrequency = .error failure →
      RateRefused q rate now (.conversion failure) { q with rate, base }
  | noFrameInterval {base : Int} {timerInterval : Nat} {failure : Binary64.ConversionError} :
    q.newBase rate now = .ok base → Pace.timerInterval rate q.timerFrequency = .ok timerInterval →
      Pace.frameInterval rate q.refresh = .error failure →
      RateRefused q rate now (.conversion failure) { q with rate, base, timerInterval }

variable {q q' : Pacer} {rate : Float} {now : Except Refusal Int} {r : Refusal}

/-- A refused change touches the rate, the base and the timers' interval only, and the rate it has
taken over. -/
theorem RateRefused.changes (hr : q.RateRefused rate now r q') :
    ∃ base timerInterval, q' = { q with rate, base, timerInterval } := by
  cases hr with
  | noBase => exact ⟨q.base, q.timerInterval, rfl⟩
  | noTimerInterval => exact ⟨_, q.timerInterval, rfl⟩
  | noFrameInterval => exact ⟨_, _, rfl⟩

/-- **How a change of the rate ends**: refused, or with all that follows from the rate. -/
theorem retime_cases (q : Pacer) (rate : Float) (now : Except Refusal Int) :
    (∃ r q', q.retime rate now = (.error r, q') ∧ q.RateRefused rate now r q') ∨
    ∃ base timerInterval frameInterval,
      q.retime rate now =
        (.ok (), { q with rate, base, timerInterval, frameInterval }.restarted) ∧
      Pace.timerInterval rate q.timerFrequency = .ok timerInterval ∧
      Pace.frameInterval rate q.refresh = .ok frameInterval := by
  rw [retime]
  cases hbase : q.newBase rate now with
  | error r => exact .inl ⟨_, _, rfl, .noBase hbase⟩
  | ok base =>
    cases htimer : Pace.timerInterval rate q.timerFrequency with
    | error failure => exact .inl ⟨_, _, rfl, .noTimerInterval hbase htimer⟩
    | ok timerInterval =>
      cases hframe : Pace.frameInterval rate q.refresh with
      | error failure => exact .inl ⟨_, _, rfl, .noFrameInterval hbase htimer hframe⟩
      | ok frameInterval => exact .inr ⟨base, timerInterval, frameInterval, rfl, rfl, rfl⟩

end Pacer

namespace HostM

variable {h : Host} {p : Nat} {q : Pacer} {rate : Float}

theorem setRate_of_not_positive (hrate : rate ≤ 0) :
    setRate p rate h = (.error .newRateNotPositive, h) := by
  rw [setRate, if_pos hrate]
  rfl

theorem rebase_apply (hq : h.pacers[p]? = some q) : rebase p h =
    match q.newBase q.rate (readClock q.clock h).1 with
    | .error r => (.error r, (readClock q.clock h).2)
    | .ok base => (.ok (), (readClock q.clock h).2.putPacer p { q with base }) := by
  have hkept : (readClock q.clock h).2.pacers[p]? = some q := by
    rw [readClock_changes]
    exact hq
  rw [rebase, bind_of_ok (pacerAt_apply hq), bind_apply]
  rcases hr : readClock q.clock h with ⟨r | now, h'⟩ <;> rw [hr] at hkept
  · rfl
  · cases hbase : Pace.baseTime now q.count q.rate with
    | error failure =>
      simp only [Pacer.newBase, hbase, bind, Except.bind]
      rfl
    | ok base =>
      simp only [Pacer.newBase, hbase, bind, Except.bind]
      exact modifyPacer_apply hkept _

theorem updateIntervals_apply (hq : h.pacers[p]? = some q) : updateIntervals p h =
    match Pace.timerInterval q.rate q.timerFrequency with
    | .error failure => (.error (.conversion failure), h)
    | .ok timerInterval =>
      match Pace.frameInterval q.rate q.refresh with
      | .error failure =>
        (.error (.conversion failure), h.putPacer p { q with timerInterval })
      | .ok frameInterval =>
        (.ok (), h.putPacer p { q with timerInterval, frameInterval }) := by
  rw [updateIntervals, bind_of_ok (pacerAt_apply hq)]
  cases htimer : Pace.timerInterval q.rate q.timerFrequency with
  | error failure => rfl
  | ok timerInterval =>
    dsimp only
    rw [bind_of_ok (ofConversion_ok _ _), bind_of_ok (modifyPacer_apply hq _)]
    cases hframe : Pace.frameInterval q.rate q.refresh with
    | error failure => rfl
    | ok frameInterval =>
      have hq' : (h.putPacer p { q with timerInterval }).pacers[p]? =
          some { q with timerInterval } := Host.pacers_putPacer hq
      dsimp only
      rw [bind_of_ok (ofConversion_ok _ _), modifyPacer_apply hq', Host.putPacer_putPacer]

theorem readClock_putPacer (k : Nat) (h : Host) (p : Nat) (q : Pacer) :
    readClock k (h.putPacer p q) = ((readClock k h).1, (readClock k h).2.putPacer p q) := by
  rw [readClock, bind_of_ok (modify_apply _ _), bind_of_ok (get_apply _),
    bind_of_ok (modify_apply _ _), bind_of_ok (get_apply _)]
  show (required .noPacer (h.clocks.modify k Clock.read)[k]? >>= _) _ =
    (((required .noPacer (h.clocks.modify k Clock.read)[k]? >>= _) _).1, _)
  cases (h.clocks.modify k Clock.read)[k]? <;> rfl

/-- **A change of the rate** reads the clock once and does to the pacer what `retime` says. -/
theorem setRate_apply (hq : h.pacers[p]? = some q) (hrate : ¬rate ≤ 0) :
    setRate p rate h =
      ((q.retime rate (readClock q.clock h).1).1,
        (readClock q.clock h).2.putPacer p (q.retime rate (readClock q.clock h).1).2) := by
  have hq₁ : (h.putPacer p { q with rate }).pacers[p]? = some { q with rate } :=
    Host.pacers_putPacer hq
  have hkept : (readClock q.clock h).2.pacers[p]? = some q := by
    rw [readClock_changes]
    exact hq
  have hrebase := rebase_apply hq₁
  rw [readClock_putPacer] at hrebase
  rw [setRate, if_neg hrate]
  dsimp only
  rw [bind_of_ok (modifyPacer_apply hq _), Pacer.retime]
  cases hbase : q.newBase rate (readClock q.clock h).1 with
  | error r =>
    have hbase' : Pacer.newBase { q with rate } rate (readClock q.clock h).1 = .error r := hbase
    rw [hbase'] at hrebase
    exact bind_of_error hrebase _
  | ok base =>
    have hbase' : Pacer.newBase { q with rate } rate (readClock q.clock h).1 = .ok base := hbase
    rw [hbase'] at hrebase
    dsimp only at hrebase
    rw [Host.putPacer_putPacer] at hrebase
    have hq₂ : ((readClock q.clock h).2.putPacer p { q with rate, base }).pacers[p]? =
        some { q with rate, base } := Host.pacers_putPacer hkept
    have hupdate := updateIntervals_apply hq₂
    rw [bind_of_ok hrebase]
    cases htimer : Pace.timerInterval rate q.timerFrequency with
    | error failure =>
      rw [htimer] at hupdate
      exact bind_of_error hupdate _
    | ok timerInterval =>
      rw [htimer] at hupdate
      cases hframe : Pace.frameInterval rate q.refresh with
      | error failure =>
        rw [hframe] at hupdate
        dsimp only at hupdate
        rw [Host.putPacer_putPacer] at hupdate
        exact bind_of_error hupdate _
      | ok frameInterval =>
        rw [hframe] at hupdate
        dsimp only at hupdate
        rw [Host.putPacer_putPacer] at hupdate
        have hq₃ : ((readClock q.clock h).2.putPacer p
            { q with rate, base, timerInterval, frameInterval }).pacers[p]? =
            some { q with rate, base, timerInterval, frameInterval } :=
          Host.pacers_putPacer hkept
        rw [bind_of_ok hupdate, bind_of_ok (pacerAt_apply hq₃)]
        dsimp only [Pacer.restarted]
        split
        · rw [modifyPacer_apply hq₃, Host.putPacer_putPacer]
        · rfl

/-- **How a change of the rate ends for the host.** -/
theorem setRate_cases (hq : h.pacers[p]? = some q) (hrate : ¬rate ≤ 0) :
    (∃ r q', q.RateRefused rate (readClock q.clock h).1 r q' ∧
      setRate p rate h = (.error r,
        { h with clocks := h.clocks.modify q.clock Clock.read }.putPacer p q')) ∨
    ∃ base timerInterval frameInterval,
      Pace.timerInterval rate q.timerFrequency = .ok timerInterval ∧
      Pace.frameInterval rate q.refresh = .ok frameInterval ∧
      setRate p rate h = (.ok (),
        { h with clocks := h.clocks.modify q.clock Clock.read }.putPacer p
          { q with rate, base, timerInterval, frameInterval }.restarted) := by
  have hset := setRate_apply hq hrate
  rcases q.retime_cases rate (readClock q.clock h).1 with
    ⟨r, q', hretime, hrefused⟩ | ⟨base, timerInterval, frameInterval, hretime, htimer, hframe⟩ <;>
    rw [hretime, readClock_changes] at hset
  · exact .inl ⟨r, q', hrefused, hset⟩
  · exact .inr ⟨base, timerInterval, frameInterval, htimer, hframe, hset⟩

/-- What a change of the rate that is not refused does to the pacer, and to nothing else that it
paces. -/
theorem setRate_eq_ok {h' : Host} (hq : h.pacers[p]? = some q)
    (hset : setRate p rate h = (.ok (), h')) :
    ∃ base timerInterval frameInterval,
      Pace.timerInterval rate q.timerFrequency = .ok timerInterval ∧
      Pace.frameInterval rate q.refresh = .ok frameInterval ∧
      h'.pacers[p]? = some { q with rate, base, timerInterval, frameInterval }.restarted ∧
      h'.engines = h.engines ∧ h'.sessions = h.sessions := by
  have hrate : ¬rate ≤ 0 := by
    intro hle
    rw [setRate_of_not_positive hle] at hset
    cases hset
  rcases setRate_cases hq hrate with
    ⟨r, q', -, hrefused⟩ | ⟨base, timerInterval, frameInterval, htimer, hframe, hdone⟩
  · rw [hrefused] at hset
    cases hset
  · rw [hdone] at hset
    cases hset
    exact ⟨base, timerInterval, frameInterval, htimer, hframe,
      Host.pacers_putPacer (h := { h with clocks := _ }) hq, rfl, rfl⟩

end HostM

/-- **A refused rate is kept, unless it is refused for not being positive.**  Then nothing has
changed.  Any other rate that is refused, for being no finite number or for leading to none, is the
pacer's rate from then on; the base is lined up with it if it can be worked out, and so is the
interval of the timers.  The clock has been read.  Nothing else has changed: the power, the count,
the schedule and the interval of the display are those from before. -/
theorem refused_rate_is_kept {h h' : Host} {p : Nat} {q : Pacer} (hq : h.pacers[p]? = some q)
    {rate : Float} {r : Refusal} (hrefused : HostM.setRate p rate h = (.error r, h')) :
    (rate ≤ 0 ∧ r = .newRateNotPositive ∧ h' = h) ∨
      (¬rate ≤ 0 ∧ ∃ q', q.RateRefused rate (HostM.readClock q.clock h).1 r q' ∧
        (∃ base timerInterval, q' = { q with rate, base, timerInterval }) ∧
        h'.pacers[p]? = some q' ∧
        h' = { h with clocks := h.clocks.modify q.clock Clock.read }.putPacer p q') := by
  by_cases hrate : rate ≤ 0
  · rw [HostM.setRate_of_not_positive hrate] at hrefused
    cases hrefused
    exact .inl ⟨hrate, rfl, rfl⟩
  · rcases HostM.setRate_cases hq hrate with ⟨r', q', hleft, hset⟩ | ⟨_, _, _, -, -, hset⟩ <;>
      rw [hset] at hrefused <;> cases hrefused
    have hq' : ({ h with clocks := h.clocks.modify q.clock Clock.read }.putPacer p q').pacers[p]? =
        some q' := Host.pacers_putPacer (h := { h with clocks := _ }) hq
    exact .inr ⟨hrate, q', hleft, hleft.changes, hq', rfl⟩

/-- A host with a pacer that has paused after three steps. -/
def ratedHost : Host :=
  jumpingHost 240 (1 / 60) none (.steady 0 1) [.powerOn, .runSteps 3, .pause]

def ratedPacer : Pacer :=
  ratedHost.pacers[0]?.get (by decide +kernel)

/-- An infinite rate is refused and kept; power, count and schedule are those from before. -/
theorem refused_rate_is_kept_of_infinite : ∃ r base timerInterval,
    (HostM.setRate 0 (1 / 0) ratedHost).1 = .error r ∧
      (HostM.setRate 0 (1 / 0) ratedHost).2.pacers[0]? =
        some { ratedPacer with rate := 1 / 0, base, timerInterval } ∧
      ratedPacer.power = .paused ∧ ratedPacer.count = 3 ∧
      ratedPacer.schedule.size = 1 := by
  have hq : ratedHost.pacers[0]? = some ratedPacer := (Option.some_get _).symm
  have hpositive : ¬(1 / 0 : Float) ≤ 0 := by decide +kernel
  have hnone : (HostM.setRate 0 (1 / 0) ratedHost).1.toOption = none := by decide +kernel
  have hstate : ratedPacer.power = .paused ∧ ratedPacer.count = 3 ∧
      ratedPacer.schedule.size = 1 := by decide +kernel
  obtain ⟨r, hrefused⟩ := exists_refusal_of_toOption hnone
  rcases refused_rate_is_kept hq hrefused with
    ⟨hle, -, -⟩ | ⟨-, q', -, ⟨base, timerInterval, rfl⟩, hkept, -⟩
  · exact absurd hle hpositive
  · exact ⟨r, base, timerInterval, congrArg Prod.fst hrefused, hkept, hstate⟩

/-- **What is no number is refused as a rate**, and is the pacer's rate afterwards. -/
theorem refused_rate_replaces_rate :
    (HostM.setRate 0 (0 / 0) ratedHost).1.toOption = none ∧
      (ratedHost.pacers[0]?.map fun q => q.rate == 240) = some true ∧
      ((HostM.setRate 0 (0 / 0) ratedHost).2.pacers[0]?.map fun q => q.rate.isNaN) =
        some true := by
  decide +kernel

end Chip8
