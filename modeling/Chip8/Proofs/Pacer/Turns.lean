import Chip8.Proofs.Pacer.Lone

/-!
# Paced runs

A paced run asks how many instructions are due, executes them in batches and
sleeps where none are due.  Between two questions the clock may move in any way,
and so may the second clock that a run of so many seconds goes by.  If the pacer
has no frame callback and nothing but the clock moves during the sleeps, then all
that a run does to the host, but for clocks and notes, is to make single steps one
after the other.

`Course` follows a run that is not refused through its turns.  Each batch is kept
with the hosts around it, so that what it has executed can be compared with what
was due just before.

* `course_of_runRounds`, `course_of_runForRounds`: a run has a course.
* `makes_of_course`: the course of a pacer is its single steps, and no batch goes
  further than the instant of the clock allows.
* `paced_runs_are_single_steps`: both paced runs of a host that requests lead to.
-/

namespace Chip8

namespace Pace

open Binary64 (ConversionError)

/-- The instructions that `elapsed` nanoseconds amount to. -/
def instructionsBy (elapsed : Int) (rate : Float) : Except ConversionError Int := do
  Binary64.truncate ((← Binary64.ofInt? elapsed) * rate / second)

theorem instructionsDue_eq (elapsed count : Int) (rate : Float) :
    instructionsDue elapsed count rate =
      (instructionsBy elapsed rate).map fun target => max 0 (target - count) := by
  rw [instructionsDue, instructionsBy]
  cases Binary64.ofInt? elapsed with
  | error failure => rfl
  | ok x =>
    simp only [bind, Except.bind]
    cases Binary64.truncate (x * rate / second) <;> rfl

end Pace

theorem Pacer.count_startPeriodic (q : Pacer) : q.startPeriodic.count = q.count := by
  have htimers : q.startTimers.count = q.count := by
    rw [startTimers]
    split <;> rfl
  rw [startPeriodic]
  split
  · rw [startFrames]
    split <;> exact htimers
  · rfl

namespace HostM

/-- A batch of a paced run: the host that is asked how much is due, the answer with the host after
the clock has been read for it, and the host after the batch. -/
structure Turn where
  before : Host
  due : Int
  asked : Host
  after : Host

/-- The batch has executed at most as many steps as were due, and the count has not gone beyond what
the instant of the pacer's clock amounts to. -/
def Turn.IsInTime (p : Nat) (t : Turn) : Prop :=
  ∃ q q' executed, t.before.pacers[p]? = some q ∧ t.after.pacers[p]? = some q' ∧
    q'.count = q.count + executed ∧ (executed : Int) ≤ t.due ∧
      ∃ clock target, t.asked.clocks[q.clock]? = some clock ∧
        Pace.instructionsBy (clock.now - q.base) q.rate = .ok target ∧ (q'.count : Int) ≤ target

section Course

variable (perform : Request → HostM Reply) (p : Nat) (maxBatch : Int) (sleeps : Sleeps)

/-- From one host to another by the turns of a paced run: batches, with the hosts around them,
questions to which the answer is that nothing is due, and sleeps. -/
inductive Course : Host → List Turn → Host → Prop
  | done (h : Host) : Course h [] h
  | batch {h h₁ h₂ h₃ : Host} {due : Int} {status : Option Status} {turns : List Turn} :
      dueNow p h = (.ok due, h₁) → due ≠ 0 →
      runSteps perform p (min due maxBatch) h₁ = (.ok status, h₂) → Course h₂ turns h₃ →
      Course h (⟨h, due, h₁, h₂⟩ :: turns) h₃
  | idle {h h₁ h₂ : Host} {turns : List Turn} :
      dueNow p h = (.ok 0, h₁) → Course h₁ turns h₂ → Course h turns h₂
  | sleep {h h₁ h₂ : Host} {number : Nat} {duration : Float} {turns : List Turn} :
      sleep perform sleeps number duration h = (.ok (), h₁) → Course h₁ turns h₂ →
      Course h turns h₂

end Course

variable {perform : Request → HostM Reply} {p : Nat} {maxBatch : Int} {sleeps : Sleeps}
  {h h' : Host} {slept : Nat} {last : Float} {reply : Reply}

theorem pacedReply_eq_ok (hr : pacedReply p slept last h = (.ok reply, h')) :
    h' = h ∧ ∃ q, h.pacers[p]? = some q ∧ reply = .paced q.lastStatus slept last := by
  rw [pacedReply] at hr
  obtain ⟨q, h₁, hq, hreply⟩ := bind_eq_ok hr
  obtain ⟨hq, rfl⟩ := pacerAt_eq_ok hq
  cases hreply
  exact ⟨rfl, q, hq, rfl⟩

/-- To read the wall clock changes nothing: its readings come by their numbers. -/
theorem readWall_eq_ok {wall : WallClock} {number : Nat} {instant : Float}
    (hr : readWall wall number h = (.ok instant, h')) : h' = h := by
  obtain ⟨ns, h₁, hnow, hreading⟩ := bind_eq_ok hr
  obtain ⟨-, rfl⟩ := ofConversion_eq_ok hreading
  obtain ⟨_, _, hget, hrest⟩ := bind_eq_ok hnow
  cases hget
  obtain ⟨k, _, hcurrent, hrest'⟩ := bind_eq_ok hrest
  obtain ⟨_, _, hget', hk⟩ := bind_eq_ok hcurrent
  cases hget'
  obtain ⟨-, rfl⟩ := required_eq_ok hk
  obtain ⟨_, _, hclock, hread⟩ := bind_eq_ok hrest'
  obtain ⟨-, rfl⟩ := required_eq_ok hclock
  cases hread
  rfl

def Ended (p : Nat) (h : Host) (reply : Reply) (stopped : Bool) : Prop :=
  ∃ q, h.pacers[p]? = some q ∧ (∃ slept last, reply = .paced q.lastStatus slept last) ∧
    (stopped = true → q.power = .stopped)

/-- **A run until the pacer has stopped** has a course to its end. -/
theorem course_of_runRounds {n : Nat}
    (hrun : runRounds perform p maxBatch sleeps slept last n h = (.ok reply, h')) :
    (∃ turns, Course perform p maxBatch sleeps h turns h') ∧ Ended p h' reply true := by
  induction n generalizing h slept last with
  | zero => cases hrun
  | succ n ih =>
    obtain ⟨q, _, hread, hrest⟩ := bind_eq_ok hrun
    obtain ⟨hq, rfl⟩ := pacerAt_eq_ok hread
    by_cases hstopped : q.power = .stopped
    · rw [if_pos hstopped] at hrest
      obtain ⟨rfl, q', hq', hreply⟩ := pacedReply_eq_ok hrest
      rw [hq] at hq'
      cases hq'
      exact ⟨⟨[], .done _⟩, q, hq, ⟨slept, last, hreply⟩, fun _ => hstopped⟩
    · rw [if_neg hstopped] at hrest
      obtain ⟨due, h₁, hdue, hturn⟩ := bind_eq_ok hrest
      dsimp only at hturn
      by_cases hnone : due = 0
      · subst hnone
        rw [if_neg (not_not_intro rfl)] at hturn
        obtain ⟨q', h₂, hread', hturn'⟩ := bind_eq_ok hturn
        obtain ⟨-, rfl⟩ := pacerAt_eq_ok hread'
        obtain ⟨_, _, hduration, hslept⟩ := bind_eq_ok hturn'
        cases hduration
        obtain ⟨_, h₃, hsleep, hgo⟩ := bind_eq_ok hslept
        obtain ⟨⟨turns, hcourse⟩, hended⟩ := ih hgo
        exact ⟨⟨turns, .idle hdue (.sleep hsleep hcourse)⟩, hended⟩
      · rw [if_pos hnone] at hturn
        obtain ⟨status, h₂, hbatch, hturn'⟩ := bind_eq_ok hturn
        obtain ⟨_, _, hduration, hslept⟩ := bind_eq_ok hturn'
        cases hduration
        obtain ⟨_, h₃, hsleep, hgo⟩ := bind_eq_ok hslept
        obtain ⟨⟨turns, hcourse⟩, hended⟩ := ih hgo
        exact ⟨⟨_, .batch hdue hnone hbatch (.sleep hsleep hcourse)⟩, hended⟩

/-- **A run of so many seconds** has a course to its end. -/
theorem course_of_runForRounds {wall : WallClock} {deadline : Float} {reads n : Nat}
    (hrun : runForRounds perform p wall deadline maxBatch sleeps reads slept last n h =
      (.ok reply, h')) :
    (∃ turns, Course perform p maxBatch sleeps h turns h') ∧ Ended p h' reply false := by
  induction n generalizing h reads slept last with
  | zero => cases hrun
  | succ n ih =>
    have hends {q : Pacer} (hq : h.pacers[p]? = some q)
        (hr : pacedReply p slept last h = (.ok reply, h')) :
        (∃ turns, Course perform p maxBatch sleeps h turns h') ∧ Ended p h' reply false := by
      obtain ⟨rfl, q', hq', hreply⟩ := pacedReply_eq_ok hr
      exact ⟨⟨[], .done _⟩, q', hq', ⟨slept, last, hreply⟩, nofun⟩
    obtain ⟨q, _, hread, hrest⟩ := bind_eq_ok hrun
    obtain ⟨hq, rfl⟩ := pacerAt_eq_ok hread
    by_cases hstopped : q.power = .stopped
    · rw [if_pos hstopped] at hrest
      exact hends hq hrest
    · rw [if_neg hstopped] at hrest
      obtain ⟨instant, _, hwall, hgo⟩ := bind_eq_ok hrest
      obtain rfl := readWall_eq_ok hwall
      by_cases hlate : (!decide (instant < deadline)) = true
      · rw [if_pos hlate] at hgo
        exact hends hq hgo
      · rw [if_neg hlate] at hgo
        obtain ⟨due, h₁, hdue, hturn⟩ := bind_eq_ok hgo
        by_cases hnone : due = 0
        · subst hnone
          rw [if_neg (not_not_intro rfl)] at hturn
          obtain ⟨q', h₂, hread', hturn'⟩ := bind_eq_ok hturn
          obtain ⟨-, rfl⟩ := pacerAt_eq_ok hread'
          obtain ⟨_, h₃, hsleep, hlater⟩ := bind_eq_ok hturn'
          obtain ⟨⟨turns, hcourse⟩, hended⟩ := ih hlater
          exact ⟨⟨turns, .idle hdue (.sleep hsleep hcourse)⟩, hended⟩
        · rw [if_pos hnone] at hturn
          obtain ⟨status, h₂, hbatch, hlater⟩ := bind_eq_ok hturn
          obtain ⟨⟨turns, hcourse⟩, hended⟩ := ih hlater
          exact ⟨⟨_, .batch hdue hnone hbatch hcourse⟩, hended⟩

/-! ### Sleeps -/

/-- Nothing is requested during the sleeps but that the clock moves. -/
def Sleeps.IsQuiet (sleeps : Sleeps) : Prop :=
  ∀ number, ∀ r ∈ sleeps.script.requests number, ∃ ns, r = .advanceClock ns

theorem sameButTime_bind {α β : Type} {x : HostM α} {f : α → HostM β}
    (hx : h.SameButTime (x h).2) (hf : ∀ (a : α) (h' : Host), h'.SameButTime (f a h').2) :
    h.SameButTime ((x >>= f) h).2 := by
  rw [bind_apply]
  rcases hr : x h with ⟨r | a, h'⟩ <;> rw [hr] at hx
  · exact hx
  · exact hx.trans (hf a h')

theorem sameButTime_advanceClock (ns : Int) (h : Host) :
    h.SameButTime (advanceClock ns h).2 := by
  rw [advanceClock, currentClock, bind_assoc, bind_of_ok (get_apply h)]
  cases hk : h.clock with
  | none =>
    rw [bind_of_error (required_none _ h)]
    exact .refl h
  | some k =>
    rw [bind_of_ok (required_some _ k h)]
    exact ⟨_, h.notes, rfl⟩

theorem sameButTime_performAll (depth : Nat) {requests : List Request}
    (hquiet : ∀ r ∈ requests, ∃ ns, r = .advanceClock ns) (h : Host) :
    h.SameButTime (performAll (performWithin depth) requests h).2 := by
  induction requests generalizing h with
  | nil => exact .refl h
  | cons r rest ih =>
    obtain ⟨ns, rfl⟩ := hquiet r List.mem_cons_self
    have hfirst : h.SameButTime (performWithin depth (.advanceClock ns) h).2 := by
      cases depth with
      | zero => exact .refl h
      | succ depth =>
        refine sameButTime_bind (x := currentPacer) ?_ fun _ h' =>
          sameButTime_bind (sameButTime_advanceClock ns h') fun _ h'' => .refl h''
        rw [currentPacer, bind_of_ok (get_apply h)]
        cases h.pacer <;> exact .refl h
    refine sameButTime_bind hfirst fun a h' => ?_
    have hnote : h'.SameButTime (note (.reply a) h').2 := ⟨h'.clocks, _, rfl⟩
    exact sameButTime_bind hnote fun _ h'' =>
      ih (fun r' hr' => hquiet r' (List.mem_cons_of_mem _ hr')) h''

theorem sameButTime_sleep (depth : Nat) (hquiet : sleeps.IsQuiet) (number : Nat) (duration : Float)
    (h : Host) : h.SameButTime (sleep (performWithin depth) sleeps number duration h).2 := by
  rw [sleep]
  by_cases hlimit : sleeps.limit < number
  · rw [if_pos hlimit]
    exact .refl h
  · rw [if_neg hlimit]
    refine sameButTime_bind ?_ fun ns h' =>
      sameButTime_bind (sameButTime_advanceClock ns h') fun _ h'' =>
        sameButTime_performAll depth (hquiet number) h''
    cases Binary64.truncate (duration * Pace.second) <;> exact .refl h

/-! ### Batches -/

theorem exists_clock_of_readClock {k : Nat} {instant : Int}
    (hr : readClock k h = (.ok instant, h')) :
    ∃ clock, h'.clocks[k]? = some clock ∧ clock.now = instant := by
  obtain ⟨_, _, hmodify, hrest⟩ := bind_eq_ok hr
  cases hmodify
  obtain ⟨_, _, hget, hrest'⟩ := bind_eq_ok hrest
  cases hget
  obtain ⟨clock, _, hrequired, hread⟩ := bind_eq_ok hrest'
  obtain ⟨hclock, rfl⟩ := required_eq_ok hrequired
  cases hread
  exact ⟨clock, hclock, rfl⟩

/-- What is due is what the instant of the pacer's clock amounts to, less the count. -/
theorem dueNow_eq_ok {q : Pacer} (hq : h.pacers[p]? = some q) {due : Int}
    (hdue : dueNow p h = (.ok due, h')) (hne : due ≠ 0) :
    ∃ clock target, h'.clocks[q.clock]? = some clock ∧
      Pace.instructionsBy (clock.now - q.base) q.rate = .ok target ∧
        due = max 0 (target - q.count) := by
  rw [dueNow, bind_of_ok (pacerAt_apply hq)] at hdue
  by_cases hrun : q.power = .running
  · rw [if_pos hrun, instructionsDue, bind_of_ok (pacerAt_apply hq)] at hdue
    obtain ⟨instant, h₁, hread, hrest⟩ := bind_eq_ok hdue
    obtain ⟨clock, hclock, rfl⟩ := exists_clock_of_readClock hread
    obtain ⟨hconversion, rfl⟩ := ofConversion_eq_ok hrest
    rw [Pace.instructionsDue_eq] at hconversion
    cases htarget : Pace.instructionsBy (clock.now - q.base) q.rate with
    | error failure =>
      rw [htarget] at hconversion
      cases hconversion
    | ok target =>
      rw [htarget] at hconversion
      cases hconversion
      exact ⟨clock, target, hclock, htarget, rfl⟩
  · rw [if_neg hrun] at hdue
    cases hdue
    exact absurd rfl hne

theorem sameButTime_dueNow {due : Int} (hdue : dueNow p h = (.ok due, h')) :
    h.SameButTime h' := by
  obtain ⟨clocks, hclocks⟩ := dueNow_changes p h
  rw [hdue] at hclocks
  exact ⟨clocks, h.notes, hclocks⟩

variable [KeepsRequests perform]

/-- So many single steps of the host lead to another one, but for clocks and notes, none of them is
refused, and all of them are counted. -/
def Makes (perform : Request → HostM Reply) (p : Nat) (s : Duo) (n : Nat) (h h' : Host) : Prop :=
  ((oneStep perform p)^[n] h).SameButTime h' ∧
    (Duo.next^[n] s).pacer.count = s.pacer.count + n ∧
      ∀ m < n, (Duo.next^[m] s).answer = .ok ()

theorem Makes.of_sameButTime {s : Duo} {n : Nat} {h₁ : Host} (hs : h.Paced p s)
    (hsame : h.SameButTime h₁) (hm : Makes perform p s n h₁ h') : Makes perform p s n h h' :=
  ⟨(iterate_sameButTime perform hs hsame n).trans hm.1, hm.2⟩

theorem Makes.append {s : Duo} {i n : Nat} {h₁ : Host} (hs : h.Paced p s)
    (hi : Makes perform p s i h h₁) (hn : Makes perform p (Duo.next^[i] s) n h₁ h') :
    Makes perform p s (n + i) h h' := by
  refine ⟨?_, ?_, fun m hm => ?_⟩
  · rw [Function.iterate_add_apply]
    exact (iterate_sameButTime perform (paced_iterate perform hs i) hi.1 n).trans hn.1
  · rw [Function.iterate_add_apply, hn.2.1, hi.2.1]
    omega
  · by_cases hmi : m < i
    · exact hi.2.2 m hmi
    · have hanswer := hn.2.2 (m - i) (by omega)
      rwa [← Function.iterate_add_apply, Nat.sub_add_cancel (Nat.le_of_not_lt hmi)] at hanswer

/-- **A batch is in time**, and is as many single steps as it has executed. -/
theorem makes_of_batch {s : Duo} (hs : h.Paced p s) {due : Int} {h₁ h₂ : Host}
    {status : Option Status} (hdue : dueNow p h = (.ok due, h₁)) (hne : due ≠ 0)
    (hbatch : runSteps perform p (min due maxBatch) h₁ = (.ok status, h₂)) :
    (Turn.mk h due h₁ h₂).IsInTime p ∧ ∃ i, Makes perform p s i h h₂ := by
  have hsame := sameButTime_dueNow hdue
  have hs₁ := hs.of_sameButTime hsame
  rw [runSteps_eq] at hbatch
  obtain ⟨_, h₂', hsteps, hreport⟩ := bind_eq_ok hbatch
  obtain ⟨i, hi, rfl, hcount, hanswers⟩ := exists_iterate_of_batch perform hs₁ hsteps
  have hafter := paced_iterate perform hs₁ i
  obtain rfl : h₂ = (oneStep perform p)^[i] h₁ := by
    rw [report, bind_of_ok (pacerAt_apply hafter.pacer)] at hreport
    exact (congrArg Prod.snd hreport).symm
  obtain ⟨clock, target, hclock, htarget, hmax⟩ := dueNow_eq_ok hs.pacer hdue hne
  refine ⟨⟨s.pacer, _, i, hs.pacer, hafter.pacer, hcount, ?_, clock, target, hclock, htarget, ?_⟩,
    i, iterate_sameButTime perform hs hsame i, hcount, hanswers⟩
  · show (i : Int) ≤ due
    omega
  · rw [hcount]
    omega

end HostM

namespace HostM

variable {p : Nat} {maxBatch : Int} {sleeps : Sleeps} {h h' : Host}

/-- **The course of a pacer** is its single steps, and each batch is in time. -/
theorem makes_of_course {depth : Nat} (hquiet : sleeps.IsQuiet) {turns : List Turn}
    (hc : Course (performWithin depth) p maxBatch sleeps h turns h') {s : Duo}
    (hs : h.Paced p s) :
    (∃ n, Makes (performWithin depth) p s n h h') ∧ ∀ t ∈ turns, t.IsInTime p := by
  induction hc generalizing s with
  | done h =>
    exact ⟨⟨0, .refl h, rfl, fun m hm => absurd hm (Nat.not_lt_zero m)⟩,
      fun t ht => absurd ht List.not_mem_nil⟩
  | idle hdue _ ih =>
    have hsame := sameButTime_dueNow hdue
    obtain ⟨⟨n, hmakes⟩, hturns⟩ := ih (hs.of_sameButTime hsame)
    exact ⟨⟨n, hmakes.of_sameButTime hs hsame⟩, hturns⟩
  | @sleep h h₁ _ number duration _ hsleep _ ih =>
    have hsame := sameButTime_sleep depth hquiet number duration h
    rw [hsleep] at hsame
    obtain ⟨⟨n, hmakes⟩, hturns⟩ := ih (hs.of_sameButTime hsame)
    exact ⟨⟨n, hmakes.of_sameButTime hs hsame⟩, hturns⟩
  | batch hdue hne hbatch _ ih =>
    obtain ⟨hinTime, i, hfirst⟩ := makes_of_batch hs hdue hne hbatch
    have hs₂ := (paced_iterate (performWithin depth) hs i).of_sameButTime hfirst.1
    obtain ⟨⟨n, hmakes⟩, hturns⟩ := ih hs₂
    refine ⟨⟨n + i, hfirst.append hs hmakes⟩, fun t ht => ?_⟩
    rcases List.mem_cons.mp ht with rfl | ht
    · exact hinTime
    · exact hturns t ht

/-! ### The beginning -/

/-- A pacer without frame callback plans nothing but ticks of the timers. -/
theorem paced_of_planned {q : Pacer} {e : Engine} (hplanned : PacersPlanned h.pacers)
    (horder : PacersInOrder h.pacers) (hq : h.pacers[p]? = some q) (hframes : q.frames = none)
    (he : h.engines[q.handle.engine]? = some e) (halone : e.Alone)
    (hcurrent : (isCurrent q.handle h).1 = .ok true) : h.Paced p ⟨q, e⟩ where
  pacer := hq
  engine := he
  current := hcurrent
  order := horder
  plain := by
    have hcalm : q.IsCalm := by
      rw [Pacer.IsCalm, hframes]
      exact fun _ h => absurd h (by simp)
    have hplan := hplanned p q hq hcalm
    have hsilent : q.pending .showFrame = 0 :=
      hplan.none_unwanted .showFrame (.inr rfl) ((horder p q hq).silent hframes)
    refine ⟨halone, fun ev hev => ?_⟩
    rcases hplan.regular ev hev with htick | hshow
    · exact htick
    · have hpos : 0 < q.pending .showFrame :=
        List.countP_pos_iff.mpr ⟨ev, hev, decide_eq_true hshow⟩
      omega

/-- **Powering on** a pacer without frame callback leaves its count as it is. -/
theorem paced_powerOn {q : Pacer} {e : Engine} (hr : h.Reachable) (hq : h.pacers[p]? = some q)
    (hframes : q.frames = none) (he : h.engines[q.handle.engine]? = some e) (halone : e.Alone)
    (hcurrent : (isCurrent q.handle h).1 = .ok true) (hon : powerOn p h = (.ok (), h')) :
    ∃ s : Duo, h'.Paced p s ∧ s.pacer.count = q.count := by
  obtain ⟨base, hengines, hsessions, hpacer⟩ := powerOn_eq_ok hq hon
  have hplanned : PacersPlanned (powerOn p h).2.pacers := KeepsPacers.keeps h hr.planned
  have hfollows : Host.Follows h (powerOn p h).2 := Keeps.follows h
  have horder := hfollows.pacers.inOrder hr.inOrder
  rw [hon] at hplanned horder
  have hsetup := Pacer.SameSetup.startPeriodic { q with power := .running, base }
  have he' : h'.engines[q.handle.engine]? = some e := by
    rw [hengines]
    exact he
  refine ⟨⟨_, e⟩, paced_of_planned hplanned horder hpacer (hsetup.frames_eq.trans hframes) ?_
    halone ?_, Pacer.count_startPeriodic _⟩
  · rw [hsetup.handle_eq]
    exact he'
  · rw [hsetup.handle_eq]
    exact (isCurrent_congr he he' rfl rfl rfl hsessions).trans hcurrent

end HostM

inductive PacedRun
  | untilStopped
  | forSeconds (wall : WallClock) (seconds : Float)

def PacedRun.make (perform : Request → HostM Reply) (p : Nat) (maxBatch : Int)
    (sleeps : HostM.Sleeps) : PacedRun → HostM Reply
  | untilStopped => HostM.run perform p maxBatch sleeps
  | forSeconds wall seconds => HostM.runFor perform p wall seconds maxBatch sleeps

open HostM

/-- A paced run begins with powering on a pacer that has stopped. -/
structure Begins (p : Nat) (q : Pacer) (h h₀ : Host) : Prop where
  stopped : q.power = .stopped → powerOn p h = (.ok (), h₀)
  on : q.power ≠ .stopped → h₀ = h

theorem begins_of_ensureOn {p : Nat} {h h₀ : Host} {q : Pacer} (hq : h.pacers[p]? = some q)
    (hon : ensureOn p h = (.ok (), h₀)) : Begins p q h h₀ := by
  rw [ensureOn, bind_of_ok (pacerAt_apply hq)] at hon
  by_cases hstopped : q.power = .stopped
  · rw [if_pos hstopped] at hon
    exact ⟨fun _ => hon, absurd hstopped⟩
  · rw [if_neg hstopped] at hon
    cases hon
    exact ⟨(absurd · hstopped), fun _ => rfl⟩

theorem PacedRun.course_of_make {perform : Request → HostM Reply} {p : Nat} {maxBatch : Int}
    {sleeps : Sleeps} {h h' : Host} {q : Pacer} {reply : Reply} (hq : h.pacers[p]? = some q)
    {w : PacedRun} (hrun : w.make perform p maxBatch sleeps h = (.ok reply, h')) :
    ∃ h₀, Begins p q h h₀ ∧ (∃ turns, Course perform p maxBatch sleeps h₀ turns h') ∧
      Ended p h' reply (w matches .untilStopped) := by
  cases w with
  | untilStopped =>
    obtain ⟨_, h₀, hon, hrounds⟩ := bind_eq_ok hrun
    exact ⟨h₀, begins_of_ensureOn hq hon, course_of_runRounds hrounds⟩
  | forSeconds wall seconds =>
    obtain ⟨_, h₀, hon, hrest⟩ := bind_eq_ok hrun
    obtain ⟨began, _, hwall, hrounds⟩ := bind_eq_ok hrest
    obtain rfl := readWall_eq_ok hwall
    exact ⟨_, begins_of_ensureOn hq hon, course_of_runForRounds hrounds⟩

/-- **A paced run is so many single steps.**  Take a host that requests lead to, a pacer without
frame callback whose handle is current and whose source is plain, and a paced run over it, for so
many seconds by any wall clock or until the pacer has stopped, during whose sleeps nothing is
requested but that the clock moves.  If the run returns, the host is, but
for clocks and notes, the one that powering on a pacer that has stopped and then `n` batches of one
step lead to, where `n` is what the count has gone up by; none of these steps is refused, and the
last status is reported.  No batch of the run has executed more steps than were due just before it,
nor gone beyond what the instant of the clock amounts to.  A run until the pacer has stopped returns
only then. -/
theorem paced_runs_are_single_steps {h : Host} (hr : h.Reachable) {p : Nat} {q : Pacer}
    (hq : h.pacers[p]? = some q) (hframes : q.frames = none) {e : Engine}
    (he : h.engines[q.handle.engine]? = some e) (hplain : e.source.IsPlain)
    (hcurrent : (isCurrent q.handle h).1 = .ok true) (depth : Nat) (maxBatch : Int)
    {sleeps : Sleeps} (hquiet : sleeps.IsQuiet) {w : PacedRun} {reply : Reply} {h' : Host}
    (hrun : w.make (performWithin depth) p maxBatch sleeps h = (.ok reply, h')) :
    ∃ h₀ n q' turns,
      (q.power = .stopped → powerOn p h = (.ok (), h₀)) ∧ (q.power ≠ .stopped → h₀ = h) ∧
      ((oneStep (performWithin depth) p)^[n] h₀).SameButTime h' ∧
      h'.pacers[p]? = some q' ∧ q'.count = q.count + n ∧
      (∀ m < n, (runSteps (performWithin depth) p 1
        ((oneStep (performWithin depth) p)^[m] h₀)).1.isOk = true) ∧
      (∃ slept last, reply = .paced q'.lastStatus slept last) ∧
      Course (performWithin depth) p maxBatch sleeps h₀ turns h' ∧
      (∀ t ∈ turns, t.IsInTime p) ∧
      (w = .untilStopped → q'.power = .stopped) := by
  have halone : e.Alone := ⟨hr.free he, hplain⟩
  obtain ⟨h₀, hbegun, ⟨turns, hcourse⟩, q', hq', hreply, hstopped⟩ :=
    PacedRun.course_of_make hq hrun
  have hpaced : ∃ s : Duo, h₀.Paced p s ∧ s.pacer.count = q.count := by
    by_cases hoff : q.power = .stopped
    · exact paced_powerOn hr hq hframes he halone hcurrent (hbegun.stopped hoff)
    · rw [hbegun.on hoff]
      exact ⟨_, paced_of_planned hr.planned hr.inOrder hq hframes he halone hcurrent, rfl⟩
  obtain ⟨s, hs, hcount⟩ := hpaced
  obtain ⟨⟨n, hsame, hmade, hanswers⟩, hinTime⟩ := makes_of_course hquiet hcourse hs
  have hend := ((paced_iterate (performWithin depth) hs n).of_sameButTime hsame).pacer
  have hlast : q' = (Duo.next^[n] s).pacer := Option.some.inj (hq'.symm.trans hend)
  refine ⟨h₀, n, q', turns, hbegun.stopped, hbegun.on, hsame, hq', by rw [hlast, hmade, hcount],
    fun m hm => ?_, hreply, hcourse, hinTime, ?_⟩
  · have hs' := paced_iterate (performWithin depth) hs m
    rw [runSteps_one_of_paced (performWithin depth) hs' (hanswers m hm)]
    rfl
  · rintro rfl
    exact hstopped rfl

/-- A host with a pacer over a program of three instructions, whose clock shows instants that lie
further and further apart. -/
def briefHost : Host :=
  ((Host.ofFiles ⟨[], []⟩).play [
    .newEngine [] [] 0, .loadRom [0x60, 0x01, 0x61, 0x02, 0x70, 0x01] "BRIEF", .start,
    .newPacer 0 120 60 (1 / 60) none ⟨fun k => 1000 * k * k, 0, 0⟩]).2

def briefPacer : Pacer :=
  briefHost.pacers[0]?.get (by decide +kernel)

def briefEngine : Engine :=
  briefHost.engines[0]?.get (by decide +kernel)

/-- The clock jumps ahead in the second sleep, and back in the third one. -/
def jumpySleeps : Sleeps :=
  ⟨⟨[(2, [.advanceClock 20000000]), (3, [.advanceClock (-1000000)])]⟩, 100⟩

/-- A wall clock that stands still once, and in the end jumps ahead. -/
def jumpyWall : WallClock :=
  .ofReadings fun k => [0.5, 0.625, 0.625, 1.25].getD k 9

def briefRun (w : PacedRun) : Except Refusal Reply × Host :=
  w.make (performWithin 9) 0 1000 jumpySleeps briefHost

/-- From powering on, the run makes `n` single steps and leaves the pacer in a state of power. -/
def RunsInSteps (w : PacedRun) (n : Nat) (power : Power) : Prop :=
  ∃ h₀ q', powerOn 0 briefHost = (.ok (), h₀) ∧
    ((oneStep (performWithin 9) 0)^[n] h₀).SameButTime (briefRun w).2 ∧
    (briefRun w).2.pacers[0]? = some q' ∧ q'.count = n ∧ q'.power = power

theorem isQuiet_jumpySleeps : jumpySleeps.IsQuiet := by
  intro number r hr
  by_cases hnumber : number ∈ jumpySleeps.script.entries.map Prod.fst
  · have hcases : number = 2 ∨ number = 3 := by simpa [jumpySleeps] using hnumber
    rcases hcases with rfl | rfl
    · exact ⟨20000000, List.mem_singleton.mp hr⟩
    · exact ⟨-1000000, List.mem_singleton.mp hr⟩
  · rw [Script.requests_of_not_mem hnumber] at hr
    cases hr

/-- The fourth step finds the end of the program.  The run of one second of the wall clock ends
before, with the program still running. -/
theorem paced_runs_are_single_steps_of_end :
    RunsInSteps .untilStopped 4 .stopped ∧ RunsInSteps (.forSeconds jumpyWall 1) 1 .running := by
  have hr : briefHost.Reachable := (Host.Reachable.start ⟨[], []⟩).play _
  have hq : briefHost.pacers[0]? = some briefPacer := (Option.some_get _).symm
  have hengine : briefPacer.handle.engine = 0 := by decide +kernel
  have he : briefHost.engines[briefPacer.handle.engine]? = some briefEngine := by
    rw [hengine]
    exact (Option.some_get _).symm
  have hframes : briefPacer.frames = none := Option.isNone_iff_eq_none.mp (by decide +kernel)
  have hstopped : briefPacer.power = .stopped := by decide +kernel
  have hcount : briefPacer.count = 0 := by decide +kernel
  have hplain : briefEngine.source.IsPlain := by
    have hnil : briefEngine.source.draws.isEmpty = true := by decide +kernel
    intro d hd
    rw [List.isEmpty_iff.mp hnil] at hd
    cases hd
  have hcurrent : (isCurrent briefPacer.handle briefHost).1 = .ok true :=
    eq_ok_of_toOption (by decide +kernel)
  have hruns {w : PacedRun} {n : Nat} {power : Power} (hok : (briefRun w).1.isOk = true)
      (hend : (briefRun w).2.pacers[0]?.map (fun q => (q.count, q.power)) = some (n, power)) :
      RunsInSteps w n power := by
    rcases hrun : briefRun w with ⟨_ | reply, h'⟩ <;> rw [hrun] at hok hend
    · cases hok
    · obtain ⟨h₀, m, q', turns, hon, -, hsame, hq', hmade, -⟩ :=
        paced_runs_are_single_steps hr hq hframes he hplain hcurrent 9 1000
          isQuiet_jumpySleeps hrun
      rw [hq'] at hend
      obtain ⟨rfl, rfl⟩ := Prod.mk.inj (Option.some.inj hend)
      rw [hcount, Nat.zero_add] at hmade
      rw [← hmade] at hsame
      exact ⟨h₀, q', hon hstopped, by rw [hrun]; exact hsame, by rw [hrun]; exact hq', rfl, rfl⟩
  exact ⟨hruns (by decide +kernel) (by decide +kernel),
    hruns (by decide +kernel) (by decide +kernel)⟩

end Chip8
