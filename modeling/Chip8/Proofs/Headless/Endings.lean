import Chip8.Proofs.Headless.Launch
import Chip8.Proofs.Headless.Rounds

/-!
# How a run ends

A run with a limit of instructions makes its steps until the program halts, a
breakpoint is met or the limit is reached, then dumps the memory and writes its
report.  None of this is refused if the rate is a finite number and the dump can
be written; then the run has an exit code.

* `run_of_begun`: a run that has begun ends where single steps end.
* `dump_cases`: only the file of a dump can stand in its way.
* `run_ends_like_single_steps`: limits, breakpoints and exit codes.
* `exits_iff_isFinite`: which command lines end with an exit code.
-/

namespace Chip8.Headless

open HostM (oneStep)

instance keepsRequests_perform : HostM.KeepsRequests HostM.perform :=
  HostM.keepsRequests_performWithin HostM.nestingLimit

variable {plan : Plan} {limits : Limits} {files : Files} {draws : SeededDraws}
  {addresses : List Int} {p k n : Nat} {h h₁ : Host} {r : RunResult}

/-! ### The result of a run -/

/-- The exit code of a run that leaves a host. -/
structure ExitsWith (p : Nat) (addresses : List Int) (h : Host) (code : Nat) : Prop where
  halted : ∀ q reason, h.pacers[p]? = some q → q.lastStatus = some (.halted reason) →
    code = if reason.isFault then 4 else 0
  stopped : ¬Halts p h → Meets p addresses h → code = 0
  limited : ¬Halts p h → ¬Meets p addresses h → code = 2

theorem exit_of_not_halts (hr : Reports p addresses k h r) (hhalts : ¬Halts p h) :
    r.exit.1 = if r.breakHit then 0 else if r.cycleHit then 2 else 0 := by
  obtain ⟨q, hq, hstatus⟩ := hr.status_eq
  rw [RunResult.exit, hr.timeoutHit_eq]
  split
  · next reason heq => exact absurd ⟨q, reason, hq, hstatus.symm.trans heq⟩ hhalts
  · cases r.breakHit <;> cases r.cycleHit <;> rfl

/-- **The exit code** tells how a run without a limit of time has ended. -/
theorem exitsWith_of_reports (hr : Reports p addresses k h r) :
    ExitsWith p addresses h r.exit.1 where
  halted q reason hq hhalted := by
    obtain ⟨q', hq', hstatus⟩ := hr.status_eq
    obtain rfl : q = q' := by simpa [hq] using hq'
    rw [RunResult.exit, hstatus, hhalted]
  stopped hhalts hmeets := by
    rw [exit_of_not_halts hr hhalts, if_pos (hr.breakHit_iff.mpr ⟨hhalts, hmeets⟩)]
  limited hhalts hmeets := by
    have hbreak : ¬r.breakHit = true := fun hbreak => hmeets (hr.breakHit_iff.mp hbreak).2
    rw [exit_of_not_halts hr hhalts, if_neg hbreak, if_pos (hr.cycleHit_iff.mpr ⟨hhalts, hmeets⟩)]

theorem not_meets_nil : ¬Meets p [] h := by
  rintro ⟨_, _, -, -, hmem⟩
  cases hmem

/-- A host is reported in one way only; addresses that it does not meet do not matter. -/
theorem eq_of_reports {r' : RunResult} (hr : Reports p addresses k h r)
    (hr' : Reports p [] k h r') (hmeets : ¬Meets p addresses h) : r' = r := by
  obtain ⟨q, hq, hstatus⟩ := hr.status_eq
  obtain ⟨q', hq', hstatus'⟩ := hr'.status_eq
  obtain rfl : q = q' := by simpa [hq] using hq'
  have hbreak : r'.breakHit = r.breakHit := by
    rw [Bool.eq_iff_iff, hr.breakHit_iff, hr'.breakHit_iff]
    simp [hmeets, not_meets_nil]
  have hcycle : r'.cycleHit = r.cycleHit := by
    rw [Bool.eq_iff_iff, hr.cycleHit_iff, hr'.cycleHit_iff]
    simp [hmeets, not_meets_nil]
  rcases r with ⟨executed, status, breakHit, timeoutHit, cycleHit⟩
  rcases r' with ⟨executed', status', breakHit', timeoutHit', cycleHit'⟩
  obtain rfl : executed = k := hr.executed_eq
  obtain rfl : executed' = executed := hr'.executed_eq
  obtain rfl : timeoutHit = false := hr.timeoutHit_eq
  obtain rfl : timeoutHit' = false := hr'.timeoutHit_eq
  obtain rfl : breakHit' = breakHit := hbreak
  obtain rfl : cycleHit' = cycleHit := hcycle
  rw [show status' = q.lastStatus from hstatus', show status = q.lastStatus from hstatus]

/-! ### Runs that have begun -/

/-- There is no limit of time. -/
def Limits.Untimed (l : Limits) : Prop :=
  ∀ seconds, l.seconds = some seconds → ¬0 ≤ seconds

theorem Limits.Untimed.deadline_eq {l : Limits} (hl : l.Untimed) (now : Float) :
    l.deadline now = none := by
  rw [deadline]
  cases hs : l.seconds with
  | none => rfl
  | some seconds => exact if_neg (hl seconds hs)

/-- **A run that has begun** comes to an end, and without a limit of time it ends where single
steps end. -/
theorem run_of_begun (hon : HostM.powerOn 0 h₁ = (.ok (), h)) (hb : Begun files h)
    (hcycles : limits.cycles = some n) (hn : 0 < n) (watch : Stopwatch) : ∃ k r,
      run HostM.perform 0 limits watch h₁ = (.ok r, (oneStep HostM.perform 0)^[k] h) ∧
        (limits.Untimed → EndsAt HostM.perform 0 limits.breakpoints n k h ∧
          Reports 0 limits.breakpoints k ((oneStep HostM.perform 0)^[k] h) r) := by
  obtain ⟨x, T, e, -, hT, htracks, hlive⟩ := hb.tracks
  have hrounds : n < limits.rounds := by
    rw [Limits.rounds, hcycles]
    exact Nat.lt_succ_self n
  obtain ⟨k, r, hr, hends⟩ := runRounds_of_tracks HostM.perform hcycles hT
    (limits.deadline watch.now) limits.rounds watch.advance 0 n htracks hlive rfl hb.inOrder
    (Nat.zero_add n) hrounds (.inl hn)
  refine ⟨k, r, ?_, fun hl => ?_⟩
  · rw [run, HostM.bind_of_ok hon]
    exact hr
  · have hends' := hends (hl.deadline_eq watch.now)
    rwa [Nat.zero_add] at hends'

/-- Without addresses single steps end where they end with addresses that are not met. -/
theorem endsAt_of_free {perform : Request → HostM Reply}
    (he : EndsAt perform p addresses n k h)
    (hfree : ∀ j, 0 < j → j ≤ k → ¬Meets p addresses ((oneStep perform p)^[j] h)) :
    EndsAt perform p [] n k h where
  le := he.le
  before j hj hlt := ⟨(he.before j hj hlt).1, not_meets_nil⟩
  last hlt := by
    obtain ⟨hpos, hstop⟩ := he.last hlt
    exact ⟨hpos, .inl (hstop.resolve_right (hfree k hpos (Nat.le_refl k)))⟩

/-- **Breakpoints that are not met** change nothing: batches end where single steps do. -/
theorem run_of_free (hon : HostM.powerOn 0 h₁ = (.ok (), h)) (hb : Begun files h)
    (hcycles : limits.cycles = some n) (hn : 0 < n) (htime : limits.Untimed) (watch : Stopwatch)
    (hends : EndsAt HostM.perform 0 limits.breakpoints n k h)
    (hreports : Reports 0 limits.breakpoints k ((oneStep HostM.perform 0)^[k] h) r)
    (hfree : ∀ j, 0 < j → j ≤ k →
      ¬Meets 0 limits.breakpoints ((oneStep HostM.perform 0)^[j] h)) :
    run HostM.perform 0 { limits with breakpoints := [] } watch h₁ =
      (.ok r, (oneStep HostM.perform 0)^[k] h) := by
  have hcycles' : ({ limits with breakpoints := [] } : Limits).cycles = some n := hcycles
  obtain ⟨k', r', hrun, hends'⟩ := run_of_begun hon hb hcycles' hn watch
  obtain ⟨hends', hreports'⟩ := hends' htime
  obtain rfl : k' = k := hends'.unique (endsAt_of_free hends hfree)
  have hmeets := hfree k' (hends.pos hn) (Nat.le_refl k')
  rw [hrun, eq_of_reports hreports hreports' hmeets]

theorem surroundings_of_begun (hb : Begun files h) (k : Nat) :
    ((oneStep HostM.perform 0)^[k] h).files = files ∧
      ∃ e : Engine, ((oneStep HostM.perform 0)^[k] h).engines[0]? = some e := by
  obtain ⟨x, T, e, hx, hT, htracks, hlive⟩ := hb.tracks
  obtain ⟨htracks', engines, pacers, log, hsame⟩ :=
    HostM.tracks_iterate HostM.perform hT htracks hlive k
  refine ⟨?_, _, hx ▸ htracks'.engine⟩
  rw [hsame]
  exact hb.files_eq

theorem runSteps_one_of_begun (hb : Begun files h) (j : Nat) : ∃ status,
    HostM.runSteps HostM.perform 0 1 ((oneStep HostM.perform 0)^[j] h) =
      (.ok status, (oneStep HostM.perform 0)^[j + 1] h) := by
  obtain ⟨x, T, e, -, hT, htracks, hlive⟩ := hb.tracks
  have htracks' := (HostM.tracks_iterate HostM.perform hT htracks hlive j).1
  have horder := HostM.inOrder_iterate HostM.perform hT htracks hlive hb.inOrder j
  have hstep := HostM.runSteps_eq_iterate HostM.perform hT htracks' (hlive.iterate j) horder 1
  rw [Function.iterate_succ_apply']
  exact ⟨_, hstep⟩

/-! ### The dump and the report -/

/-- The file at the path can be written. -/
def Writable (files : Files) (path : String) : Prop :=
  files.isDirectory (Text.normalPath path) = false ∧
    files.isDirectory (Text.parentPath (Text.normalPath path)) = true

/-- What a dump is saved to can be written, if there is anything. -/
def Settings.CanDump (s : Settings) (files : Files) : Prop :=
  ∀ path, s.dump = some path → Writable files path

theorem save_of_writable {path : String} (hw : Writable files path) (data : List UInt8) :
    ∃ g, files.save path data = .ok g :=
  ⟨_, Files.save_eq_ok_iff.mpr ⟨hw.1, hw.2, rfl⟩⟩

theorem deliver_cases (target : Option String) (data : List UInt8) (h : Host) :
    let deliver : HostM (List UInt8) := match target with
      | none => return data
      | some path => do
        let files ← HostM.ofExcept ((← get).files.save path data)
        modify fun h => { h with files }
        return []
    (∃ out h', deliver h = (.ok out, h') ∧ h'.engines = h.engines) ∨
      ∃ path refusal h', target = some path ∧ ¬Writable h.files path ∧
        deliver h = (.error refusal, h') := by
  intro deliver
  cases target with
  | none => exact .inl ⟨data, h, rfl, rfl⟩
  | some path =>
    cases hs : h.files.save path data with
    | ok files =>
      refine .inl ⟨[], { h with files }, ?_, rfl⟩
      show (get >>= fun host => HostM.ofExcept (host.files.save path data) >>= _) h = _
      rw [HostM.bind_of_ok (HostM.get_apply h), hs, HostM.bind_of_ok (HostM.ofExcept_apply _ h)]
      rfl
    | error refusal =>
      refine .inr ⟨path, refusal, h, rfl, fun hw => ?_, ?_⟩
      · obtain ⟨files, hfiles⟩ := save_of_writable hw data
        rw [hfiles] at hs
        cases hs
      · show (get >>= fun host => HostM.ofExcept (host.files.save path data) >>= _) h = _
        rw [HostM.bind_of_ok (HostM.get_apply h), hs,
          HostM.bind_of_error (HostM.ofExcept_apply _ h)]

/-- **Only its file can stand in the way of a dump**, and the engines stay as they are. -/
theorem dump_cases {e : Engine} (hranges : ∀ r ∈ plan.dumpRanges, r.Within)
    (he : h.engines[0]? = some e) :
    (∃ out h', dump plan 0 h = (.ok out, h') ∧ h'.engines = h.engines) ∨
      ∃ path refusal h', plan.settings.dump = some path ∧ ¬Writable h.files path ∧
        dump plan 0 h = (.error refusal, h') := by
  by_cases hformat : plan.settings.dumpFormat = .none
  · exact .inl ⟨[], h, by rw [dump, if_pos hformat]; rfl, rfl⟩
  obtain ⟨data, hdata⟩ : ∃ data, Dump.contents plan.settings.dumpFormat e.machine.memory
    plan.dumpRanges = .ok data := contents_of_within plan.settings.dumpFormat hranges
  rw [dump, if_neg hformat, HostM.bind_of_ok (HostM.engine_apply he), hdata]
  dsimp only
  split
  · rw [HostM.bind_of_ok (HostM.logAll_apply _ h), HostM.bind_of_ok (HostM.ofMemory_ok data _)]
    exact deliver_cases plan.settings.dump data _
  · rw [HostM.bind_of_ok (HostM.ofMemory_ok data h)]
    exact deliver_cases plan.settings.dump data h

/-- **A run that is not refused** ends with its exit code, unless its dump cannot be written. -/
theorem outcome_of_run {h₀ h₂ : Host} {watch : Stopwatch} (hplan : plan.Accepted)
    (hprepare : prepare plan draws (Host.ofFiles files) = (.ok (.ok 0), h₀))
    (hlaunch : launch plan 0 h₀ = (.ok 0, h₁))
    (hrun : run HostM.perform 0 plan.limits watch h₁ = (.ok r, h₂)) (hfiles : h₂.files = files)
    (he : ∃ e : Engine, h₂.engines[0]? = some e) :
    (outcomeOfPlan HostM.perform plan files draws watch).ending = .ok r.exit.1 ∨
      ¬plan.settings.CanDump files ∧ ∃ refusal,
        (outcomeOfPlan HostM.perform plan files draws watch).ending = .error refusal := by
  obtain ⟨e, he⟩ := he
  have hrunPlan : runPlan HostM.perform plan draws watch (Host.ofFiles files) = (do
      let dumped ← dump plan 0
      let m ← HostM.machine 0
      return (r.exit.1, dumped ++ linesBytes (reportLines plan.settings m), r.exit.2) :
        HostM (Nat × List UInt8 × Option String)) h₂ := by
    rw [runPlan, HostM.bind_of_ok hprepare]
    dsimp only
    rw [HostM.bind_of_ok hlaunch, HostM.bind_of_ok hrun]
  rcases dump_cases hplan.ranges he with ⟨out, h₃, hdump, hengines⟩ |
    ⟨path, refusal, h₃, hpath, hw, hdump⟩
  · left
    have he₃ : h₃.engines[0]? = some e := by rw [hengines, he]
    rw [HostM.bind_of_ok hdump, HostM.bind_of_ok (HostM.machine_apply he₃)] at hrunPlan
    rw [outcomeOfPlan, hrunPlan]
    rfl
  · right
    rw [hfiles] at hw
    refine ⟨fun hdumps => hw (hdumps path hpath), refusal, ?_⟩
    rw [HostM.bind_of_error hdump] at hrunPlan
    rw [outcomeOfPlan, hrunPlan]

/-! ### Limits, breakpoints and exit codes -/

/-- **A run ends where single steps end.**  Take a plan with a limit of `n` instructions and
without a limit of time.  Its run comes to an end, and there is a `k` such that it leaves the host
as the pacer leaves it that has made `k` single steps: the `k`-th is the first one that halts the
program or meets a breakpoint, and `k = n` if none of the first `n` does.  None of the steps is
refused.  The result counts `k` instructions and says how the run has ended, and so does the exit
code.  Breakpoints that are not met change nothing. -/
theorem run_ends_like_single_steps (hplan : plan.Accepted)
    (hcycles : plan.limits.cycles = some n) (hn : 0 < n) (htime : plan.limits.Untimed)
    (hfinite : plan.settings.rate.isFinite = true) (hrom : files.HasRom plan.rom)
    (hplain : ∀ d ∈ draws plan.settings.seed, d.before = none) (watch : Stopwatch) :
    ∃ h₀ h₁ h k r,
      prepare plan draws (Host.ofFiles files) = (.ok (.ok 0), h₀) ∧
      launch plan 0 h₀ = (.ok 0, h₁) ∧
      HostM.powerOn 0 h₁ = (.ok (), h) ∧
      run HostM.perform 0 plan.limits watch h₁ = (.ok r, (oneStep HostM.perform 0)^[k] h) ∧
      0 < k ∧ EndsAt HostM.perform 0 plan.limits.breakpoints n k h ∧
      (∀ j, ∃ status, HostM.runSteps HostM.perform 0 1 ((oneStep HostM.perform 0)^[j] h) =
        (.ok status, (oneStep HostM.perform 0)^[j + 1] h)) ∧
      Reports 0 plan.limits.breakpoints k ((oneStep HostM.perform 0)^[k] h) r ∧
      ExitsWith 0 plan.limits.breakpoints ((oneStep HostM.perform 0)^[k] h) r.exit.1 ∧
      (∀ code, (outcomeOfPlan HostM.perform plan files draws watch).ending = .ok code →
        code = r.exit.1) ∧
      (plan.settings.CanDump files →
        (outcomeOfPlan HostM.perform plan files draws watch).ending = .ok r.exit.1) ∧
      ((∀ j, 0 < j → j ≤ k →
          ¬Meets 0 plan.limits.breakpoints ((oneStep HostM.perform 0)^[j] h)) →
        run HostM.perform 0 { plan.limits with breakpoints := [] } watch h₁ =
          run HostM.perform 0 plan.limits watch h₁) := by
  obtain ⟨h₀, h₁, h, hprepare, hlaunch, hon, hb⟩ := exists_begun hplan hfinite hrom hplain
  obtain ⟨k, r, hrun, hends⟩ := run_of_begun hon hb hcycles hn watch
  obtain ⟨hends, hreports⟩ := hends htime
  obtain ⟨hfiles, hengine⟩ := surroundings_of_begun hb k
  have hending := outcome_of_run hplan hprepare hlaunch hrun hfiles hengine
  refine ⟨h₀, h₁, h, k, r, hprepare, hlaunch, hon, hrun, hends.pos hn, hends,
    runSteps_one_of_begun hb, hreports, exitsWith_of_reports hreports, ?_, ?_, ?_⟩
  · intro code hcode
    rcases hending with hok | ⟨-, refusal, herror⟩
    · rw [hok] at hcode
      exact (Except.ok.inj hcode).symm
    · rw [herror] at hcode
      cases hcode
  · intro hdumps
    rcases hending with hok | ⟨hnot, -⟩
    · exact hok
    · exact absurd hdumps hnot
  · intro hfree
    rw [hrun]
    exact run_of_free hon hb hcycles hn htime watch hends hreports hfree

/-- A program that sets a register over and over. -/
def loopFiles : Files :=
  .ofList [("loop.ch8", [0x60, 0x01, 0x12, 0x00])]

/-- At most three of its instructions, with a breakpoint at the jump. -/
def loopPlan : Plan where
  settings := { Settings.initial with rom := some "loop.ch8", cycles := 3 }
  rom := "loop.ch8"
  limits := ⟨some 3, [0x202], none⟩
  keys := []
  dumpRanges := []

def noDraws : SeededDraws :=
  fun _ => []

theorem run_ends_like_single_steps_of_loop : ∃ h₁ h k r,
    run HostM.perform 0 loopPlan.limits ⟨0, 0⟩ h₁ = (.ok r, (oneStep HostM.perform 0)^[k] h) ∧
      EndsAt HostM.perform 0 [0x202] 3 k h ∧
      ExitsWith 0 [0x202] ((oneStep HostM.perform 0)^[k] h) r.exit.1 ∧
      (outcomeOfPlan HostM.perform loopPlan loopFiles noDraws ⟨0, 0⟩).ending =
        .ok r.exit.1 := by
  have hplan : loopPlan.Accepted := ⟨by simp [loopPlan], by simp [loopPlan], by decide⟩
  have htime : loopPlan.limits.Untimed := by rintro _ ⟨⟩
  have hrom : loopFiles.HasRom loopPlan.rom := ⟨[0x60, 0x01, 0x12, 0x00], by decide +kernel⟩
  have hdump : loopPlan.settings.CanDump loopFiles := by rintro _ ⟨⟩
  have hplain : ∀ d ∈ noDraws loopPlan.settings.seed, d.before = none :=
    fun _ hd => absurd hd List.not_mem_nil
  obtain ⟨h₀, h₁, h, k, r, -, -, -, hrun, -, hends, -, -, hexits, -, hending, -⟩ :=
    run_ends_like_single_steps hplan rfl (by decide) htime rfl hrom hplain ⟨0, 0⟩
  exact ⟨h₁, h, k, r, hrun, hends, hexits, hending hdump⟩

/-! ### Command lines and exit codes -/

theorem ending_of_not_hasRom (watch : Stopwatch) (hrom : ¬files.HasRom plan.rom) :
    (outcomeOfPlan HostM.perform plan files draws watch).ending = .ok 1 := by
  obtain ⟨r, h, hprepare⟩ := prepare_of_not_hasRom draws hrom
  have hrunPlan : runPlan HostM.perform plan draws watch (Host.ofFiles files) =
      (.ok (1, [], some ("Failed to load ROM: " ++ r.message)), h) := by
    rw [runPlan, HostM.bind_of_ok hprepare]
    rfl
  rw [outcomeOfPlan, hrunPlan]

theorem ending_of_not_isFinite (hplan : plan.Accepted) (hrom : files.HasRom plan.rom)
    (hplain : ∀ d ∈ draws plan.settings.seed, d.before = none)
    (hfinite : ¬plan.settings.rate.isFinite = true) (watch : Stopwatch) : ∃ refusal,
      (outcomeOfPlan HostM.perform plan files draws watch).ending = .error refusal := by
  obtain ⟨e, log, hprepare, he⟩ := prepare_of_hasRom hrom hplain
  obtain ⟨e', -, hlaunch⟩ := launch_apply files log he hplan.keys
  rcases hnew : HostM.newPacer ⟨0, e'.generation⟩ plan.settings.rate Pace.timerFrequency
    Pace.refreshPeriod none 0 (ofStarted files e' log) with ⟨refusal | p, h⟩
  · have hrunPlan : runPlan HostM.perform plan draws watch (Host.ofFiles files) =
        (.error refusal, h) := by
      rw [runPlan, HostM.bind_of_ok hprepare]
      exact HostM.bind_of_error (hlaunch.trans hnew) _
    exact ⟨refusal, by rw [outcomeOfPlan, hrunPlan]⟩
  · exact absurd (HostM.isFinite_of_newPacer hnew) hfinite

theorem ending_of_isFinite (hplan : plan.Accepted) (hrom : files.HasRom plan.rom)
    (hcycles : plan.limits.cycles = some n) (hn : 0 < n)
    (hplain : ∀ d ∈ draws plan.settings.seed, d.before = none)
    (hfinite : plan.settings.rate.isFinite = true) (hdump : plan.settings.CanDump files)
    (watch : Stopwatch) : ∃ code, code ≤ 4 ∧
      (outcomeOfPlan HostM.perform plan files draws watch).ending = .ok code := by
  obtain ⟨h₀, h₁, h, hprepare, hlaunch, hon, hb⟩ := exists_begun hplan hfinite hrom hplain
  obtain ⟨k, r, hrun, -⟩ := run_of_begun hon hb hcycles hn watch
  obtain ⟨hfiles, hengine⟩ := surroundings_of_begun hb k
  have hcode : r.exit.1 ≤ 4 := Nat.le_of_lt_succ r.exit_code_lt
  rcases outcome_of_run hplan hprepare hlaunch hrun hfiles hengine with hok | ⟨hnot, -⟩
  · exact ⟨r.exit.1, hcode, hok⟩
  · exact absurd hdump hnot

/-- **Which accepted command lines end with an exit code.**  Take a command line that makes a plan
with a positive limit of instructions, whose dump can be written if there is one.  It ends with one
of the exit codes `0` to `4` if its rate is a finite number or there is no program at its path, and
otherwise it is refused. -/
theorem exits_iff_isFinite {arguments : List String}
    (hplan : Headless.plan arguments = .ok (some plan)) (hcycles : 0 < plan.settings.cycles)
    (hplain : ∀ d ∈ draws plan.settings.seed, d.before = none)
    (hdump : plan.settings.CanDump files) (watch : Stopwatch) :
    (∃ code, code ≤ 4 ∧ (outcome arguments files draws watch).ending = .ok code) ↔
      plan.settings.rate.isFinite = true ∨ ¬files.HasRom plan.rom := by
  obtain ⟨s, hs⟩ := exists_settings hplan
  have hmakes := plan_eq_ok hs
  have hlimit : plan.limits.cycles = some s.cycles.toNat := by
    rw [hmakes.cycles_eq, if_pos (hmakes.settings_eq ▸ hcycles)]
  have hn : 0 < s.cycles.toNat := by
    rw [hmakes.settings_eq] at hcycles
    omega
  have houtcome : outcome arguments files draws watch =
      outcomeOfPlan HostM.perform plan files draws watch := by
    rw [outcome, hplan]
  rw [houtcome]
  constructor
  · rintro ⟨code, -, hending⟩
    by_contra hnone
    obtain ⟨hfinite, hrom⟩ := not_or.mp hnone
    obtain ⟨refusal, herror⟩ := ending_of_not_isFinite hmakes.accepted (not_not.mp hrom) hplain
      hfinite watch
    rw [herror] at hending
    cases hending
  · intro hcases
    by_cases hrom : files.HasRom plan.rom
    · have hfinite := hcases.resolve_right (not_not.mpr hrom)
      exact ending_of_isFinite hmakes.accepted hrom hlimit hn hplain hfinite hdump watch
    · exact ⟨1, by decide, ending_of_not_hasRom watch hrom⟩

/-- The command line for three of the instructions of the loop at a rate. -/
def loopArguments (rate : String) : List String :=
  ["--rom", "loop.ch8", "--cycles", "3", "--ips", rate]

/-- The plan of a command line, if it makes one. -/
def planOf (arguments : List String) : Plan :=
  (Headless.plan arguments).toOption.join.getD loopPlan

theorem plan_eq_planOf {arguments : List String}
    (h : (Headless.plan arguments).toOption.join.isSome = true) :
    Headless.plan arguments = .ok (some (planOf arguments)) := by
  rw [planOf]
  rcases hplan : Headless.plan arguments with e | _ | plan <;> rw [hplan] at h
  · cases h
  · cases h
  · rfl

theorem exits_iff_isFinite_of_loop : ∃ code, code ≤ 4 ∧
    (outcome (loopArguments "500") loopFiles noDraws ⟨0, 0⟩).ending = .ok code := by
  have hsome : (Headless.plan (loopArguments "500")).toOption.join.isSome = true := by
    decide +kernel
  have hcycles : 0 < (planOf (loopArguments "500")).settings.cycles := by decide +kernel
  have hdump : (planOf (loopArguments "500")).settings.CanDump loopFiles := by
    have hnone : (planOf (loopArguments "500")).settings.dump = none := by decide +kernel
    intro path hpath
    rw [hnone] at hpath
    cases hpath
  have hplain : ∀ d ∈ noDraws (planOf (loopArguments "500")).settings.seed, d.before = none :=
    fun _ hd => absurd hd List.not_mem_nil
  have hfinite : (planOf (loopArguments "500")).settings.rate.isFinite = true := by
    decide +kernel
  exact (exits_iff_isFinite (plan_eq_planOf hsome) hcycles hplain hdump
    ⟨0, 0⟩).mpr (.inl hfinite)

/-- A rate that is no number is accepted, and there is no exit code. -/
theorem accepted_without_exit_code :
    (∃ plan, Headless.plan (loopArguments "nan") = .ok (some plan) ∧ 0 < plan.settings.cycles ∧
      plan.settings.dump = none) ∧
    ∀ code, (outcome (loopArguments "nan") loopFiles noDraws ⟨0, 0⟩).ending ≠ .ok code := by
  have hsome : (Headless.plan (loopArguments "nan")).toOption.join.isSome = true := by
    decide +kernel
  have hcycles : 0 < (planOf (loopArguments "nan")).settings.cycles := by decide +kernel
  have hdump : (planOf (loopArguments "nan")).settings.dump = none := by decide +kernel
  have hrefused : (outcome (loopArguments "nan") loopFiles noDraws ⟨0, 0⟩).ending.toOption =
      none := by decide +kernel
  refine ⟨⟨_, plan_eq_planOf hsome, hcycles, hdump⟩, fun code hcode => ?_⟩
  rw [hcode] at hrefused
  cases hrefused

end Chip8.Headless
