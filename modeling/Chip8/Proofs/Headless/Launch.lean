import Chip8.Headless.Program
import Chip8.Proofs.Dump
import Chip8.Proofs.Host.RomFile
import Chip8.Proofs.Machine.Sound
import Chip8.Proofs.Pacer.Launch
import Chip8.Proofs.Pacer.SingleSteps

/-!
# How a run begins

The plan that settings make keeps what the settings have been checked for: the
keys are keys of the keypad, the ranges lie inside the address space, and the
rate is positive.  If there is a program at the path of the plan and the rate is
a finite number, the engine is prepared, the pacer launched and powered on, and
none of this is refused.

* `plan_eq_ok`: what a plan has from the settings that make it.
* `prepare_of_hasRom`, `prepare_of_not_hasRom`: whether there is an engine.
* `launch_apply`, `begun_of_ofStarted`: the pacer, and the plain run that it
  begins.
-/

namespace Chip8

namespace Headless

/-! ### Plans -/

/-- What the texts and the rate of a plan are checked for: the keys are keys of the keypad, the
ranges lie inside the address space, and the rate is positive. -/
structure Plan.Accepted (plan : Plan) : Prop where
  keys : ∀ key ∈ plan.keys, 0 ≤ key ∧ key < 16
  ranges : ∀ r ∈ plan.dumpRanges, r.Within
  rate_pos : ¬plan.settings.rate ≤ 0

/-- The plan is the one of the settings. -/
structure Settings.Makes (s : Settings) (plan : Plan) : Prop where
  settings_eq : plan.settings = s
  cycles_eq : plan.limits.cycles = if 0 < s.cycles then some s.cycles.toNat else none
  seconds_eq : plan.limits.seconds = s.seconds
  accepted : plan.Accepted

theorem exists_of_readAll {α : Type} {role : TextRole} {read : List Char → Except NumeralError α}
    {texts : List String} {as : List α} (h : readAll role read texts = .ok as) :
    ∀ a ∈ as, ∃ text, read text = .ok a := by
  induction texts generalizing as with
  | nil =>
    cases h
    exact fun a ha => absurd ha List.not_mem_nil
  | cons text rest ih =>
    rw [readAll] at h
    cases hread : read text.toList with
    | error e =>
      rw [hread] at h
      cases h
    | ok a =>
      rw [hread] at h
      cases hrest : readAll role read rest with
      | error e =>
        rw [hrest] at h
        cases h
      | ok others =>
        rw [hrest] at h
        cases h
        exact List.forall_mem_cons.mpr ⟨⟨_, hread⟩, ih hrest⟩

/-- **What settings make** has been checked. -/
theorem plan_eq_ok {s : Settings} {plan : Plan} (h : s.plan = .ok plan) : s.Makes plan := by
  rw [Settings.plan] at h
  rcases hbreaks : readAll .breakpoint parseAddress s.breakpoints with e | breakpoints
  · simp [hbreaks, bind, Except.bind] at h
  rcases hkeys : readAll .key parseKey s.keys with e | keys
  · simp [hbreaks, hkeys, bind, Except.bind] at h
  rcases hranges : readAll .dumpRange AddressRange.parse s.dumpRanges with e | dumpRanges
  · simp [hbreaks, hkeys, hranges, bind, Except.bind] at h
  simp only [hbreaks, hkeys, hranges, bind, Except.bind] at h
  by_cases hrate : s.rate ≤ 0
  · rw [if_pos hrate] at h
    cases h
  rw [if_neg hrate] at h
  cases h
  refine ⟨rfl, rfl, rfl, fun key hkey => ?_, fun r hr => ?_, hrate⟩
  · obtain ⟨text, hread⟩ := exists_of_readAll hkeys key hkey
    have hbounds := AddressRange.bounds_of_parseNumber hread
    omega
  · obtain ⟨text, hread⟩ := exists_of_readAll hranges r hr
    exact AddressRange.within_of_parse hread

theorem exists_settings {arguments : List String} {p : Plan} (h : plan arguments = .ok (some p)) :
    ∃ s : Settings, s.plan = .ok p := by
  rw [plan] at h
  split at h
  · cases h
  · cases h
  · next s _ =>
    cases hs : s.plan with
    | error e =>
      rw [hs] at h
      cases h
    | ok p' =>
      rw [hs] at h
      cases h
      exact ⟨s, hs⟩

/-! ### The engine -/

end Headless

/-- The engine has a program and has not been started, and nothing stands in the way of its
start. -/
structure Engine.Prepared (e : Engine) : Prop where
  loaded : e.rom.isSome = true
  free : e.busy = false
  active : e.retired = false
  unowned : e.owner = none
  plain : e.source.IsPlain
  sound : e.machine.Sound

namespace Engine.Prepared

variable {e : Engine}

theorem keyed (he : e.Prepared) (code : Int) (down : Bool) : (e.keyed code down).Prepared := by
  rw [Engine.keyed]
  split
  · exact he
  · exact { he with sound := he.sound.of_eq rfl rfl }

theorem start (he : e.Prepared) : e.start = .ok { e with started := true } := by
  have hloaded : e.rom.isNone = false := by
    rw [Option.isNone_eq_false_iff]
    exact he.loaded
  rw [Engine.start, he.active, hloaded]
  rfl

theorem isCurrent (he : e.Prepared) {h : Host} {c : Nat} (hc : h.engines[c]? = some e) :
    HostM.isCurrent ⟨c, e.generation⟩ h = (.ok true, h) := by
  rw [HostM.isCurrent, HostM.bind_of_ok (HostM.engine_apply hc), he.active, he.unowned]
  show (Except.ok (e.generation == e.generation), h) = _
  rw [beq_self_eq_true]

end Engine.Prepared

namespace Headless

def ofEngine (files : Files) (e : Engine) (log : Array LogLine) : Host :=
  { Host.ofFiles files with engines := #[e], log }

/-- The same host with the engine started, its handle and a clock. -/
def ofStarted (files : Files) (e : Engine) (log : Array LogLine) : Host :=
  { ofEngine files { e with started := true } log with
    handles := #[⟨0, e.generation⟩]
    clocks := #[.steady 0 0] }

variable {plan : Plan} {draws : SeededDraws} {files : Files} {e : Engine} {log : Array LogLine}

def firstEngine (plan : Plan) (draws : SeededDraws) : Engine :=
  Engine.fresh (Dialect.ofVariants plan.settings.variants) (draws plan.settings.seed) none 0

theorem prepare_apply (plan : Plan) (draws : SeededDraws) (files : Files) :
    prepare plan draws (Host.ofFiles files) =
      (do
        match ← HostM.attempt (HostM.loadRomFile 0 plan.rom) with
        | .ok _ => return .ok 0
        | .error r => if HostM.isLoadFailure r then return .error r else throw r :
          HostM (Except Refusal Nat)) (ofEngine files (firstEngine plan draws) #[]) := rfl

/-- **An engine is prepared** for a program that is there. -/
theorem prepare_of_hasRom (hrom : files.HasRom plan.rom)
    (hplain : ∀ d ∈ draws plan.settings.seed, d.before = none) : ∃ e log,
      prepare plan draws (Host.ofFiles files) = (.ok (.ok 0), ofEngine files e log) ∧
        e.Prepared := by
  have he : (ofEngine files (firstEngine plan draws) #[]).engines[0]? =
      some (firstEngine plan draws) := rfl
  obtain ⟨rom, memory, lines, hload⟩ := HostM.loadRomFile_of_hasRom he rfl rfl hrom
  have hsound : (firstEngine plan draws).machine.Sound := Machine.sound_fresh _
  refine ⟨{ firstEngine plan draws with
      machine := { (firstEngine plan draws).machine with memory }, rom := some rom },
    (#[] : Array LogLine) ++ lines, ?_, ⟨rfl, rfl, rfl, rfl, hplain, ?_⟩⟩
  · rw [prepare_apply, HostM.bind_of_ok (HostM.attempt_apply _ _), hload]
    rfl
  · exact hsound.of_eq rfl rfl

/-- **There is no engine** without a program. -/
theorem prepare_of_not_hasRom (draws : SeededDraws) (hrom : ¬files.HasRom plan.rom) : ∃ r h,
    prepare plan draws (Host.ofFiles files) = (.ok (.error r), h) := by
  obtain ⟨r, lines, hload, hr⟩ := HostM.loadRomFile_of_not_hasRom
    (h := ofEngine files (firstEngine plan draws) #[]) 0 hrom
  rw [prepare_apply, HostM.bind_of_ok (HostM.attempt_apply _ _), hload]
  dsimp only
  rw [if_pos hr]
  exact ⟨r, _, rfl⟩

/-! ### The pacer -/

theorem forM_setKey_apply {keys : List Int} (hkeys : ∀ key ∈ keys, 0 ≤ key ∧ key < 16) {h : Host}
    {c : Nat} {e : Engine} (hc : h.engines[c]? = some e) (he : e.Prepared) : ∃ e',
      keys.forM (fun key => HostM.setKey c key true) h = (.ok (), h.putEngine c e') ∧
        e'.Prepared := by
  induction keys generalizing h e with
  | nil => exact ⟨e, by rw [Host.putEngine_eq_self hc]; rfl, he⟩
  | cons key rest ih =>
    obtain ⟨hkey, hrest⟩ := List.forall_mem_cons.mp hkeys
    have houtcome : Engine.keyOutcome key = .ok () := by
      rw [Engine.keyOutcome, Keypad.key?, dif_pos hkey]
    have hset := HostM.setKey_apply hc he.free key true
    rw [houtcome] at hset
    obtain ⟨e', hforM, he'⟩ := ih hrest (Host.engines_putEngine hc) (he.keyed key true)
    refine ⟨e', ?_, he'⟩
    rw [List.forM_eq_forM, List.forM_cons, HostM.bind_of_ok hset, ← List.forM_eq_forM, hforM,
      Host.putEngine_putEngine]

/-- **The launch of a pacer** comes to a new pacer over an engine that has been prepared. -/
theorem launch_apply (files : Files) (log : Array LogLine) (he : e.Prepared)
    (hkeys : ∀ key ∈ plan.keys, 0 ≤ key ∧ key < 16) : ∃ e' : Engine, e'.Prepared ∧
      launch plan 0 (ofEngine files e log) =
        HostM.newPacer ⟨0, e'.generation⟩ plan.settings.rate Pace.timerFrequency
          Pace.refreshPeriod none 0 (ofStarted files e' log) := by
  have hc : (ofEngine files e log).engines[0]? = some e := rfl
  have hflags : Engine.Prepared { e with
      tracing := plan.settings.trace
      tracingMemory := plan.settings.traceMemory } :=
    ⟨he.loaded, he.free, he.active, he.unowned, he.plain, he.sound⟩
  obtain ⟨e', hforM, he'⟩ := forM_setKey_apply hkeys (Host.engines_putEngine hc) hflags
  refine ⟨e', he', ?_⟩
  have hput : ((ofEngine files e log).putEngine 0 e').engines[0]? = some e' :=
    Host.engines_putEngine hc
  rw [launch, HostM.bind_of_ok (HostM.modifyEngine_apply hc _), HostM.bind_of_ok hforM,
    Host.putEngine_putEngine, HostM.bind_of_ok (HostM.startEngine_apply hput he'.start),
    Host.putEngine_putEngine]
  rfl

/-- The first pacer of the host is at the beginning of a plain run over the first engine. -/
structure Begun (files : Files) (h : Host) : Prop where
  tracks : ∃ (x : Handle) (T : Nat) (e : Engine), x.engine = 0 ∧ 0 < T ∧
    h.Tracks x 0 T 0 ⟨e, 0, .running, none⟩ ∧ PlainRun.Live ⟨e, 0, .running, none⟩
  inOrder : PacersInOrder h.pacers
  files_eq : h.files = files

theorem begun_of_ofStarted {rate : Float} (he : e.Prepared) (hpos : ¬rate ≤ 0)
    (hfinite : rate.isFinite = true) : ∃ h₁ h,
      HostM.newPacer ⟨0, e.generation⟩ rate Pace.timerFrequency Pace.refreshPeriod none 0
          (ofStarted files e log) = (.ok 0, h₁) ∧
        HostM.powerOn 0 h₁ = (.ok (), h) ∧ Begun files h := by
  have hclock : (ofStarted files e log).clocks[0]? = some (.steady 0 0) := rfl
  have hmade := HostM.newPacer_of_isFinite (x := ⟨0, e.generation⟩) hfinite hpos hclock
  rcases hnew : HostM.newPacer ⟨0, e.generation⟩ rate Pace.timerFrequency Pace.refreshPeriod none 0
    (ofStarted files e log) with ⟨answer, h₁⟩
  rw [hnew] at hmade
  obtain rfl : answer = .ok 0 := hmade
  obtain ⟨-, q, hq, hh₁⟩ := HostM.newPacer_eq_ok hnew
  have hpacer : h₁.pacers[0]? = some q := by rw [hh₁]; rfl
  have hclock₁ : h₁.clocks[0]? = some (Clock.steady 0 0).read.read := by rw [hh₁]; rfl
  have hengine : (ofStarted files e log).engines[0]? = some { e with started := true } := rfl
  have he' : Engine.Prepared { e with started := true } :=
    ⟨he.loaded, he.free, he.active, he.unowned, he.plain, he.sound⟩
  obtain ⟨h, hon⟩ := HostM.exists_of_ok (HostM.powerOn_of_isFinite hfinite hpos hpacer hq hclock₁)
  have hcurrent := congrArg Prod.fst (he'.isCurrent hengine)
  obtain ⟨-, T, hT, htracks⟩ :=
    HostM.tracks_launched (x := ⟨0, e.generation⟩) hengine rfl he.free he.plain hcurrent hnew hon
  have hlive : PlainRun.Live ⟨{ e with started := true }, 0, .running, none⟩ :=
    ⟨he.sound, .inl ⟨rfl, by simp⟩⟩
  have horder : PacersInOrder h₁.pacers := by
    rw [hh₁]
    exact (PacersFollow.push hq.inOrder).inOrder fun p q' hq' => by cases hq'
  obtain ⟨pacers, clocks, hh⟩ := HostM.powerOn_changes hon
  refine ⟨h₁, h, rfl, hon, ⟨_, T, _, rfl, hT, htracks, hlive⟩, ?_, ?_⟩
  · have hfollows := HostM.Keeps.follows (x := HostM.powerOn 0) h₁
    rw [hon] at hfollows
    exact hfollows.pacers.inOrder horder
  · rw [hh, hh₁]
    rfl

/-- **A run begins** if there is a program and the rate is a finite number. -/
theorem exists_begun (hplan : plan.Accepted) (hfinite : plan.settings.rate.isFinite = true)
    (hrom : files.HasRom plan.rom)
    (hplain : ∀ d ∈ draws plan.settings.seed, d.before = none) : ∃ h₀ h₁ h,
      prepare plan draws (Host.ofFiles files) = (.ok (.ok 0), h₀) ∧
        launch plan 0 h₀ = (.ok 0, h₁) ∧ HostM.powerOn 0 h₁ = (.ok (), h) ∧ Begun files h := by
  obtain ⟨e, log, hprepare, he⟩ := prepare_of_hasRom hrom hplain
  obtain ⟨e', he', hlaunch⟩ := launch_apply files log he hplan.keys
  obtain ⟨h₁, h, hnew, hon, hbegun⟩ := begun_of_ofStarted he' hplan.rate_pos hfinite
  exact ⟨_, h₁, h, hprepare, hlaunch.trans hnew, hon, hbegun⟩

end Headless

end Chip8
