import Chip8.Host.Perform
import Chip8.Proofs.Host.MutedCalls

/-!
# Requests without reports

A pacer, too, does the same whether the engine under it reports or not, and the
requests of its frame callback and of the sleeps are made with their switches set
to off.  So every request does to the host without reports what it does to the
host, however deep other requests are nested in it.

* `mutes_runSteps`, `mutes_run`: batches and paced runs.
* `mutes_respond`, `mutes_performWithin`: requests.
-/

namespace Chip8

theorem Pacer.startPeriodic_muted (q : Pacer) : q.muted.startPeriodic = q.startPeriodic.muted := by
  have htimers : q.muted.startTimers = q.startTimers.muted := by
    show (if q.timerActive = true then _ else _) = _
    rw [startTimers]
    split <;> rfl
  have hframes (q : Pacer) : q.muted.startFrames = q.startFrames.muted := by
    have hnone : (q.frames.map Script.muted).isNone = q.frames.isNone := Option.isNone_map
    show (if (q.frameActive || (q.frames.map Script.muted).isNone) = true then _ else _) = _
    rw [hnone, startFrames]
    split <;> rfl
  show (if q.power = .running then q.muted.startTimers.startFrames else _) = _
  rw [startPeriodic, htimers, hframes]
  split <;> rfl

theorem Pacer.pauseNow_muted (q : Pacer) : q.muted.pauseNow = q.pauseNow.muted := by
  show (if q.power = .running then _ else _) = _
  rw [pauseNow]
  split <;> rfl

namespace HostM

variable {α : Type} {p : Nat}

/-! ### Pacers and clocks -/

theorem mutes_pacerAt_then {g g' : Pacer → HostM α} (hg : ∀ q, Mutes (g q) (g' q.muted)) :
    Mutes (pacerAt p >>= g) (pacerAt p >>= g') where
  eq h := by
    have hmuted : h.muted.pacers[p]? = h.pacers[p]?.map Pacer.muted := Array.getElem?_map ..
    cases hq : h.pacers[p]? with
    | none =>
      rw [hq] at hmuted
      rw [bind_of_error (pacerAt_of_eq_none hq), bind_of_error (pacerAt_of_eq_none hmuted)]
    | some q =>
      rw [hq] at hmuted
      rw [bind_of_ok (pacerAt_apply hq), bind_of_ok (pacerAt_apply hmuted)]
      exact (hg q).eq h

instance mutes_pacerAt_bind {g g' : Pacer → HostM α} [hg : ∀ q, Mutes (g q) (g' q.muted)] :
    Mutes (pacerAt p >>= g) (pacerAt p >>= g') :=
  mutes_pacerAt_then hg

theorem mutes_modifyPacer {f : Pacer → Pacer} (hf : ∀ q : Pacer, f q.muted = (f q).muted) :
    Mutes (modifyPacer p f) (modifyPacer p f) :=
  mutes_modify fun h => congrArg (fun pacers => { h.muted with pacers }) (modify_map _ p hf)

instance mutes_enqueue (cue : Cue) (delay : Nat) :
    Mutes (modifyPacer p fun q => q.enqueue cue delay)
      (modifyPacer p fun q => q.enqueue cue delay) :=
  mutes_modifyPacer fun _ => rfl

instance mutes_stopNow : Mutes (modifyPacer p Pacer.stopNow) (modifyPacer p Pacer.stopNow) :=
  mutes_modifyPacer fun _ => rfl

instance mutes_countStep (status : Status) :
    Mutes (modifyPacer p (·.countStep status)) (modifyPacer p (·.countStep status)) :=
  mutes_modifyPacer fun _ => rfl

instance mutes_power (power : Power) :
    Mutes (modifyPacer p fun q => { q with power }) (modifyPacer p fun q => { q with power }) :=
  mutes_modifyPacer fun _ => rfl

theorem mutes_pushPacer (q : Pacer) :
    Mutes (modifyGet fun h => (h.pacers.size, { h with pacers := h.pacers.push q }) : HostM Nat)
      (modifyGet fun h => (h.pacers.size, { h with pacers := h.pacers.push q.muted })) :=
  mutes_modifyGet (fun _ => Array.size_map) fun h =>
    congrArg (fun pacers => { h.muted with pacers }) Array.map_push.symm

instance mutes_currentPacer : Mutes currentPacer currentPacer := by
  unfold currentPacer
  infer_instance

instance mutes_readClock (k : Nat) : Mutes (readClock k) (readClock k) := by
  have hread : Mutes
      (modify fun h => { h with clocks := h.clocks.modify k Clock.read } : HostM Unit)
      (modify fun h => { h with clocks := h.clocks.modify k Clock.read }) :=
    mutes_modify fun _ => rfl
  unfold readClock
  infer_instance

instance mutes_currentClock : Mutes currentClock currentClock := by
  unfold currentClock
  infer_instance

instance mutes_now : Mutes now now := by
  unfold now
  infer_instance

instance mutes_advanceClock (ns : Int) : Mutes (advanceClock ns) (advanceClock ns) := by
  have hadvance (k : Nat) :
      Mutes (modify fun h => { h with clocks := h.clocks.modify k (·.advance ns) } : HostM Unit)
        (modify fun h => { h with clocks := h.clocks.modify k (·.advance ns) }) :=
    mutes_modify fun _ => rfl
  unfold advanceClock
  infer_instance

instance mutes_rebase : Mutes (rebase p) (rebase p) := by
  have hbase (base : Int) : Mutes (modifyPacer p fun q => { q with base })
      (modifyPacer p fun q => { q with base }) := mutes_modifyPacer fun _ => rfl
  unfold rebase
  infer_instance

instance mutes_instructionsDue : Mutes (instructionsDue p) (instructionsDue p) := by
  unfold instructionsDue
  infer_instance

instance mutes_rates : Mutes (rates p) (rates p) := by
  unfold rates
  infer_instance

instance mutes_powerOn : Mutes (powerOn p) (powerOn p) := by
  have hperiodic : Mutes (modifyPacer p Pacer.startPeriodic) (modifyPacer p Pacer.startPeriodic) :=
    mutes_modifyPacer Pacer.startPeriodic_muted
  unfold powerOn
  infer_instance

instance mutes_updateIntervals : Mutes (updateIntervals p) (updateIntervals p) := by
  have htimers (timerInterval : Nat) : Mutes (modifyPacer p fun q => { q with timerInterval })
      (modifyPacer p fun q => { q with timerInterval }) := mutes_modifyPacer fun _ => rfl
  have hframes (frameInterval : Nat) : Mutes (modifyPacer p fun q => { q with frameInterval })
      (modifyPacer p fun q => { q with frameInterval }) := mutes_modifyPacer fun _ => rfl
  unfold updateIntervals
  infer_instance

instance mutes_setRate (rate : Float) : Mutes (setRate p rate) (setRate p rate) := by
  have hrate : Mutes (modifyPacer p fun q => { q with rate })
      (modifyPacer p fun q => { q with rate }) := mutes_modifyPacer fun _ => rfl
  have hrestart : Mutes (modifyPacer p fun q => q.stopPeriodic.clearSchedule.startPeriodic)
      (modifyPacer p fun q => q.stopPeriodic.clearSchedule.startPeriodic) :=
    mutes_modifyPacer fun q => q.stopPeriodic.clearSchedule.startPeriodic_muted
  unfold setRate
  infer_instance

/-- A new pacer, whose frame callback makes its requests with the switches set to off. -/
instance mutes_newPacer (x : Handle) (rate timerFrequency refresh : Float)
    (frames : Option (Script Request)) (clock : Nat) :
    Mutes (newPacer x rate timerFrequency refresh frames clock)
      (newPacer x rate timerFrequency refresh (frames.map Script.muted) clock) := by
  unfold newPacer
  refine mutes_guard (mutes_guard (mutes_guard ?_))
  refine mutes_then fun _ => mutes_then fun timerInterval => ?_
  refine mutes_then fun frameInterval => mutes_then fun now => mutes_then fun base => ?_
  exact mutes_pushPacer _

section Performing

variable (perform : Request → HostM Reply) [hp : MutesRequests perform]

/-! ### Cues -/

instance mutes_performAll (requests : List Request) :
    Mutes (performAll perform requests) (performAll perform (requests.map Request.muted)) := by
  induction requests with
  | nil => exact mutes_pure ()
  | cons r rest ih =>
    have hrequest := hp.mutes r
    rw [List.map_cons]
    unfold performAll
    infer_instance

/-- The requests of an occasion. -/
instance mutes_occasion (script : Script Request) (k : Nat) :
    Mutes (performAll perform (script.requests k))
      (performAll perform (script.muted.requests k)) := by
  rw [Script.requests_muted]
  infer_instance

instance mutes_showFrame (script : Script Request) (count : Nat) :
    Mutes (showFrame perform script count) (showFrame perform script.muted count) := by
  have hcount : Mutes (modify fun h => { h with frames := h.frames + 1 } : HostM Unit)
      (modify fun h => { h with frames := h.frames + 1 }) := mutes_modify fun _ => rfl
  unfold showFrame
  dsimp only
  infer_instance

instance mutes_fire (cue : Cue) : Mutes (fire perform p cue) (fire perform p cue) := by
  cases cue with
  | tickTimers =>
    have hagain : Mutes (modifyPacer p fun q => q.enqueue .tickTimers q.timerInterval)
        (modifyPacer p fun q => q.enqueue .tickTimers q.timerInterval) :=
      mutes_modifyPacer fun _ => rfl
    unfold fire
    infer_instance
  | showFrame =>
    have hagain : Mutes (modifyPacer p fun q => q.enqueue .showFrame q.frameInterval)
        (modifyPacer p fun q => q.enqueue .showFrame q.frameInterval) :=
      mutes_modifyPacer fun _ => rfl
    unfold fire
    refine mutes_pacerAt_then fun q => ?_
    dsimp only
    cases q.frames with
    | none =>
      dsimp only [Option.map_none]
      infer_instance
    | some script =>
      dsimp only [Option.map_some]
      infer_instance
  | powerOff => exact mutes_stopNow
  | pause => exact mutes_modifyPacer Pacer.pauseNow_muted
  | resume =>
    unfold fire
    infer_instance

instance mutes_fireAll (events : List (Event Cue)) :
    Mutes (fireAll perform p events) (fireAll perform p events) := by
  induction events with
  | nil => exact mutes_pure ()
  | cons e rest ih =>
    unfold fireAll
    infer_instance

instance mutes_settle : Mutes (settle perform p) (settle perform p) := by
  have htake : Mutes (modifyPacer p Pacer.takeDue) (modifyPacer p Pacer.takeDue) :=
    mutes_modifyPacer fun _ => rfl
  unfold settle
  refine mutes_pacerAt_then fun q => ?_
  have hdue : q.muted.due = q.due := rfl
  dsimp only
  rw [hdue]
  infer_instance

instance mutes_cueNow (cue : Cue) : Mutes (cueNow perform p cue) (cueNow perform p cue) := by
  unfold cueNow
  infer_instance

/-! ### Steps and control -/

instance mutes_staleLine (x : Handle) : Mutes (log (staleLine x)) (log (staleLine x)) :=
  mutes_log rfl

instance mutes_stepsUpTo (n : Nat) : Mutes (stepsUpTo perform p n) (stepsUpTo perform p n) := by
  induction n with
  | zero => exact mutes_pure ()
  | succ n ih =>
    unfold stepsUpTo
    refine mutes_then fun _ => mutes_pacerAt_then fun q => ?_
    infer_instance

/-- **A batch** executes the same steps. -/
instance mutes_runSteps (count : Int) :
    Mutes (runSteps perform p count) (runSteps perform p count) := by
  unfold runSteps
  infer_instance

instance mutes_powerOff : Mutes (powerOff perform p) (powerOff perform p) := by
  unfold powerOff
  infer_instance

instance mutes_pause : Mutes (pause perform p) (pause perform p) := by
  unfold pause
  infer_instance

instance mutes_resume : Mutes (resume perform p) (resume perform p) := by
  unfold resume
  infer_instance

/-! ### Paced runs -/

omit hp in
instance mutes_dueNow : Mutes (dueNow p) (dueNow p) := by
  unfold dueNow
  infer_instance

omit hp in
instance mutes_pacedReply (slept : Nat) (last : Float) :
    Mutes (pacedReply p slept last) (pacedReply p slept last) := by
  unfold pacedReply
  infer_instance

omit hp in
instance mutes_ensureOn : Mutes (ensureOn p) (ensureOn p) := by
  unfold ensureOn
  infer_instance

abbrev Sleeps.muted (sleeps : Sleeps) : Sleeps :=
  { sleeps with script := sleeps.script.muted }

variable (sleeps : Sleeps)

instance mutes_sleep (number : Nat) (duration : Float) :
    Mutes (sleep perform sleeps number duration) (sleep perform sleeps.muted number duration) := by
  unfold sleep
  infer_instance

instance mutes_runRounds (maxBatch : Int) (slept : Nat) (last : Float) (n : Nat) :
    Mutes (runRounds perform p maxBatch sleeps slept last n)
      (runRounds perform p maxBatch sleeps.muted slept last n) := by
  induction n generalizing slept last with
  | zero => exact mutes_throw _
  | succ n ih =>
    unfold runRounds
    dsimp only
    infer_instance

/-- **A run until the pacer has stopped** goes the same way. -/
instance mutes_run (maxBatch : Int) :
    Mutes (run perform p maxBatch sleeps) (run perform p maxBatch sleeps.muted) := by
  unfold run
  infer_instance

instance mutes_readWall (wall : WallClock) (number : Nat) :
    Mutes (readWall wall number) (readWall wall number) := by
  unfold readWall
  infer_instance

instance mutes_runForRounds (wall : WallClock) (deadline : Float) (maxBatch : Int)
    (reads slept : Nat) (last : Float) (n : Nat) :
    Mutes (runForRounds perform p wall deadline maxBatch sleeps reads slept last n)
      (runForRounds perform p wall deadline maxBatch sleeps.muted reads slept last n) := by
  induction n generalizing reads slept last with
  | zero => exact mutes_throw _
  | succ n ih =>
    unfold runForRounds
    dsimp only
    refine mutes_pacerAt_then fun q => ?_
    infer_instance

/-- So does **a run of so many seconds**. -/
instance mutes_runFor (wall : WallClock) (seconds : Float) (maxBatch : Int) :
    Mutes (runFor perform p wall seconds maxBatch sleeps)
      (runFor perform p wall seconds maxBatch sleeps.muted) := by
  unfold runFor
  infer_instance

end Performing

/-! ### Requests -/

instance mutes_handleReply (n : Nat) : Mutes (handleReply n) (handleReply n) := by
  unfold handleReply
  infer_instance

instance mutes_dialectOf (names : List String) : Mutes (dialectOf names) (dialectOf names) :=
  mutes_ofExcept _

instance mutes_setRegisters (c : Nat) (v : List (Register × Int))
    (index counter flag : Option Int) :
    Mutes (setRegisters c v index counter flag) (setRegisters c v index counter flag) := by
  unfold setRegisters
  cases flag <;> infer_instance

instance mutes_peek (c : Nat) (address count : Int) :
    Mutes (peek c address count) (peek c address count) := by
  unfold peek
  infer_instance

instance mutes_writeBlock (c : Nat) (address : Int) (data : List UInt8) :
    Mutes (writeBlock c address data) (writeBlock c address data) := by
  unfold writeBlock
  infer_instance

instance mutes_poke (c : Nat) (address : Int) (data : List UInt8) :
    Mutes (poke c address data) (poke c address data) := by
  unfold poke
  infer_instance

theorem mutes_accesses_then (accesses : List MemoryAccess) {x y : HostM α} (hx : Mutes x y) :
    Mutes (do logAll (accesses.map Engine.accessLine); x) y where
  eq h := by
    rw [bind_of_ok (logAll_apply _ h), ← hx.eq, Host.muted_addLines]
    intro line hline
    obtain ⟨access, -, rfl⟩ := List.mem_map.mp hline
    rfl

instance mutes_programByte (c : Nat) (index : Int) :
    Mutes (programByte c index) (programByte c index) := by
  unfold programByte
  refine mutes_guard (mutes_engine_then fun e => ?_)
  dsimp only
  rw [if_neg Bool.false_ne_true]
  have hread (x : Except OutOfRange UInt8) :
      Mutes (do return Reply.number (← ofMemory x).toNat)
        (do return Reply.number (← ofMemory x).toNat) := inferInstance
  split
  · exact mutes_accesses_then _ (hread _)
  · exact hread _

variable (perform : Request → HostM Reply) [hp : MutesRequests perform]

/-- **A request** does to the host without reports what it does to the host, if those in the middle
of it do. -/
theorem mutes_respond (r : Request) : Mutes (respond perform r) (respond perform r.muted) := by
  cases r with
  | newEngine names draws generation =>
    rw [Request.muted]
    unfold respond
    have hadd (dialect : Dialect) : Mutes (addEngine (Engine.fresh dialect draws none generation))
        (addEngine (Engine.fresh dialect (Request.mutedDraws draws) none generation)) :=
      mutes_addEngine _
    infer_instance
  | newSession names draws =>
    rw [Request.muted]
    unfold respond
    have hadd (dialect : Dialect) := mutes_pushSession ⟨dialect, draws, 0, none⟩
    infer_instance
  | trace on =>
    rw [Request.muted]
    unfold respond
    have hswitch (c : Nat) : Mutes (modifyEngine c fun e => { e with tracing := on })
        (modifyEngine c fun e => { e with tracing := false }) := mutes_modifyEngine fun _ => rfl
    infer_instance
  | traceMemory on =>
    rw [Request.muted]
    unfold respond
    have hswitch (c : Nat) : Mutes (modifyEngine c fun e => { e with tracingMemory := on })
        (modifyEngine c fun e => { e with tracingMemory := false }) :=
      mutes_modifyEngine fun _ => rfl
    infer_instance
  | hostKey number down =>
    show Mutes (respond perform (.hostKey number down)) (respond perform (.hostKey number down))
    unfold respond
    refine mutes_then fun c => ?_
    cases Keyboard.key? number <;> dsimp only <;> infer_instance
  | newPacer n rate timerFrequency refresh frames clock =>
    rw [Request.muted, Request.mutedFrames_eq]
    unfold respond
    have hclock : Mutes (modifyGet fun h =>
          (h.clocks.size,
            { h with clocks := h.clocks.push clock, clock := some h.clocks.size, frames := 0 }) :
          HostM Nat)
        (modifyGet fun h =>
          (h.clocks.size,
            { h with clocks := h.clocks.push clock, clock := some h.clocks.size, frames := 0 })) :=
      mutes_modifyGet (fun _ => rfl) fun _ => rfl
    have hcurrent (p : Nat) : Mutes (modify fun h => { h with pacer := some p } : HostM Unit)
        (modify fun h => { h with pacer := some p }) := mutes_modify fun _ => rfl
    infer_instance
  | runFor wall seconds maxBatch sleeps limit =>
    show Mutes (respond perform (.runFor wall seconds maxBatch sleeps limit))
      (respond perform (.runFor wall seconds maxBatch sleeps.muted limit))
    rw [respond, respond]
    exact mutes_then fun p => mutes_runFor perform ⟨sleeps, limit⟩ wall seconds maxBatch
  | run maxBatch sleeps limit =>
    show Mutes (respond perform (.run maxBatch sleeps limit))
      (respond perform (.run maxBatch sleeps.muted limit))
    rw [respond, respond]
    exact mutes_then fun p => mutes_run perform ⟨sleeps, limit⟩ maxBatch
  | caption =>
    show Mutes (respond perform .caption) (respond perform .caption)
    rw [respond]
    refine mutes_then fun p => mutes_pacerAt_then fun q => mutes_then fun c => ?_
    exact mutes_engine_then fun e => mutes_pure (Reply.text (caption e q.power))
  | _ =>
    dsimp only [Request.muted]
    unfold respond
    infer_instance

/-- **Requests** do the same, however deep others are nested in them. -/
instance mutesRequests_performWithin (depth : Nat) : MutesRequests (performWithin depth) := by
  induction depth with
  | zero => exact ⟨fun _ => mutes_throw _⟩
  | succ depth ih => exact ⟨mutes_respond (performWithin depth)⟩

theorem mutes_performWithin (depth : Nat) (r : Request) :
    Mutes (performWithin depth r) (performWithin depth r.muted) :=
  MutesRequests.mutes r

end HostM

end Chip8
