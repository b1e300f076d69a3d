import Chip8.Proofs.Host.Spared
import Chip8.Proofs.Pacer.Rounds

/-!
# Pacers and requests that spare an engine

A pacer asks before each step and with each tick of the timers whether its handle
is current.  So a batch, a call of control and a paced run spare every engine
that has been retired, the one under the pacer included, if the requests do that
the frame callback, the sleeps and the random numbers make.

The requests that write to the current engine itself do not spare it.  These
apart, every request does, and with `performSparing`, which refuses them once the
engine has been retired, all of them do.

* `spares_countedStep`, `spares_runSteps`: steps of a pacer.
* `spares_respond`: requests that are no direct writes.
* `spares_performSparing`: requests, nested however deep.
-/

namespace Chip8

theorem Pacer.Spared.enqueue (c : Nat) (q : Pacer) (cue : Cue) (delay : Nat) :
    q.Spared c (q.enqueue cue delay) :=
  ⟨rfl, fun _ => rfl⟩

theorem Pacer.Spared.stopNow (c : Nat) (q : Pacer) : q.Spared c q.stopNow :=
  ⟨rfl, fun _ => rfl⟩

theorem Pacer.Spared.pauseNow (c : Nat) (q : Pacer) : q.Spared c q.pauseNow := by
  rw [Pacer.pauseNow]
  split
  · exact ⟨rfl, fun _ => rfl⟩
  · exact .refl c q

theorem Pacer.Spared.startPeriodic (c : Nat) (q : Pacer) : q.Spared c q.startPeriodic := by
  have htimers : q.Spared c q.startTimers := by
    rw [Pacer.startTimers]
    split
    · exact .refl c q
    · exact ⟨rfl, fun _ => rfl⟩
  have hframes : q.startTimers.Spared c q.startTimers.startFrames := by
    rw [Pacer.startFrames]
    split
    · exact .refl c _
    · exact ⟨rfl, fun _ => rfl⟩
  rw [Pacer.startPeriodic]
  split
  · exact htimers.trans hframes
  · exact .refl c q

/-- Whether a request writes to the current engine itself. -/
def Request.isWrite : Request → Bool
  | loadRom .. | loadRomFile _ | step _ | execute _ | tick _ | setRegisters .. | poke .. => true
  | _ => false

/-- The current engine is this one, and it has been retired. -/
def Host.isOn (c : Nat) (h : Host) : Bool :=
  h.current == some c && (h.engines[c]?).any Engine.retired

theorem Host.isOn_of_retired {c : Nat} {h : Host} (hr : h.Retired c) :
    h.isOn c = (h.current == some c) := by
  obtain ⟨e, he, hretired⟩ := hr
  rw [isOn, he, Option.any_some, hretired, Bool.and_true]

namespace HostM

variable {α : Type} {c : Nat}

theorem spares_modifyPacer (p : Nat) {f : Pacer → Pacer} (hf : ∀ q : Pacer, q.Spared c (f q)) :
    Spares c (modifyPacer p f) :=
  ⟨fun _ _ => .modifyPacer fun q _ => hf q⟩

instance spares_enqueue (p : Nat) (cue : Cue) (delay : Pacer → Nat) :
    Spares c (modifyPacer p fun q => q.enqueue cue (delay q)) :=
  spares_modifyPacer p fun q => .enqueue c q cue (delay q)

instance spares_stopNow (p : Nat) : Spares c (modifyPacer p Pacer.stopNow) :=
  spares_modifyPacer p (.stopNow c)

section Pacers

variable (perform : Request → HostM Reply) [hp : ∀ r, Spares c (perform r)] (p : Nat)

/-! ### Cues -/

instance spares_performAll (requests : List Request) : Spares c (performAll perform requests) := by
  induction requests with
  | nil => exact spares_pure ()
  | cons r rest ih =>
    unfold performAll
    infer_instance

instance spares_showFrame (script : Script Request) (count : Nat) :
    Spares c (showFrame perform script count) := by
  unfold showFrame
  have : Spares c (modify fun h => { h with frames := h.frames + 1 }) :=
    spares_modify fun _ => ⟨rfl, rfl⟩
  infer_instance

omit hp in
instance spares_rebase : Spares c (rebase p) := by
  unfold rebase
  have (base : Int) : Spares c (modifyPacer p fun q => { q with base }) :=
    spares_modifyPacer p fun _ => ⟨rfl, fun _ => rfl⟩
  infer_instance

instance spares_fire (cue : Cue) : Spares c (fire perform p cue) := by
  cases cue with
  | tickTimers =>
    unfold fire
    have : Spares c (modifyPacer p fun q => q.enqueue .tickTimers q.timerInterval) :=
      spares_enqueue p .tickTimers Pacer.timerInterval
    infer_instance
  | showFrame =>
    unfold fire
    have : Spares c (modifyPacer p fun q => q.enqueue .showFrame q.frameInterval) :=
      spares_enqueue p .showFrame Pacer.frameInterval
    refine spares_then fun q => ?_
    cases q.frames <;> dsimp only <;> infer_instance
  | powerOff => exact spares_stopNow p
  | pause => exact spares_modifyPacer p (.pauseNow c)
  | resume =>
    unfold fire
    have : Spares c (modifyPacer p fun q => { q with power := .running }) :=
      spares_modifyPacer p fun _ => ⟨rfl, fun _ => rfl⟩
    infer_instance

instance spares_fireAll (events : List (Event Cue)) : Spares c (fireAll perform p events) := by
  induction events with
  | nil => exact spares_pure ()
  | cons e rest ih =>
    unfold fireAll
    infer_instance

instance spares_settle : Spares c (settle perform p) := by
  unfold settle
  have : Spares c (modifyPacer p Pacer.takeDue) :=
    spares_modifyPacer p fun _ => ⟨rfl, fun _ => rfl⟩
  infer_instance

instance spares_cueNow (cue : Cue) : Spares c (cueNow perform p cue) := by
  unfold cueNow
  have : Spares c (modifyPacer p fun q => q.enqueue cue 0) := spares_enqueue p cue fun _ => 0
  infer_instance

/-! ### Steps -/

omit hp in
theorem spared_countStep {h : Host} (hr : h.Retired c)
    (hother : ∀ q, h.pacers[p]? = some q → q.handle.engine ≠ c) (status : Status) :
    Host.Spared c h ((do
      modifyPacer p (·.countStep status)
      if status.isHalted then
        modifyPacer p Pacer.stopNow
        return false
      return true : HostM Bool) h).2 := by
  refine spared_bind hr (.modifyPacer fun q hq => ?_) fun _ h' _ hr' => ?_
  · exact ⟨rfl, fun hc => absurd hc (hother q hq)⟩
  · exact Spares.spares h' hr'

/-- The step of a round, after the cues that come before it. -/
def countedStep : HostM Bool := do
  let pacer ← pacerAt p
  if pacer.power ≠ .running then return false
  if !(← isCurrent pacer.handle) then
    log (staleLine pacer.handle)
    modifyPacer p Pacer.stopNow
    return false
  let status ← stepHandle perform pacer.handle
  modifyPacer p (·.countStep status)
  if status.isHalted then
    modifyPacer p Pacer.stopNow
    return false
  return true

omit hp in
theorem round_eq : round perform p = (settle perform p >>= fun _ => countedStep perform p) := rfl

/-- **A step of a pacer spares a retired engine**: over this engine the pacer stops before the step,
and over another engine the step is none of its business. -/
instance spares_countedStep : Spares c (countedStep perform p) where
  spares h hr := by
    have hstop (x : Handle) : Spares c (do
        log (staleLine x)
        modifyPacer p Pacer.stopNow
        return false : HostM Bool) := inferInstance
    rw [countedStep]
    cases hq : h.pacers[p]? with
    | none =>
      rw [bind_of_error (pacerAt_of_eq_none hq)]
      exact .refl c h
    | some q =>
      rw [bind_of_ok (pacerAt_apply hq)]
      by_cases hrun : q.power ≠ .running
      · rw [if_pos hrun]
        exact .refl c h
      rw [if_neg hrun]
      by_cases hx : q.handle.engine = c
      · rw [bind_of_ok (isCurrent_of_retired (hx ▸ hr))]
        exact (hstop q.handle).spares h hr
      · refine spared_bind hr (Spares.spares h hr) fun current h₁ hcurrent hr₁ => ?_
        have hunchanged := isCurrent_unchanged q.handle h
        rw [hcurrent] at hunchanged
        obtain rfl : h₁ = h := hunchanged
        cases current with
        | false => exact (hstop q.handle).spares h₁ hr
        | true =>
          have hstep : Host.Spared c h₁ (stepHandle perform q.handle h₁).2 := Spares.spares h₁ hr
          show Host.Spared c h₁ ((stepHandle perform q.handle >>= fun status => _) h₁).2
          refine spared_bind hr hstep fun status h₂ hh₂ hr₂ => ?_
          rw [hh₂] at hstep
          refine spared_countStep p hr₂ (fun q₂ hq₂ => ?_) status
          obtain ⟨q', hq', hspared⟩ := hstep.pacers hq
          rw [hq₂] at hq'
          cases hq'
          rw [hspared.handle_eq]
          exact hx

instance spares_round : Spares c (round perform p) := by
  rw [round_eq]
  infer_instance

instance spares_stepsUpTo (n : Nat) : Spares c (stepsUpTo perform p n) := by
  induction n with
  | zero => exact spares_pure ()
  | succ n ih =>
    rw [stepsUpTo_succ]
    infer_instance

instance spares_runSteps (count : Int) : Spares c (runSteps perform p count) := by
  unfold runSteps
  infer_instance

/-! ### Control -/

omit hp in
instance spares_instructionsDue : Spares c (instructionsDue p) := by
  unfold instructionsDue
  infer_instance

omit hp in
instance spares_powerOn : Spares c (powerOn p) := by
  unfold powerOn
  have : Spares c (modifyPacer p fun q => { q with power := .running }) :=
    spares_modifyPacer p fun _ => ⟨rfl, fun _ => rfl⟩
  have : Spares c (modifyPacer p Pacer.startPeriodic) := spares_modifyPacer p (.startPeriodic c)
  infer_instance

instance spares_powerOff : Spares c (powerOff perform p) := by
  unfold powerOff
  infer_instance

instance spares_pause : Spares c (pause perform p) := by
  unfold pause
  infer_instance

instance spares_resume : Spares c (resume perform p) := by
  unfold resume
  infer_instance

omit hp in
instance spares_updateIntervals : Spares c (updateIntervals p) := by
  unfold updateIntervals
  have (timerInterval : Nat) : Spares c (modifyPacer p fun q => { q with timerInterval }) :=
    spares_modifyPacer p fun _ => ⟨rfl, fun _ => rfl⟩
  have (frameInterval : Nat) : Spares c (modifyPacer p fun q => { q with frameInterval }) :=
    spares_modifyPacer p fun _ => ⟨rfl, fun _ => rfl⟩
  infer_instance

omit hp in
instance spares_setRate (rate : Float) : Spares c (setRate p rate) := by
  unfold setRate
  have : Spares c (modifyPacer p fun q => { q with rate }) :=
    spares_modifyPacer p fun _ => ⟨rfl, fun _ => rfl⟩
  have : Spares c (modifyPacer p fun q => q.stopPeriodic.clearSchedule.startPeriodic) :=
    spares_modifyPacer p fun q => by
      have hclear : q.Spared c q.stopPeriodic.clearSchedule := ⟨rfl, fun _ => rfl⟩
      exact hclear.trans (.startPeriodic c _)
  exact spares_guard inferInstance

omit hp in
instance spares_newPacer (handle : Handle) (rate timerFrequency refresh : Float)
    (frames : Option (Script Request)) (clock : Nat) :
    Spares c (newPacer handle rate timerFrequency refresh frames clock) := by
  unfold newPacer
  refine spares_guard (spares_guard (spares_guard ?_))
  refine spares_then fun _ => spares_then fun timerInterval => ?_
  refine spares_then fun frameInterval => spares_then fun now => spares_then fun base => ?_
  exact ⟨fun _ _ => .pushPacer _⟩

omit hp in
instance spares_rates : Spares c (rates p) := by
  unfold rates
  infer_instance

/-! ### Paced runs -/

instance spares_sleep (sleeps : Sleeps) (number : Nat) (duration : Float) :
    Spares c (sleep perform sleeps number duration) :=
  spares_guard inferInstance

omit hp in
instance spares_dueNow : Spares c (dueNow p) := by
  unfold dueNow
  infer_instance

omit hp in
instance spares_pacedReply (slept : Nat) (last : Float) : Spares c (pacedReply p slept last) := by
  unfold pacedReply
  infer_instance

omit hp in
instance spares_ensureOn : Spares c (ensureOn p) := by
  unfold ensureOn
  infer_instance

instance spares_runRounds (maxBatch : Int) (sleeps : Sleeps) (slept : Nat) (last : Float)
    (n : Nat) : Spares c (runRounds perform p maxBatch sleeps slept last n) := by
  induction n generalizing slept last with
  | zero => exact spares_throw _
  | succ n ih =>
    unfold runRounds
    infer_instance

instance spares_run (maxBatch : Int) (sleeps : Sleeps) :
    Spares c (run perform p maxBatch sleeps) := by
  unfold run
  infer_instance

instance spares_runForRounds (wall : WallClock) (deadline : Float) (maxBatch : Int)
    (sleeps : Sleeps) (reads slept : Nat) (last : Float) (n : Nat) :
    Spares c (runForRounds perform p wall deadline maxBatch sleeps reads slept last n) := by
  induction n generalizing reads slept last with
  | zero => exact spares_throw _
  | succ n ih =>
    unfold runForRounds
    infer_instance

instance spares_runFor (wall : WallClock) (seconds : Float) (maxBatch : Int) (sleeps : Sleeps) :
    Spares c (runFor perform p wall seconds maxBatch sleeps) := by
  unfold runFor
  infer_instance

end Pacers

/-! ### Requests -/

instance spares_handleReply (n : Nat) : Spares c (handleReply n) := by
  unfold handleReply
  infer_instance

instance spares_dialectOf (names : List String) : Spares c (dialectOf names) := by
  unfold dialectOf
  infer_instance

instance spares_peek (c' : Nat) (address count : Int) : Spares c (peek c' address count) :=
  spares_guard inferInstance

instance spares_programByte (c' : Nat) (index : Int) : Spares c (programByte c' index) := by
  refine spares_guard (spares_then fun e => ?_)
  dsimp only
  infer_instance

instance spares_setRegisters (c' : Nat) [Fact (c' ≠ c)] (v : List (Register × Int))
    (index counter flag : Option Int) : Spares c (setRegisters c' v index counter flag) := by
  unfold setRegisters
  cases flag <;> infer_instance

instance spares_writeBlock (c' : Nat) [Fact (c' ≠ c)] (address : Int) (data : List UInt8) :
    Spares c (writeBlock c' address data) := by
  unfold writeBlock
  infer_instance

instance spares_poke (c' : Nat) [Fact (c' ≠ c)] (address : Int) (data : List UInt8) :
    Spares c (poke c' address data) := by
  unfold poke
  infer_instance

section Requests

variable (perform : Request → HostM Reply) [hp : ∀ r, Spares c (perform r)]

/-- **Every request but a direct write** spares a retired engine, if those in the middle of it
do. -/
theorem spares_respond {r : Request} (hr : r.isWrite = false) : Spares c (respond perform r) := by
  cases r with
  | loadRom | loadRomFile | step | execute | tick | setRegisters | poke => cases hr
  | newSession names draws =>
    rw [respond]
    have (dialect : Dialect) : Spares c (modify fun h =>
        { h with
          sessions := h.sessions.push ⟨dialect, draws, 0, none⟩
          session := some h.sessions.size }) :=
      spares_modify fun _ => ⟨rfl, rfl⟩
    infer_instance
  | trace on =>
    rw [respond]
    have (c' : Nat) : Spares c (modifyEngine c' fun e => { e with tracing := on }) :=
      spares_modifyEngine c' fun _ => ⟨.refl _, id⟩
    infer_instance
  | traceMemory on =>
    rw [respond]
    have (c' : Nat) : Spares c (modifyEngine c' fun e => { e with tracingMemory := on }) :=
      spares_modifyEngine c' fun _ => ⟨.refl _, id⟩
    infer_instance
  | releaseAll =>
    rw [respond]
    have (c' : Nat) : Spares c (modifyMachine c' fun m =>
        { m with keypad := m.keypad.releaseAll }) :=
      spares_modifyKeypad c' Keypad.releaseAll
    infer_instance
  | hostKey number down =>
    rw [respond]
    cases Keyboard.key? number <;> dsimp only <;> infer_instance
  | newPacer n rate timerFrequency refresh frames clock =>
    rw [respond]
    have : Spares c (modifyGet fun h =>
        (h.clocks.size,
          { h with clocks := h.clocks.push clock, clock := some h.clocks.size, frames := 0 })) :=
      .of_eq fun _ => ⟨rfl, rfl⟩
    have (p : Nat) : Spares c (modify fun h => { h with pacer := some p }) :=
      spares_modify fun _ => ⟨rfl, rfl⟩
    infer_instance
  | _ =>
    unfold respond
    infer_instance

omit hp in
theorem spared_currentEngine_bind {f : Nat → HostM α} {h : Host} (hr : h.Retired c)
    (hne : h.current ≠ some c) (hf : ∀ c', Fact (c' ≠ c) → Spares c (f c')) :
    Host.Spared c h ((currentEngine >>= f) h).2 := by
  rw [currentEngine, bind_assoc, bind_of_ok (get_apply h)]
  cases hc : h.current with
  | none => exact .refl c h
  | some c' =>
    have hother : Fact (c' ≠ c) := ⟨fun he => hne (he ▸ hc)⟩
    exact (hf c' hother).spares h hr

/-- A direct write spares an engine that is not the current one. -/
theorem spared_respond {r : Request} {h : Host} (hr : h.Retired c) (hne : h.current ≠ some c) :
    Host.Spared c h (respond perform r h).2 := by
  cases hwrite : r.isWrite with
  | false => exact (spares_respond perform hwrite).spares h hr
  | true =>
    cases r with
    | loadRom | loadRomFile | step | execute | tick | setRegisters | poke =>
      exact spared_currentEngine_bind hr hne fun c' _ => inferInstance
    | _ => cases hwrite

variable (c)

/-- Performs a request as `performWithin` does, with one exception: once engine `c` has been
retired, requests that write to it directly are refused. -/
def performSparing : Nat → Request → HostM Reply
  | 0, _ => throw .nestedTooDeep
  | depth + 1, r => do
    if r.isWrite && (← get).isOn c then throw .retired
    respond (performSparing depth) r

/-- **Requests spare a retired engine**, however deep they are nested, if those are refused that
write to it directly. -/
instance spares_performSparing (depth : Nat) (r : Request) :
    Spares c (performSparing c depth r) := by
  induction depth generalizing r with
  | zero => exact spares_throw _
  | succ depth ih =>
    refine ⟨fun h hr => ?_⟩
    rw [performSparing, bind_of_ok (get_apply h), Host.isOn_of_retired hr]
    cases hwrite : r.isWrite with
    | false => exact (spares_respond _ hwrite).spares h hr
    | true =>
      by_cases hc : h.current = some c
      · rw [hc, beq_self_eq_true]
        exact .refl c h
      · rw [beq_eq_false_iff_ne.mpr hc]
        exact spared_respond _ hr hc

end Requests

end HostM

end Chip8
