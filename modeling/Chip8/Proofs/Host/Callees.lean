import Chip8.Proofs.Host.Assembled
import Chip8.Proofs.Host.Reachable
import Chip8.Proofs.Host.Unblocked
import Mathlib.Logic.Basic

/-!
# Which engine a request calls

Every request calls one engine at most: the current one, the one of a handle, or
the one that the current pacer drives.  What a request does is put together from
calls on this engine, and a request that calls none is never refused because an
engine is busy.

* `Host.callee?`: the engine.
* `assembled_runSteps`, `assembled_runRounds`: the calls of a pacer.
* `calls_respond`: every request.
-/

namespace Chip8

namespace HostM

variable {α β : Type} {C D : Nat → Prop}

/-! ### Actions put together -/

instance assembled_alone (x : HostM α) [Keeps x] [hx : Unblocked x] : Assembled C D fun _ => x :=
  .alone (fun h => (Keeps.follows h).goesOn) fun h a hbusy => absurd hbusy (hx.not_busy h a)

instance assembled_bind {x : (Request → HostM Reply) → HostM α}
    {f : α → (Request → HostM Reply) → HostM β} [hx : Assembled C D x]
    [hf : ∀ a, Assembled C D (f a)] : Assembled C D fun perform => x perform >>= (f · perform) :=
  .bind hx hf

theorem assembled_pacerAt_then {p : Nat} [hp : Fact (D p)]
    {f : Pacer → (Request → HostM Reply) → HostM α}
    (hf : ∀ q : Pacer, Fact (C q.handle.engine) → Assembled C D (f q)) :
    Assembled C D fun perform => pacerAt p >>= (f · perform) :=
  .pacer hp.out fun q hc => hf q ⟨hc⟩

instance assembled_ite {p : Prop} [Decidable p] {x y : (Request → HostM Reply) → HostM α}
    [hx : Assembled C D x] [hy : Assembled C D y] :
    Assembled C D fun perform => if p then x perform else y perform := by
  split
  · exact hx
  · exact hy

instance assembled_ask_then (r : Request) {f : (Request → HostM Reply) → Unit → HostM α}
    [hf : ∀ u, Assembled C D fun perform => f perform u] :
    Assembled C D fun perform => perform r >>= fun a => note (.reply a) >>= f perform := by
  have hassoc : (fun perform : Request → HostM Reply =>
      perform r >>= fun a => note (.reply a) >>= f perform) =
        fun perform => noted (perform r) >>= (f perform ·) := by
    funext perform
    rw [noted, bind_assoc]
  rw [hassoc]
  exact .bind (.ask r) hf

instance assembled_stepEngine (c : Nat) [hc : Fact (C c)] :
    Assembled C D fun perform => stepEngine perform c :=
  .step hc.out

/-- What is done with an engine for itself is refused only if the engine is busy. -/
instance assembled_exclusive (c : Nat) [hc : Fact (C c)] (activity : Activity) (x : HostM α)
    [Keeps x] [hx : Unblocked x] : Assembled C D fun _ => exclusive c activity x := by
  refine .alone (fun h => (Keeps.follows h).goesOn) fun h a hbusy => ⟨c, hc.out, ?_⟩
  cases he : h.engines[c]? with
  | none =>
    rw [exclusive_of_eq_none he] at hbusy
    cases hbusy
  | some e =>
    cases hb : e.busy with
    | true => exact ⟨e, he, hb⟩
    | false =>
      rw [exclusive_of_free he hb] at hbusy
      exact absurd hbusy (hx.not_busy _ a)

theorem assembled_modifyPacer (p : Nat) {f : Pacer → Pacer}
    (hsetup : ∀ q : Pacer, q.SameSetup (f q)) : Assembled C D fun _ => modifyPacer p f :=
  .alone (fun _ => ⟨.refl _, PacersFollow.same_setup_modify hsetup⟩)
    fun _ a hbusy => absurd hbusy (Unblocked.not_busy _ a)

/-! ### Calls on engines -/

section Engines

variable (c : Nat) [hc : Fact (C c)]

instance assembled_tickEngine : Assembled C D fun _ => tickEngine c := by
  unfold tickEngine
  have : Keeps (modifyMachine c Machine.tickTimers) := keeps_modifyMachine c fun _ => ⟨rfl, rfl⟩
  infer_instance

instance assembled_tickTimes (n : Nat) : Assembled C D fun _ => tickTimes c n := by
  induction n with
  | zero => exact assembled_alone (pure ())
  | succ n ih =>
    unfold tickTimes
    infer_instance

instance assembled_setKey (code : Int) (down : Bool) :
    Assembled C D fun _ => setKey c code down := by
  unfold setKey
  have (key : Key) : Keeps (modifyMachine c fun m => { m with keypad := m.keypad.set key down }) :=
    keeps_modifyMachine c fun _ => ⟨rfl, rfl⟩
  have (key? : Option Key) : Unblocked (required (.keyOutOfRange code) key?) :=
    unblocked_required (by simp) _
  infer_instance

instance assembled_readScreen : Assembled C D fun _ => readScreen c := by
  unfold readScreen
  infer_instance

instance assembled_stepTimes (n : Nat) : Assembled C D fun perform => stepTimes perform c n := by
  induction n with
  | zero => exact assembled_alone (pure [])
  | succ n ih =>
    unfold stepTimes
    infer_instance

instance assembled_executeUpTo (done : Nat) (last : Option Status) (n : Nat) :
    Assembled C D fun perform => executeUpTo perform c done last n := by
  induction n generalizing done last with
  | zero => exact assembled_alone (pure _)
  | succ n ih =>
    unfold executeUpTo
    infer_instance

instance assembled_loadRom (data : List UInt8) (name : String) :
    Assembled C D fun _ => loadRom c data name := by
  refine .alone (fun h => (Keeps.follows h).goesOn) fun h a hbusy => ⟨c, hc.out, ?_⟩
  rw [loadRom_eq] at hbusy
  cases he : h.engines[c]? with
  | none =>
    rw [bind_of_error (engine_of_eq_none he)] at hbusy
    cases hbusy
  | some e =>
    rw [bind_of_ok (engine_apply he)] at hbusy
    cases hl : e.load data name with
    | error r =>
      rw [hl] at hbusy
      cases hbusy
      exact ⟨e, he, busy_of_load hl⟩
    | ok e' =>
      have hrom : Unblocked (required .noRom e'.rom) := unblocked_required (by simp) _
      rw [hl, bind_of_ok (ofExcept_apply _ _)] at hbusy
      exact absurd hbusy (Unblocked.not_busy h a)

instance assembled_loadRomFile (path : String) :
    Assembled C D fun _ => loadRomFile c path := by
  have (rom : Cartridge) : Keeps (modifyEngine c fun e => { e with rom := some rom }) :=
    keeps_modifyEngine c fun e => { Engine.Follows.refl e with }
  unfold loadRomFile
  infer_instance

end Engines

/-! ### Calls on pacers -/

section Pacers

variable (p : Nat)

instance assembled_tickHandle (x : Handle) [Fact (C x.engine)] :
    Assembled C D fun _ => tickHandle x := by
  unfold tickHandle
  infer_instance

instance assembled_stepHandle (x : Handle) [Fact (C x.engine)] :
    Assembled C D fun perform => stepHandle perform x := by
  have : Unblocked (throw (.stale x.generation) : HostM PUnit) := unblocked_throw (by simp)
  unfold stepHandle
  infer_instance

instance assembled_performAll (requests : List Request) :
    Assembled C D fun perform => performAll perform requests := by
  induction requests with
  | nil => exact assembled_alone (pure ())
  | cons r rest ih =>
    unfold performAll
    infer_instance

instance assembled_showFrame (script : Script Request) (count : Nat) :
    Assembled C D fun perform => showFrame perform script count := by
  have : Keeps (modify fun h => { h with frames := h.frames + 1 }) :=
    keeps_modify fun _ => ⟨rfl, rfl, rfl, rfl, rfl⟩
  unfold showFrame
  infer_instance

variable [Fact (D p)]

instance assembled_fire (cue : Cue) : Assembled C D fun perform => fire perform p cue := by
  have henqueue (cue : Cue) (interval : Pacer → Nat) :
      Assembled C D fun _ => modifyPacer p fun q => q.enqueue cue (interval q) :=
    assembled_modifyPacer p fun _ => ⟨rfl, rfl⟩
  cases cue with
  | tickTimers => exact assembled_pacerAt_then fun q _ => inferInstance
  | showFrame =>
    refine assembled_pacerAt_then fun q _ => ?_
    cases q.frames <;> dsimp only <;> infer_instance
  | powerOff => exact assembled_modifyPacer p fun _ => ⟨rfl, rfl⟩
  | pause => exact assembled_modifyPacer p Pacer.SameSetup.pauseNow
  | resume =>
    have : Assembled C D fun _ => modifyPacer p fun q => { q with power := .running } :=
      assembled_modifyPacer p fun _ => ⟨rfl, rfl⟩
    exact assembled_pacerAt_then fun q _ => inferInstance

instance assembled_fireAll (events : List (Event Cue)) :
    Assembled C D fun perform => fireAll perform p events := by
  induction events with
  | nil => exact assembled_alone (pure ())
  | cons e rest ih =>
    unfold fireAll
    infer_instance

instance assembled_settle : Assembled C D fun perform => settle perform p := by
  have : Assembled C D fun _ => modifyPacer p Pacer.takeDue :=
    assembled_modifyPacer p fun _ => ⟨rfl, rfl⟩
  unfold settle
  infer_instance

instance assembled_cueNow (cue : Cue) : Assembled C D fun perform => cueNow perform p cue := by
  have : Assembled C D fun _ => modifyPacer p fun q => q.enqueue cue 0 :=
    assembled_modifyPacer p fun _ => ⟨rfl, rfl⟩
  unfold cueNow
  infer_instance

instance assembled_stepsUpTo (n : Nat) :
    Assembled C D fun perform => stepsUpTo perform p n := by
  induction n with
  | zero => exact assembled_alone (pure ())
  | succ n ih =>
    have : Assembled C D fun _ => modifyPacer p Pacer.stopNow :=
      assembled_modifyPacer p fun _ => ⟨rfl, rfl⟩
    have (status : Status) : Assembled C D fun _ => modifyPacer p fun q => q.countStep status :=
      assembled_modifyPacer p fun _ => ⟨rfl, rfl⟩
    unfold stepsUpTo
    exact .bind inferInstance fun _ => assembled_pacerAt_then fun q _ => inferInstance

instance assembled_runSteps (count : Int) :
    Assembled C D fun perform => runSteps perform p count := by
  unfold runSteps
  infer_instance

instance assembled_powerOff : Assembled C D fun perform => powerOff perform p := by
  unfold powerOff
  infer_instance

instance assembled_pause : Assembled C D fun perform => pause perform p := by
  unfold pause
  infer_instance

instance assembled_resume : Assembled C D fun perform => resume perform p := by
  unfold resume
  infer_instance

instance assembled_sleep (sleeps : Sleeps) (number : Nat) (duration : Float) :
    Assembled C D fun perform => sleep perform sleeps number duration := by
  have : Unblocked (throw .sleepLimit : HostM PUnit) := unblocked_throw (by simp)
  unfold sleep
  infer_instance

instance assembled_runRounds (maxBatch : Int) (sleeps : Sleeps) (slept : Nat) (last : Float)
    (n : Nat) :
    Assembled C D fun perform => runRounds perform p maxBatch sleeps slept last n := by
  induction n generalizing slept last with
  | zero =>
    have : Unblocked (throw .sleepLimit : HostM Reply) := unblocked_throw (by simp)
    exact assembled_alone (throw .sleepLimit : HostM Reply)
  | succ n ih =>
    unfold runRounds
    dsimp only
    infer_instance

instance assembled_run (maxBatch : Int) (sleeps : Sleeps) :
    Assembled C D fun perform => run perform p maxBatch sleeps := by
  unfold run
  infer_instance

instance assembled_runForRounds (wall : WallClock) (deadline : Float) (maxBatch : Int)
    (sleeps : Sleeps) (reads slept : Nat) (last : Float) (n : Nat) :
    Assembled C D fun perform =>
      runForRounds perform p wall deadline maxBatch sleeps reads slept last n := by
  induction n generalizing reads slept last with
  | zero =>
    have : Unblocked (throw .stalled : HostM Reply) := unblocked_throw (by simp)
    exact assembled_alone (throw .stalled : HostM Reply)
  | succ n ih =>
    unfold runForRounds
    dsimp only
    refine .bind inferInstance fun q => ?_
    infer_instance

instance assembled_runFor (wall : WallClock) (seconds : Float) (maxBatch : Int)
    (sleeps : Sleeps) :
    Assembled C D fun perform => runFor perform p wall seconds maxBatch sleeps := by
  unfold runFor
  infer_instance

end Pacers

end HostM

/-! ### Requests -/

/-- The engine that a request calls, if it calls one. -/
def Host.callee? (h : Host) : Request → Option Nat
  | .step _ | .execute _ | .tick _ | .key .. | .hostKey .. | .screen | .loadRom ..
  | .loadRomFile _ => h.current
  | .stepHandle n | .tickHandle n => h.handles[n]?.map Handle.engine
  | .runSteps _ | .powerOff | .pause | .resume | .run .. | .runFor .. =>
    (h.pacer.bind (h.pacers[·]?)).map (·.handle.engine)
  | _ => none

namespace HostM

variable {α : Type}

/-- From the host on, the action goes as one that is put together from calls on the engine, if there
is one. -/
def Calls (h : Host) (c? : Option Nat) (action : (Request → HostM Reply) → HostM α) : Prop :=
  ∃ D action', Assembled (c? = some ·) D action' ∧ h.Drives (c? = some ·) D ∧
    ∀ perform, action perform h = action' perform h

variable {h : Host} {c? : Option Nat}

theorem calls_of_assembled {action : (Request → HostM Reply) → HostM α}
    (hx : Assembled (c? = some ·) (fun _ => False) action) : Calls h c? action :=
  ⟨_, action, hx, fun _ hp => hp.elim, fun _ => rfl⟩

theorem calls_required {β : Type} {x : HostM β} {refusal : Refusal} {a? : Option β}
    {f : β → (Request → HostM Reply) → HostM α} (hx : x h = required refusal a? h)
    (hr : ∀ a, refusal ≠ .busy a) (hf : ∀ a, a? = some a → Calls h c? (f a)) :
    Calls h c? fun perform => x >>= (f · perform) := by
  cases a? with
  | none =>
    have : Unblocked (throw refusal : HostM α) := unblocked_throw hr
    refine ⟨fun _ => False, fun _ => throw refusal, inferInstance, fun _ hp => hp.elim, fun _ => ?_⟩
    exact bind_of_error hx _
  | some a =>
    obtain ⟨D, action, hcalls, hdrives, hsame⟩ := hf a rfl
    exact ⟨D, action, hcalls, hdrives, fun perform => (bind_of_ok hx _).trans (hsame perform)⟩

theorem calls_of_unblocked {r : Request} (hx : Unblocked (respond (performWithin 0) r))
    (hsame : ∀ perform, respond perform r = respond (performWithin 0) r) :
    Calls h c? (respond · r) := by
  refine ⟨fun _ => False, fun _ => respond (performWithin 0) r, .alone (fun h => ?_) ?_,
    fun _ hp => hp.elim, fun perform => congrFun (hsame perform) h⟩
  · exact ⟨KeepsRequests.engines r h, (KeepsRequests.pacers r h).same_setup⟩
  · exact fun h a hbusy => absurd hbusy (hx.not_busy h a)

theorem currentEngine_eq (h : Host) : currentEngine h = required .noEngine h.current h :=
  bind_of_ok (get_apply h) _

theorem handle_eq (n : Nat) (h : Host) : handle n h = required .noHandle h.handles[n]? h :=
  bind_of_ok (get_apply h) _

theorem currentPacer_eq (h : Host) : currentPacer h = required .noPacer h.pacer h :=
  bind_of_ok (get_apply h) _

theorem runSteps_of_eq_none (perform : Request → HostM Reply) {p : Nat} (hq : h.pacers[p]? = none)
    (count : Int) : runSteps perform p count h = (.error .noPacer, h) := by
  have hsettle : settle perform p h = (.error .noPacer, h) :=
    bind_of_error (pacerAt_of_eq_none hq) _
  rw [runSteps]
  cases count.toNat with
  | zero => exact (bind_of_ok (pure_apply () h) _).trans (bind_of_error hsettle _)
  | succ n => exact bind_of_error (bind_of_error hsettle _) _

theorem calls_pacer {action : Nat → (Request → HostM Reply) → HostM α}
    (hx : ∀ (C D : Nat → Prop) p [Fact (D p)], Assembled C D (action p))
    (hmissing : ∀ p, h.pacers[p]? = none → ∀ perform, action p perform h = (.error .noPacer, h)) :
    Calls h ((h.pacer.bind (h.pacers[·]?)).map (·.handle.engine))
      fun perform => currentPacer >>= (action · perform) := by
  refine calls_required (currentPacer_eq h) (by simp) fun p hp => ?_
  rw [hp, Option.bind_some]
  cases hq : h.pacers[p]? with
  | none =>
    have : Unblocked (throw .noPacer : HostM α) := unblocked_throw (by simp)
    exact ⟨fun _ => False, fun _ => throw .noPacer, inferInstance, fun _ hd => hd.elim,
      hmissing p hq⟩
  | some q =>
    have : Fact ((· = p) p) := ⟨rfl⟩
    refine ⟨(· = p), action p, hx _ _ p, ?_, fun _ => rfl⟩
    rintro _ rfl
    exact ⟨q, hq, rfl⟩

/-- **Every request** is put together from calls on the engine that it calls. -/
theorem calls_respond (h : Host) (r : Request) : Calls h (h.callee? r) (respond · r) := by
  cases r with
  | step count | execute limit | tick count | key code down | screen | loadRom data name
  | loadRomFile path =>
    refine calls_required (currentEngine_eq h) (by simp) fun c hc => calls_of_assembled ?_
    have : Fact (h.current = some c) := ⟨hc⟩
    show Assembled (h.current = some ·) _ _
    infer_instance
  | hostKey number down =>
    refine calls_required (currentEngine_eq h) (by simp) fun c hc => calls_of_assembled ?_
    have : Fact (h.current = some c) := ⟨hc⟩
    show Assembled (h.current = some ·) _ _
    cases Keyboard.key? number <;> dsimp only <;> infer_instance
  | stepHandle n | tickHandle n =>
    refine calls_required (handle_eq n h) (by simp) fun x hx => calls_of_assembled ?_
    have : Fact (h.handles[n]?.map Handle.engine = some x.engine) := ⟨by rw [hx]; rfl⟩
    show Assembled (h.handles[n]?.map Handle.engine = some ·) _ _
    infer_instance
  | runSteps count =>
    exact calls_pacer (fun _ _ p _ => inferInstance) fun p hq perform =>
      bind_of_error (runSteps_of_eq_none perform hq count) _
  | powerOff | pause | resume | run | runFor =>
    exact calls_pacer (fun _ _ p _ => inferInstance) fun p hq _ =>
      bind_of_error (bind_of_error (pacerAt_of_eq_none hq) _) _
  | _ =>
    -- No other request calls an engine.
    refine calls_of_unblocked ?_ fun _ => rfl
    dsimp only [respond]
    infer_instance

end HostM

end Chip8
