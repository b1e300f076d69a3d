import Chip8.Proofs.Engine.Step
import Chip8.Proofs.Host.Follows

/-!
# What calls and cues keep

The calls on engines and sessions, the frame callback and the cues of pacers keep
what every action keeps, if the requests that are made in the middle of them do.

* `keeps_stepEngine`, `keeps_reload`: calls on engines and sessions.
* `keeps_fire`: a cue that happens.  A regular cue comes back at a later count,
  so that its pacer stays in order.
-/

namespace Chip8

namespace HostM

variable {α : Type}

/-! ### Steps -/

theorem follows_stepped {e : Engine} (hfree : e.busy = false) : e.Follows e.stepped := by
  have hdraws := e.draws_stepped
  obtain ⟨source, lastStatus, heq⟩ := e.stepped_eq
  rw [heq] at hdraws ⊢
  refine { Engine.Follows.refl e with
    draws_eq := hdraws
    halted := fun r hr => ?_
    held := fun hb => ?_ }
  · show (e.machine.step e.source.nextByte).machine.halted = some r
    rw [Machine.step_of_isHalted hr]
    exact hr
  · rw [hfree] at hb
    cases hb

theorem sameOrigin_closed (e : Engine) (x : Register) (mask : Nat) (counter : Int)
    (drawn : Except Refusal UInt8) : e.SameOrigin (e.closed x mask counter drawn) := by
  rw [Engine.closed]
  cases Engine.drawOutcome drawn <;> exact ⟨rfl, rfl, id⟩

/-- A step that asks for a number leads to an engine that follows the one of its beginning, if the
engine that is there in the end follows the one in the middle. -/
theorem follows_closed {e e' : Engine} (hfree : e.busy = false) (hrun : e.machine.halted = none)
    (hf : e.opened.Follows e') (x : Register) (mask : Nat) (counter : Int)
    (drawn : Except Refusal UInt8) : e.Follows (e'.closed x mask counter drawn) := by
  have hclosed : (e'.closed x mask counter drawn).busy = false ∧
      (e'.closed x mask counter drawn).source = e'.source ∧
      (e'.closed x mask counter drawn).started = e'.started := by
    rw [Engine.closed]
    cases Engine.drawOutcome drawn <;> exact ⟨rfl, rfl, rfl⟩
  have horigin : e.SameOrigin e' := ⟨hf.owner_eq, hf.generation_eq, hf.retired⟩
  refine ⟨horigin.trans (sameOrigin_closed e' x mask counter drawn), hclosed.1.trans hfree.symm,
    by rw [hclosed.2.1, hf.draws_eq]; rfl, fun hs => hclosed.2.2.trans (hf.started hs),
    fun r hr => ?_, fun hb => ?_⟩
  · rw [hrun] at hr
    cases hr
  · rw [hfree] at hb
    cases hb

/-! ### Calls on engines -/

section Engines

variable (perform : Request → HostM Reply) [KeepsRequests perform] (c : Nat)

instance keeps_drawByte : Keeps (drawByte perform c) := by
  unfold drawByte
  have : Keeps (modifyEngine c fun e => { e with source := e.source.advance }) :=
    keeps_modifyEngine c fun e => { Engine.Follows.refl e with }
  have (draw? : Option (Draw Request)) : Keeps (match draw? with
      | none => (return 0 : HostM UInt8)
      | some draw => do
        match draw.before with
        | none => pure ()
        | some r => note (.reply (← perform r))
        return UInt8.ofInt draw.value) := by
    rcases draw? with _ | ⟨_ | r, value⟩ <;> dsimp only <;> infer_instance
  infer_instance

/-- The engine that there is when a number has come: it is still busy with its step. -/
theorem exists_drawn {h h' : Host} {e : Engine} (he : h.engines[c]? = some e) (hb : e.busy = true)
    {drawn : Except Refusal UInt8} (hdraw : drawByte perform c h = (drawn, h')) :
    ∃ e', h'.engines[c]? = some e' ∧ e'.busy = true := by
  have hkept := (Keeps.follows (x := drawByte perform c) h).engines.kept he
  rw [hdraw] at hkept
  obtain ⟨e', he', hf⟩ := hkept
  exact ⟨e', he', hf.busy_eq.trans hb⟩

/-- **A step keeps what every action keeps.**  Where it asks for a number, the machine waits for it
while the host answers the request that comes before. -/
instance keeps_stepEngine : Keeps (stepEngine perform c) where
  follows h := by
    cases he : h.engines[c]? with
    | none =>
      rw [stepEngine_of_eq_none he]
      exact .refl h
    | some e =>
      rcases stepEngine_cases he with ⟨r, -, hr⟩ | ⟨hs, hfree, halone | ⟨hrun, -, m₁, x, mask, ha⟩⟩
      · rw [hr]
        exact .refl h
      · rw [halone]
        exact (Host.Follows.putEngine he (follows_stepped hfree)).trans
          (.of_sameHoldings ⟨rfl, rfl, rfl, rfl, rfl⟩)
      · have hopened : e.SameOrigin e.opened := ⟨rfl, rfl, id⟩
        have hlines : Host.Follows (h.putEngine c e.opened)
            ((h.putEngine c e.opened).addLines e.fetchLines) :=
          .of_sameHoldings ⟨rfl, rfl, rfl, rfl, rfl⟩
        have hinner := hlines.trans (Keeps.follows (x := drawByte perform c) _)
        obtain ⟨e', he', hf⟩ := hinner.engines.kept (Host.engines_putEngine he)
        rw [stepEngine_of_drawing he hs hfree hrun ha rfl he']
        exact (Host.Follows.around he hopened hinner he' (sameOrigin_closed e' ..)
          (follows_closed hfree hrun hf ..)).trans (.of_sameHoldings ⟨rfl, rfl, rfl, rfl, rfl⟩)

instance keeps_tickEngine : Keeps (tickEngine c) := by
  unfold tickEngine
  have : Keeps (modifyMachine c Machine.tickTimers) := keeps_modifyMachine c fun _ => ⟨rfl, rfl⟩
  infer_instance

instance keeps_tickTimes (n : Nat) : Keeps (tickTimes c n) := by
  induction n with
  | zero => exact keeps_pure ()
  | succ n ih =>
    unfold tickTimes
    infer_instance

instance keeps_stepTimes (n : Nat) : Keeps (stepTimes perform c n) := by
  induction n with
  | zero => exact keeps_pure _
  | succ n ih =>
    unfold stepTimes
    infer_instance

instance keeps_executeUpTo (done : Nat) (last : Option Status) (n : Nat) :
    Keeps (executeUpTo perform c done last n) := by
  induction n generalizing done last with
  | zero => exact keeps_pure _
  | succ n ih =>
    unfold executeUpTo
    infer_instance

instance keeps_setKey (code : Int) (down : Bool) : Keeps (setKey c code down) := by
  unfold setKey
  have (key : Key) : Keeps (modifyMachine c fun m =>
      { m with keypad := m.keypad.set key down }) :=
    keeps_modifyMachine c fun _ => ⟨rfl, rfl⟩
  infer_instance

instance keeps_readScreen : Keeps (readScreen c) := by
  unfold readScreen
  infer_instance

instance keeps_loadRom (data : List UInt8) (name : String) : Keeps (loadRom c data name) := by
  rw [loadRom_eq]
  refine keeps_engine_bind c fun h e he => follows_ofExcept_bind fun e' hload => ?_
  obtain ⟨memory, rfl⟩ := Engine.load_eq_ok hload
  refine follows_bind ?_ fun _ h' _ => Keeps.follows h'
  rw [modifyEngine_apply he]
  have hmachine : Machine.SameProgress e.machine { e.machine with memory } := ⟨rfl, rfl⟩
  exact .putEngine he { Engine.Follows.withMachine e hmachine with }

instance keeps_readRomFile (path : String) : Keeps (readRomFile path) := by
  unfold readRomFile
  dsimp only
  infer_instance

instance keeps_loadRomFile (path : String) : Keeps (loadRomFile c path) := by
  unfold loadRomFile
  have (rom : Cartridge) : Keeps (modifyEngine c fun e => { e with rom := some rom }) :=
    keeps_modifyEngine c fun e => { Engine.Follows.refl e with }
  infer_instance

/-- An engine that is started issues a handle for its generation. -/
instance keeps_startEngine : Keeps (startEngine c) := by
  rw [startEngine_eq]
  refine keeps_engine_bind c fun h e he => follows_ofExcept_bind fun e' hstart => ?_
  rw [Engine.start_eq_ok hstart, bind_of_ok (modifyEngine_apply he _)]
  have hstarted : e.Follows { e with started := true } :=
    { Engine.Follows.refl e with started := fun _ => rfl }
  exact (Host.Follows.putEngine he hstarted).trans (.pushHandle (Host.engines_putEngine he))

instance keeps_stepHandle (x : Handle) : Keeps (stepHandle perform x) := by
  unfold stepHandle
  dsimp only
  infer_instance

instance keeps_tickHandle (x : Handle) : Keeps (tickHandle x) := by
  unfold tickHandle
  infer_instance

end Engines

instance keeps_startSession (s : Nat) : Keeps (startSession s) := by
  unfold startSession
  infer_instance

/-! ### Calls on pacers -/

section Pacers

variable (perform : Request → HostM Reply) [KeepsRequests perform] (p : Nat)

instance keeps_performAll (requests : List Request) : Keeps (performAll perform requests) := by
  induction requests with
  | nil => exact keeps_pure ()
  | cons r rest ih =>
    unfold performAll
    infer_instance

instance keeps_showFrame (script : Script Request) (count : Nat) :
    Keeps (showFrame perform script count) := by
  unfold showFrame
  have : Keeps (modify fun h => { h with frames := h.frames + 1 }) :=
    keeps_modify fun _ => ⟨rfl, rfl, rfl, rfl, rfl⟩
  infer_instance

instance keeps_rebase : Keeps (rebase p) := by
  unfold rebase
  have (base : Int) : Keeps (modifyPacer p fun q => { q with base }) :=
    keeps_modifyPacer p (fun _ => ⟨rfl, rfl⟩) fun _ h => { h with }
  infer_instance

theorem pacers_tickEngine (c : Nat) (h : Host) : (tickEngine c h).2.pacers = h.pacers := by
  rw [tickEngine, exclusive]
  cases he : h.engines[c]? with
  | none => rw [bind_of_error (engine_of_eq_none he)]
  | some e =>
    rw [bind_of_ok (engine_apply he)]
    cases e.busy with
    | true => rfl
    | false => rfl

theorem pacers_tickHandle (x : Handle) (h : Host) : (tickHandle x h).2.pacers = h.pacers := by
  have hcurrent := isCurrent_unchanged x h
  rw [tickHandle, bind_apply]
  rcases hx : isCurrent x h with ⟨_ | current, h'⟩
  · rw [hx] at hcurrent
    exact congrArg Host.pacers hcurrent
  · rw [hx] at hcurrent
    subst hcurrent
    cases current with
    | true => exact pacers_tickEngine x.engine _
    | false => rfl

/-- **A cue that happens** keeps every pacer in order: the regular ones come back later, and only
while the pacer has not stopped. -/
instance keeps_fire (cue : Cue) : Keeps (fire perform p cue) := by
  cases cue with
  | tickTimers =>
    refine keeps_pacerAt_bind p fun h q hq => ?_
    by_cases hwanted : (q.timerActive && q.power ≠ .stopped) = true
    · rw [if_pos hwanted]
      refine follows_bind (Keeps.follows h) fun _ h' htick => ?_
      refine follows_modifyPacer (fun _ => ⟨rfl, rfl⟩) fun q' hq' horder => ?_
      have hpacers : h'.pacers = h.pacers := by
        rw [← pacers_tickHandle q.handle h, htick]
      rw [hpacers, hq] at hq'
      cases hq'
      refine horder.enqueue .tickTimers horder.timer_pos fun _ hstopped => ?_
      rw [hstopped, Bool.and_eq_true] at hwanted
      exact absurd hwanted.2 (by decide)
    · rw [if_neg hwanted]
      exact .refl h
  | showFrame =>
    refine keeps_pacerAt_bind p fun h q hq => ?_
    by_cases hwanted : (q.frameActive && q.power ≠ .stopped) = true
    · rw [if_pos hwanted]
      have hactive : q.frameActive = true := (Bool.and_eq_true_iff.mp hwanted).1
      cases hframes : q.frames with
      | none =>
        show Host.Follows h (modifyPacer p (fun q => q.enqueue .showFrame q.frameInterval) h).2
        refine follows_modifyPacer (fun _ => ⟨rfl, rfl⟩) fun q' hq' horder => ?_
        rw [hq] at hq'
        cases hq'
        rw [horder.silent hframes] at hactive
        cases hactive
      | some script =>
        have hscript : Keeps (showFrame perform script q.count) := inferInstance
        refine follows_bind (hscript.follows h) fun _ h' hh' =>
          follows_modifyPacer (fun _ => ⟨rfl, rfl⟩) ?_
        intro q' hq' horder
        have hfollows := hscript.follows h
        rw [hh'] at hfollows
        obtain ⟨q'', hq'', hsame⟩ := hfollows.pacers.same_setup hq
        rw [hq'] at hq''
        cases hq''
        refine horder.enqueue .showFrame horder.frame_pos fun hnone => ?_
        rw [hsame.frames_eq, hframes] at hnone
        cases hnone
    · rw [if_neg hwanted]
      exact .refl h
  | powerOff => exact keeps_modifyPacer p (fun _ => ⟨rfl, rfl⟩) fun _ h => h.stopNow
  | pause => exact keeps_modifyPacer p Pacer.SameSetup.pauseNow fun _ h => h.pauseNow
  | resume =>
    unfold fire
    have : Keeps (modifyPacer p fun q => { q with power := .running }) :=
      keeps_modifyPacer p (fun _ => ⟨rfl, rfl⟩) fun _ h => h.setPower (by decide)
    infer_instance

instance keeps_fireAll (events : List (Event Cue)) : Keeps (fireAll perform p events) := by
  induction events with
  | nil => exact keeps_pure ()
  | cons e rest ih =>
    unfold fireAll
    infer_instance

end Pacers

end HostM

end Chip8
