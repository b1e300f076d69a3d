import Chip8.Host.Perform
import Chip8.Proofs.Engine.Step

/-!
# Steps that are respected

The source of random numbers may make requests of the host in the middle of a step.
The engine is busy then, and what wants it for itself is refused.  What is not refused
may write the memory, the registers and the keys of the engine, but never its timers,
its picture or its stack, and the program does not go on.  An action respects the steps
that are being made if it does no more than this to any engine that is busy, however the
action ends.  `RespectsSteps` is a class, so that an action that is put together from
actions that respect steps is found to respect them too.

* `respects_exclusive`, `respects_stepEngine`, `respects_tickEngine`: calls that want an
  engine for themselves change none that is busy.
* `respects_respond`, `respects_performWithin`: every request respects steps, with all
  that are made in the middle of it.
-/

namespace Chip8

/-- Memory, registers and keys may have been written, and nothing else has changed. -/
def Machine.Written (m m' : Machine) : Prop :=
  m' = { m with memory := m'.memory, registers := m'.registers, keypad := m'.keypad }

namespace Machine.Written

variable {m m' m'' : Machine}

theorem refl (m : Machine) : m.Written m := rfl

theorem trans (h : m.Written m') (h' : m'.Written m'') : m.Written m'' :=
  (show m'' = _ from h').trans (congrArg (fun m₀ : Machine => { m₀ with
    memory := m''.memory, registers := m''.registers, keypad := m''.keypad }) h)

theorem timers_eq (h : m.Written m') : m'.timers = m.timers := by
  rw [show m' = _ from h]

theorem foldl_setV (v : List (Register × Int)) (m : Machine) :
    m.Written (v.foldl (fun m (x, value) => m.setV x value) m) := by
  induction v generalizing m with
  | nil => exact .refl m
  | cons a v ih =>
    have hset : m.Written (m.setV a.1 a.2) := rfl
    exact hset.trans (ih _)

end Machine.Written

/-- An engine that is busy stays so, and its machine has been written at most. -/
structure Engine.Respected (e e' : Engine) : Prop where
  busy : e.busy = true → e'.busy = true
  machine : e.machine.Written e'.machine

theorem Engine.Respected.refl (e : Engine) : e.Respected e :=
  ⟨id, .refl _⟩

/-- Between two hosts every engine that is busy has been respected. -/
structure Host.Respects (h h' : Host) : Prop where
  engine : ∀ {c : Nat} {e : Engine}, h.engines[c]? = some e → e.busy = true →
    ∃ e' : Engine, h'.engines[c]? = some e' ∧ e.Respected e'

namespace Host.Respects

variable {h h' h'' : Host}

theorem of_eq (he : h'.engines = h.engines) : Respects h h' where
  engine {c e} hc _ := ⟨e, by rw [he, hc], .refl e⟩

theorem refl (h : Host) : Respects h h :=
  of_eq rfl

theorem trans (h₁ : Respects h h') (h₂ : Respects h' h'') : Respects h h'' where
  engine he hb := by
    obtain ⟨e', he', hr⟩ := h₁.engine he hb
    obtain ⟨e'', he'', hr'⟩ := h₂.engine he' (hr.busy hb)
    exact ⟨e'', he'', fun hb => hr'.busy (hr.busy hb), hr.machine.trans hr'.machine⟩

/-- **While something goes on with an engine that was free** it may be in any state. -/
theorem around {c : Nat} {e e₁ : Engine} (he : h.engines[c]? = some e) (hfree : e.busy = false)
    (h₁ : Respects (h.putEngine c e₁) h') (e₂ : Engine) : Respects h (h'.putEngine c e₂) where
  engine {c' e'} he' hb := by
    have hc : c ≠ c' := by
      rintro rfl
      rw [he] at he'
      cases he'
      rw [hfree] at hb
      cases hb
    obtain ⟨e'', he'', hr⟩ := h₁.engine ((Array.getElem?_setIfInBounds_ne hc).trans he') hb
    exact ⟨e'', (Array.getElem?_setIfInBounds_ne hc).trans he'', hr⟩

theorem putFree {c : Nat} {e : Engine} (he : h.engines[c]? = some e) (hfree : e.busy = false)
    (e' : Engine) : Respects h (h.putEngine c e') := by
  have hself : Respects (h.putEngine c e) h := by
    rw [putEngine_eq_self he]
    exact .refl h
  exact hself.around he hfree e'

theorem putEngine {c : Nat} {e e' : Engine} (he : h.engines[c]? = some e) (hr : e.Respected e') :
    Respects h (h.putEngine c e') where
  engine {c' e₀} he₀ _ := by
    by_cases hc : c = c'
    · subst hc
      rw [he] at he₀
      cases he₀
      exact ⟨e', engines_putEngine he, hr⟩
    · exact ⟨e₀, (Array.getElem?_setIfInBounds_ne hc).trans he₀, .refl e₀⟩

theorem pushEngine (e : Engine) : Respects h { h with engines := h.engines.push e } where
  engine {c e₀} he₀ _ := by
    have hc : c < h.engines.size := (Array.getElem?_eq_some_iff.mp he₀).1
    refine ⟨e₀, ?_, .refl e₀⟩
    rw [Array.getElem?_push, if_neg (Nat.ne_of_lt hc), he₀]

end Host.Respects

namespace HostM

variable {α β : Type}

/-- The action respects the steps that are being made. -/
class RespectsSteps (x : HostM α) : Prop where
  respects : ∀ h, Host.Respects h (x h).2

theorem RespectsSteps.of_eq {x : HostM α} (hx : ∀ h, (x h).2.engines = h.engines) :
    RespectsSteps x :=
  ⟨fun h => .of_eq (hx h)⟩

/-! ### Actions put together -/

theorem respects_of_bind {x : HostM α} {f : α → HostM β} {h : Host}
    (hx : Host.Respects h (x h).2)
    (hf : ∀ a h', x h = (.ok a, h') → Host.Respects h' (f a h').2) :
    Host.Respects h ((x >>= f) h).2 := by
  rw [bind_apply]
  rcases hr : x h with ⟨_ | a, h'⟩ <;> rw [hr] at hx
  · exact hx
  · exact hx.trans (hf a h' hr)

instance respects_bind {x : HostM α} {f : α → HostM β} [hx : RespectsSteps x]
    [hf : ∀ a, RespectsSteps (f a)] : RespectsSteps (x >>= f) where
  respects h := respects_of_bind (hx.respects h) fun a h' _ => (hf a).respects h'

theorem respects_then {x : HostM α} {f : α → HostM β} [RespectsSteps x]
    (hf : ∀ a, RespectsSteps (f a)) : RespectsSteps (x >>= f) :=
  inferInstance

instance respects_ite {p : Prop} [Decidable p] {x y : HostM α} [hx : RespectsSteps x]
    [hy : RespectsSteps y] : RespectsSteps (if p then x else y) := by
  split
  · exact hx
  · exact hy

instance respects_attempt {x : HostM α} [hx : RespectsSteps x] : RespectsSteps (attempt x) where
  respects h := hx.respects h

instance respects_forM {f : α → HostM Unit} [hf : ∀ a, RespectsSteps (f a)] (a? : Option α) :
    RespectsSteps (a?.forM f) := by
  cases a? with
  | none => exact .of_eq fun _ => rfl
  | some a => exact hf a

instance respects_pure (a : α) : RespectsSteps (pure a : HostM α) :=
  .of_eq fun _ => rfl

instance respects_throw (r : Refusal) : RespectsSteps (throw r : HostM α) :=
  .of_eq fun _ => rfl

theorem respects_guard {p : Prop} [Decidable p] {r : Refusal} {x : HostM α}
    (hx : RespectsSteps x) : RespectsSteps (if p then (do throw r; x) else x) :=
  inferInstance

instance respects_get : RespectsSteps (get : HostM Host) :=
  .of_eq fun _ => rfl

instance respects_ofExcept (x : Except Refusal α) : RespectsSteps (ofExcept x) :=
  .of_eq fun h => by rw [ofExcept_apply]

instance respects_ofConversion (x : Except Binary64.ConversionError α) :
    RespectsSteps (ofConversion x) :=
  respects_ofExcept _

instance respects_ofMemory (x : Except OutOfRange α) : RespectsSteps (ofMemory x) :=
  respects_ofExcept _

instance respects_required (r : Refusal) (a? : Option α) : RespectsSteps (required r a?) := by
  cases a? with
  | none => exact respects_throw r
  | some a => exact respects_pure a

/-! ### Parts of a host -/

theorem respects_modify {f : Host → Host} (hf : ∀ h, (f h).engines = h.engines) :
    RespectsSteps (modify f : HostM Unit) :=
  .of_eq hf

section Parts

variable (c k n p s : Nat)

instance respects_engine : RespectsSteps (engine c) := by
  unfold engine
  infer_instance

instance respects_machine : RespectsSteps (machine c) := by
  unfold machine
  infer_instance

instance respects_addEngine (e : Engine) : RespectsSteps (addEngine e) :=
  ⟨fun _ => .pushEngine e⟩

instance respects_currentEngine : RespectsSteps currentEngine := by
  unfold currentEngine
  infer_instance

instance respects_setCurrent : RespectsSteps (setCurrent c) :=
  respects_modify fun _ => rfl

instance respects_handle : RespectsSteps (handle n) := by
  unfold handle
  infer_instance

instance respects_addHandle (x : Handle) : RespectsSteps (addHandle x) :=
  .of_eq fun _ => rfl

instance respects_currentSession : RespectsSteps currentSession := by
  unfold currentSession
  infer_instance

instance respects_sessionAt : RespectsSteps (sessionAt s) := by
  unfold sessionAt
  infer_instance

instance respects_modifySession (f : Session → Session) : RespectsSteps (modifySession s f) :=
  respects_modify fun _ => rfl

instance respects_isCurrent (x : Handle) : RespectsSteps (isCurrent x) :=
  .of_eq fun h => by rw [isCurrent_unchanged]

instance respects_pacerAt : RespectsSteps (pacerAt p) := by
  unfold pacerAt
  infer_instance

instance respects_modifyPacer (f : Pacer → Pacer) : RespectsSteps (modifyPacer p f) :=
  respects_modify fun _ => rfl

instance respects_currentPacer : RespectsSteps currentPacer := by
  unfold currentPacer
  infer_instance

instance respects_readClock : RespectsSteps (readClock k) := by
  unfold readClock
  have : RespectsSteps (modify fun h => { h with clocks := h.clocks.modify k Clock.read }) :=
    respects_modify fun _ => rfl
  infer_instance

instance respects_currentClock : RespectsSteps currentClock := by
  unfold currentClock
  infer_instance

instance respects_now : RespectsSteps now := by
  unfold now
  infer_instance

instance respects_readWall (wall : WallClock) (number : Nat) :
    RespectsSteps (readWall wall number) := by
  unfold readWall
  infer_instance

instance respects_advanceClock (ns : Int) : RespectsSteps (advanceClock ns) := by
  unfold advanceClock
  have (k : Nat) : RespectsSteps (modify fun h =>
      { h with clocks := h.clocks.modify k fun clock => clock.advance ns }) :=
    respects_modify fun _ => rfl
  infer_instance

instance respects_note (m : Note) : RespectsSteps (note m) :=
  respects_modify fun _ => rfl

instance respects_log (line : LogLine) : RespectsSteps (log line) :=
  respects_modify fun _ => rfl

instance respects_logAll (lines : List LogLine) : RespectsSteps (logAll lines) :=
  .of_eq fun h => by
    rw [logAll_apply]
    rfl

end Parts

/-! ### Changes of engines -/

theorem respects_of_modifyEngine {c : Nat} {f : Engine → Engine} {h : Host}
    (hf : ∀ e, h.engines[c]? = some e → e.Respected (f e)) :
    Host.Respects h (modifyEngine c f h).2 := by
  cases he : h.engines[c]? with
  | none =>
    rw [modifyEngine_of_eq_none he]
    exact .refl h
  | some e =>
    rw [modifyEngine_apply he]
    exact .putEngine he (hf e he)

theorem respects_modifyEngine (c : Nat) {f : Engine → Engine}
    (hf : ∀ e : Engine, e.Respected (f e)) : RespectsSteps (modifyEngine c f) :=
  ⟨fun _ => respects_of_modifyEngine fun e _ => hf e⟩

theorem respects_modifyMachine (c : Nat) {f : Machine → Machine}
    (hf : ∀ m : Machine, m.Written (f m)) : RespectsSteps (modifyMachine c f) :=
  respects_modifyEngine c fun e => ⟨id, hf e.machine⟩

theorem respects_engine_bind (c : Nat) {f : Engine → HostM α}
    (hf : ∀ h e, h.engines[c]? = some e → Host.Respects h (f e h).2) :
    RespectsSteps (engine c >>= f) where
  respects h := by
    cases he : h.engines[c]? with
    | none =>
      rw [bind_of_error (engine_of_eq_none he)]
      exact .refl h
    | some e =>
      rw [bind_of_ok (engine_apply he)]
      exact hf h e he

theorem respects_ofExcept_bind {x : Except Refusal α} {f : α → HostM β} {h : Host}
    (hf : ∀ a, x = .ok a → Host.Respects h (f a h).2) :
    Host.Respects h ((HostM.ofExcept x >>= f) h).2 := by
  refine respects_of_bind ((respects_ofExcept x).respects h) fun a h' hx => ?_
  rw [ofExcept_apply] at hx
  cases hx
  exact hf a rfl

/-- **An action that has an engine for itself** is refused where the engine is busy. -/
instance respects_exclusive (c : Nat) (activity : Activity) (x : HostM α)
    [hx : RespectsSteps x] : RespectsSteps (exclusive c activity x) where
  respects h := by
    cases he : h.engines[c]? with
    | none =>
      rw [exclusive_of_eq_none he]
      exact .refl h
    | some e =>
      cases hb : e.busy with
      | true =>
        rw [exclusive_of_busy he hb]
        exact .refl h
      | false =>
        have hinner := hx.respects (h.putEngine c (e.marked true))
        have hmarked : (h.putEngine c (e.marked true)).engines[c]? = some (e.marked true) :=
          Host.engines_putEngine he
        obtain ⟨e', he', -⟩ := hinner.engine hmarked rfl
        rw [exclusive_of_free he hb, modifyEngine_apply he']
        exact hinner.around he hb _

/-! ### Calls on engines -/

section Engines

variable (perform : Request → HostM Reply) [∀ r, RespectsSteps (perform r)] (c : Nat)

instance respects_retire : RespectsSteps (retire c) :=
  respects_modifyEngine c fun _ => ⟨id, .refl _⟩

instance respects_drawByte : RespectsSteps (drawByte perform c) := by
  have (draw? : Option (Draw Request)) : RespectsSteps (byteOf perform draw?) := by
    rcases draw? with _ | ⟨_ | r, value⟩ <;> unfold byteOf <;> dsimp only <;> infer_instance
  have : RespectsSteps (modifyEngine c fun e => { e with source := e.source.advance }) :=
    respects_modifyEngine c fun _ => ⟨id, .refl _⟩
  rw [drawByte_eq]
  infer_instance

/-- **A step** is refused where its engine is busy.  While it waits for a number, its engine is
busy, and what is requested then respects it. -/
instance respects_stepEngine : RespectsSteps (stepEngine perform c) where
  respects h := by
    cases he : h.engines[c]? with
    | none =>
      rw [stepEngine_of_eq_none he]
      exact .refl h
    | some e =>
      rcases stepEngine_cases he with ⟨r, -, hr⟩ | ⟨hs, hfree, halone | ⟨hrun, -, m₁, x, mask, ha⟩⟩
      · rw [hr]
        exact .refl h
      · rw [halone]
        exact (Host.Respects.putFree he hfree _).trans (.of_eq rfl)
      · have hlines : Host.Respects (h.putEngine c e.opened)
            ((h.putEngine c e.opened).addLines e.fetchLines) := .of_eq rfl
        have hinner := hlines.trans (RespectsSteps.respects (x := drawByte perform c) _)
        obtain ⟨e', he', -⟩ := hinner.engine (Host.engines_putEngine he) rfl
        rw [stepEngine_of_drawing he hs hfree hrun ha rfl he']
        exact (hinner.around he hfree _).trans (.of_eq rfl)

/-- **A tick** is refused where the engine is busy. -/
instance respects_tickEngine : RespectsSteps (tickEngine c) where
  respects h := by
    cases he : h.engines[c]? with
    | none =>
      rw [tickEngine, exclusive_of_eq_none he]
      exact .refl h
    | some e =>
      cases hb : e.busy with
      | true =>
        rw [tickEngine, exclusive_of_busy he hb]
        exact .refl h
      | false =>
        rw [tickEngine_apply he hb]
        exact .putFree he hb _

instance respects_tickTimes (n : Nat) : RespectsSteps (tickTimes c n) := by
  induction n with
  | zero => exact respects_pure ()
  | succ n ih =>
    unfold tickTimes
    infer_instance

instance respects_stepTimes (n : Nat) : RespectsSteps (stepTimes perform c n) := by
  induction n with
  | zero => exact respects_pure _
  | succ n ih =>
    unfold stepTimes
    infer_instance

instance respects_executeUpTo (done : Nat) (last : Option Status) (n : Nat) :
    RespectsSteps (executeUpTo perform c done last n) := by
  induction n generalizing done last with
  | zero => exact respects_pure _
  | succ n ih =>
    unfold executeUpTo
    infer_instance

instance respects_setKey (code : Int) (down : Bool) : RespectsSteps (setKey c code down) := by
  unfold setKey
  have (key : Key) : RespectsSteps (modifyMachine c fun m =>
      { m with keypad := m.keypad.set key down }) :=
    respects_modifyMachine c fun _ => rfl
  infer_instance

instance respects_readScreen : RespectsSteps (readScreen c) := by
  unfold readScreen
  infer_instance

instance respects_loadRom (data : List UInt8) (name : String) :
    RespectsSteps (loadRom c data name) := by
  rw [loadRom_eq]
  refine respects_engine_bind c fun h e he => respects_ofExcept_bind fun e' hload => ?_
  obtain ⟨memory, rfl⟩ := Engine.load_eq_ok hload
  refine respects_of_bind ?_ fun _ h' _ => RespectsSteps.respects h'
  rw [modifyEngine_apply he]
  exact .putEngine he ⟨id, rfl⟩

instance respects_readRomFile (path : String) : RespectsSteps (readRomFile path) := by
  unfold readRomFile
  dsimp only
  infer_instance

/-- A change of the image only. -/
instance respects_setRom (rom : Option Cartridge) :
    RespectsSteps (modifyEngine c fun e => { e with rom }) :=
  respects_modifyEngine c fun _ => ⟨id, .refl _⟩

instance respects_loadRomFile (path : String) : RespectsSteps (loadRomFile c path) := by
  unfold loadRomFile
  infer_instance

instance respects_startEngine : RespectsSteps (startEngine c) := by
  rw [startEngine_eq]
  refine respects_engine_bind c fun h e he => respects_ofExcept_bind fun e' hstart => ?_
  rw [Engine.start_eq_ok hstart]
  refine respects_of_bind ?_ fun _ h' _ => RespectsSteps.respects h'
  rw [modifyEngine_apply he]
  exact .putEngine he ⟨id, .refl _⟩

instance respects_stepHandle (x : Handle) : RespectsSteps (stepHandle perform x) := by
  unfold stepHandle
  dsimp only
  infer_instance

instance respects_tickHandle (x : Handle) : RespectsSteps (tickHandle x) := by
  unfold tickHandle
  infer_instance

end Engines

/-! ### Calls on sessions -/

section Sessions

variable (s : Nat)

instance respects_reload (data : List UInt8) (name : String) :
    RespectsSteps (reload s data name) := by
  rw [reload_eq]
  refine respects_then fun session => respects_then fun e => respects_then fun _ => ?_
  infer_instance

instance respects_reloadFile (path : String) : RespectsSteps (reloadFile s path) := by
  unfold reloadFile
  infer_instance

instance respects_reloadOrReport (path : String) : RespectsSteps (reloadOrReport s path) := by
  unfold reloadOrReport
  refine respects_then fun outcome => ?_
  rcases outcome with r | ⟨c, rom⟩ <;> dsimp only <;> infer_instance

instance respects_startSession : RespectsSteps (startSession s) := by
  unfold startSession
  infer_instance

end Sessions

/-! ### Calls on pacers -/

section Pacers

variable (perform : Request → HostM Reply) [∀ r, RespectsSteps (perform r)] (p : Nat)

instance respects_performAll (requests : List Request) :
    RespectsSteps (performAll perform requests) := by
  induction requests with
  | nil => exact respects_pure ()
  | cons r rest ih =>
    unfold performAll
    infer_instance

instance respects_showFrame (script : Script Request) (count : Nat) :
    RespectsSteps (showFrame perform script count) := by
  unfold showFrame
  have : RespectsSteps (modify fun h => { h with frames := h.frames + 1 }) :=
    respects_modify fun _ => rfl
  infer_instance

instance respects_rebase : RespectsSteps (rebase p) := by
  unfold rebase
  infer_instance

instance respects_fire (cue : Cue) : RespectsSteps (fire perform p cue) := by
  cases cue with
  | showFrame =>
    refine respects_then fun q => ?_
    cases q.frames <;> infer_instance
  | _ =>
    unfold fire
    infer_instance

instance respects_fireAll (events : List (Event Cue)) :
    RespectsSteps (fireAll perform p events) := by
  induction events with
  | nil => exact respects_pure ()
  | cons e rest ih =>
    unfold fireAll
    infer_instance

instance respects_settle : RespectsSteps (settle perform p) := by
  unfold settle
  dsimp only
  infer_instance

instance respects_cueNow (cue : Cue) : RespectsSteps (cueNow perform p cue) := by
  unfold cueNow
  infer_instance

instance respects_stepsUpTo (n : Nat) : RespectsSteps (stepsUpTo perform p n) := by
  induction n with
  | zero => exact respects_pure ()
  | succ n ih =>
    unfold stepsUpTo
    refine respects_then fun _ => respects_then fun q => ?_
    infer_instance

instance respects_runSteps (count : Int) : RespectsSteps (runSteps perform p count) := by
  unfold runSteps
  infer_instance

instance respects_instructionsDue : RespectsSteps (instructionsDue p) := by
  unfold instructionsDue
  infer_instance

instance respects_powerOn : RespectsSteps (powerOn p) := by
  unfold powerOn
  infer_instance

instance respects_powerOff : RespectsSteps (powerOff perform p) := by
  unfold powerOff
  infer_instance

instance respects_pause : RespectsSteps (pause perform p) := by
  unfold pause
  infer_instance

instance respects_resume : RespectsSteps (resume perform p) := by
  unfold resume
  infer_instance

instance respects_updateIntervals : RespectsSteps (updateIntervals p) := by
  unfold updateIntervals
  infer_instance

instance respects_setRate (rate : Float) : RespectsSteps (setRate p rate) := by
  refine respects_guard (respects_then fun _ => respects_then fun _ => ?_)
  infer_instance

instance respects_newPacer (handle : Handle) (rate timerFrequency refresh : Float)
    (frames : Option (Script Request)) (clock : Nat) :
    RespectsSteps (newPacer handle rate timerFrequency refresh frames clock) := by
  unfold newPacer
  refine respects_guard (respects_guard (respects_guard ?_))
  have (q : Pacer) : RespectsSteps (modifyGet fun h =>
      (h.pacers.size, { h with pacers := h.pacers.push q })) := .of_eq fun _ => rfl
  dsimp only
  infer_instance

instance respects_rates : RespectsSteps (rates p) := by
  unfold rates
  infer_instance

instance respects_sleep (sleeps : Sleeps) (number : Nat) (duration : Float) :
    RespectsSteps (sleep perform sleeps number duration) :=
  respects_guard inferInstance

instance respects_dueNow : RespectsSteps (dueNow p) := by
  unfold dueNow
  infer_instance

instance respects_pacedReply (slept : Nat) (last : Float) :
    RespectsSteps (pacedReply p slept last) := by
  unfold pacedReply
  infer_instance

instance respects_ensureOn : RespectsSteps (ensureOn p) := by
  unfold ensureOn
  infer_instance

instance respects_runRounds (maxBatch : Int) (sleeps : Sleeps) (slept : Nat) (last : Float)
    (n : Nat) : RespectsSteps (runRounds perform p maxBatch sleeps slept last n) := by
  induction n generalizing slept last with
  | zero => exact respects_throw _
  | succ n ih =>
    unfold runRounds
    infer_instance

instance respects_run (maxBatch : Int) (sleeps : Sleeps) :
    RespectsSteps (run perform p maxBatch sleeps) := by
  unfold run
  infer_instance

instance respects_runForRounds (wall : WallClock) (deadline : Float) (maxBatch : Int)
    (sleeps : Sleeps) (reads slept : Nat) (last : Float) (n : Nat) :
    RespectsSteps (runForRounds perform p wall deadline maxBatch sleeps reads slept last n) := by
  induction n generalizing reads slept last with
  | zero => exact respects_throw _
  | succ n ih =>
    unfold runForRounds
    infer_instance

instance respects_runFor (wall : WallClock) (seconds : Float) (maxBatch : Int) (sleeps : Sleeps) :
    RespectsSteps (runFor perform p wall seconds maxBatch sleeps) := by
  unfold runFor
  infer_instance

end Pacers

/-! ### Requests -/

section Requests

variable (perform : Request → HostM Reply) [∀ r, RespectsSteps (perform r)] (c : Nat)

instance respects_handleReply (n : Nat) : RespectsSteps (handleReply n) := by
  unfold handleReply
  infer_instance

instance respects_dialectOf (names : List String) : RespectsSteps (dialectOf names) := by
  unfold dialectOf
  infer_instance

instance respects_setRegisters (v : List (Register × Int)) (index counter flag : Option Int) :
    RespectsSteps (setRegisters c v index counter flag) := by
  unfold setRegisters
  have hv : RespectsSteps (modifyMachine c fun m =>
      v.foldl (fun m (x, value) => m.setV x value) m) :=
    respects_modifyMachine c (Machine.Written.foldl_setV v)
  have hx (a : Int) : RespectsSteps (modifyMachine c fun m => m.setIndex a) :=
    respects_modifyMachine c fun _ => rfl
  have hc (a : Int) : RespectsSteps (modifyMachine c fun m => m.setCounter a) :=
    respects_modifyMachine c fun _ => rfl
  have hf (value : Int) : RespectsSteps (modifyMachine c fun m =>
      m.setV flagRegister (value % 0x100)) :=
    respects_modifyMachine c fun _ => rfl
  cases flag <;> infer_instance

instance respects_peek (address count : Int) : RespectsSteps (peek c address count) :=
  respects_guard inferInstance

instance respects_writeBlock (address : Int) (data : List UInt8) :
    RespectsSteps (writeBlock c address data) := by
  unfold writeBlock
  have (memory : Ram) : RespectsSteps (modifyMachine c fun m => { m with memory }) :=
    respects_modifyMachine c fun _ => rfl
  infer_instance

instance respects_poke (address : Int) (data : List UInt8) :
    RespectsSteps (poke c address data) := by
  unfold poke
  infer_instance

instance respects_programByte (index : Int) : RespectsSteps (programByte c index) := by
  refine respects_guard (respects_then (fun e => ?_))
  dsimp only
  infer_instance

/-- **Every request respects steps**, if those in the middle of it do. -/
instance respects_respond (r : Request) : RespectsSteps (respond perform r) := by
  cases r with
  | newSession names draws =>
    rw [respond]
    have (dialect : Dialect) : RespectsSteps (modify fun h =>
        { h with
          sessions := h.sessions.push ⟨dialect, draws, 0, none⟩
          session := some h.sessions.size }) := respects_modify fun _ => rfl
    infer_instance
  | trace on =>
    rw [respond]
    have (c : Nat) : RespectsSteps (modifyEngine c fun e => { e with tracing := on }) :=
      respects_modifyEngine c fun _ => ⟨id, .refl _⟩
    infer_instance
  | traceMemory on =>
    rw [respond]
    have (c : Nat) : RespectsSteps (modifyEngine c fun e => { e with tracingMemory := on }) :=
      respects_modifyEngine c fun _ => ⟨id, .refl _⟩
    infer_instance
  | releaseAll =>
    rw [respond]
    have (c : Nat) : RespectsSteps (modifyMachine c fun m =>
        { m with keypad := m.keypad.releaseAll }) :=
      respects_modifyMachine c fun _ => rfl
    infer_instance
  | hostKey number down =>
    rw [respond]
    cases Keyboard.key? number <;> dsimp only <;> infer_instance
  | newPacer n rate timerFrequency refresh frames clock =>
    rw [respond]
    have : RespectsSteps (modifyGet fun h =>
        (h.clocks.size,
          { h with clocks := h.clocks.push clock, clock := some h.clocks.size, frames := 0 })) :=
      .of_eq fun _ => rfl
    have (p : Nat) : RespectsSteps (modify fun h => { h with pacer := some p }) :=
      respects_modify fun _ => rfl
    infer_instance
  | _ =>
    unfold respond
    infer_instance

instance respects_performWithin (depth : Nat) (r : Request) :
    RespectsSteps (performWithin depth r) := by
  induction depth generalizing r with
  | zero => exact respects_throw _
  | succ depth ih => exact respects_respond (performWithin depth) r

end Requests

end HostM

end Chip8
