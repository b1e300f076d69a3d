import Chip8.Proofs.Engine.Load

/-!
# Actions that need no engine for themselves

An action is `Unblocked` if it is never refused because an engine is busy.  The
class is closed under everything that actions are put together with, and all
actions are in it but for calls that want an engine for themselves, and what is
put together from such calls and from requests.

* `busy_of_load`: where a load is refused because its engine is busy.
* `unblocked_reload`: a reload loads into a new engine, which is free.
-/

namespace Chip8

namespace HostM

variable {α β : Type}

/-- The action is never refused because an engine is busy. -/
class Unblocked (x : HostM α) : Prop where
  not_busy : ∀ h a, (x h).1 ≠ .error (.busy a)

theorem unblocked_throw {r : Refusal} (hr : ∀ a, r ≠ .busy a) :
    Unblocked (throw r : HostM α) where
  not_busy h a hx := by
    have hsame : (.error r : Except Refusal α) = .error (.busy a) := hx
    cases hsame
    exact hr a rfl

instance unblocked_pure (a : α) : Unblocked (pure a : HostM α) where
  not_busy _ _ hx := by cases hx

instance unblocked_bind {x : HostM α} {f : α → HostM β} [hx : Unblocked x]
    [hf : ∀ a, Unblocked (f a)] : Unblocked (x >>= f) where
  not_busy h activity hbusy := by
    rw [bind_apply] at hbusy
    rcases hr : x h with ⟨r | a, h'⟩ <;> rw [hr] at hbusy
    · cases hbusy
      exact hx.not_busy h activity (congrArg Prod.fst hr)
    · exact (hf a).not_busy h' activity hbusy

theorem unblocked_then {x : HostM α} {f : α → HostM β} [Unblocked x]
    (hf : ∀ a, Unblocked (f a)) : Unblocked (x >>= f) :=
  inferInstance

instance unblocked_ite {p : Prop} [Decidable p] {x y : HostM α} [hx : Unblocked x]
    [hy : Unblocked y] : Unblocked (if p then x else y) := by
  split
  · exact hx
  · exact hy

theorem unblocked_guard {p : Prop} [Decidable p] {r : Refusal} {x : HostM α}
    (hr : ∀ a, r ≠ .busy a) (hx : Unblocked x) : Unblocked (if p then (do throw r; x) else x) :=
  have : Unblocked (throw r : HostM PUnit) := unblocked_throw hr
  inferInstance

instance unblocked_forM {f : α → HostM Unit} [hf : ∀ a, Unblocked (f a)] (a? : Option α) :
    Unblocked (a?.forM f) := by
  cases a? with
  | none => exact ⟨fun _ _ hx => by cases hx⟩
  | some a => exact hf a

instance unblocked_get : Unblocked (get : HostM Host) where
  not_busy _ _ hx := by cases hx

instance unblocked_modify (f : Host → Host) : Unblocked (modify f : HostM Unit) where
  not_busy _ _ hx := by cases hx

instance unblocked_modifyGet (f : Host → α × Host) : Unblocked (modifyGet f : HostM α) where
  not_busy _ _ hx := by cases hx

instance unblocked_modifyEngine (c : Nat) (f : Engine → Engine) : Unblocked (modifyEngine c f) :=
  unblocked_modify _

instance unblocked_modifyMachine (c : Nat) (f : Machine → Machine) :
    Unblocked (modifyMachine c f) :=
  unblocked_modifyEngine c _

instance unblocked_modifyPacer (p : Nat) (f : Pacer → Pacer) : Unblocked (modifyPacer p f) :=
  unblocked_modify _

instance unblocked_retire (c : Nat) : Unblocked (retire c) :=
  unblocked_modifyEngine c _

instance unblocked_note (n : Note) : Unblocked (note n) :=
  unblocked_modify _

instance unblocked_log (line : LogLine) : Unblocked (log line) :=
  unblocked_modify _

instance unblocked_setCurrent (c : Nat) : Unblocked (setCurrent c) :=
  unblocked_modify _

instance unblocked_addEngine (e : Engine) : Unblocked (addEngine e) :=
  unblocked_modifyGet _

instance unblocked_addHandle (x : Handle) : Unblocked (addHandle x) :=
  unblocked_modifyGet _

instance unblocked_logAll (lines : List LogLine) : Unblocked (logAll lines) where
  not_busy h a hx := by
    rw [logAll_apply] at hx
    cases hx

theorem unblocked_ofExcept {x : Except Refusal α} (hx : ∀ a, x ≠ .error (.busy a)) :
    Unblocked (ofExcept x) where
  not_busy h a hbusy := by
    rw [ofExcept_apply] at hbusy
    exact hx a hbusy

instance unblocked_ofConversion (x : Except Binary64.ConversionError α) :
    Unblocked (ofConversion x) := by
  refine unblocked_ofExcept fun a hx => ?_
  cases x <;> cases hx

instance unblocked_ofMemory (x : Except OutOfRange α) : Unblocked (ofMemory x) := by
  refine unblocked_ofExcept fun a hx => ?_
  cases x <;> cases hx

theorem unblocked_required {r : Refusal} (hr : ∀ a, r ≠ .busy a) (a? : Option α) :
    Unblocked (required r a?) := by
  cases a? with
  | none => exact unblocked_throw hr
  | some a => exact unblocked_pure a

section Readings

variable (c n p s : Nat)

instance unblocked_engine : Unblocked (engine c) :=
  unblocked_then fun _ => unblocked_required (by simp) _

instance unblocked_machine : Unblocked (machine c) := by
  unfold machine
  infer_instance

instance unblocked_currentEngine : Unblocked currentEngine :=
  unblocked_then fun _ => unblocked_required (by simp) _

instance unblocked_handle : Unblocked (handle n) :=
  unblocked_then fun _ => unblocked_required (by simp) _

instance unblocked_currentSession : Unblocked currentSession :=
  unblocked_then fun _ => unblocked_required (by simp) _

instance unblocked_sessionAt : Unblocked (sessionAt s) :=
  unblocked_then fun _ => unblocked_required (by simp) _

instance unblocked_isCurrent (x : Handle) : Unblocked (isCurrent x) := by
  unfold isCurrent
  refine unblocked_then fun e => ?_
  have howner : Unblocked (match e.owner with
      | none => pure (x.generation == e.generation)
      | some s => do return x.generation == ((← sessionAt s).generation : Int)) := by
    cases e.owner <;> infer_instance
  infer_instance

instance unblocked_pacerAt : Unblocked (pacerAt p) :=
  unblocked_then fun _ => unblocked_required (by simp) _

instance unblocked_currentPacer : Unblocked currentPacer :=
  unblocked_then fun _ => unblocked_required (by simp) _

instance unblocked_readClock (k : Nat) : Unblocked (readClock k) :=
  unblocked_then fun _ => unblocked_then fun _ =>
    have (h : Host) : Unblocked (required .noPacer h.clocks[k]?) :=
      unblocked_required (by simp) _
    inferInstance

instance unblocked_currentClock : Unblocked currentClock :=
  unblocked_then fun _ => unblocked_required (by simp) _

instance unblocked_now : Unblocked now := by
  unfold now
  have (h : Host) (k : Nat) : Unblocked (required .noPacer h.clocks[k]?) :=
    unblocked_required (by simp) _
  infer_instance

instance unblocked_readWall (wall : WallClock) (number : Nat) :
    Unblocked (readWall wall number) := by
  unfold readWall
  infer_instance

instance unblocked_advanceClock (ns : Int) : Unblocked (advanceClock ns) := by
  unfold advanceClock
  infer_instance

instance unblocked_dialectOf (names : List String) : Unblocked (dialectOf names) := by
  refine unblocked_ofExcept fun a hx => ?_
  cases hn : Dialect.ofNames names <;> rw [hn] at hx <;> cases hx

instance unblocked_handleReply : Unblocked (handleReply n) := by
  unfold handleReply
  infer_instance

end Readings

/-! ### Registers and memory -/

section Memory

variable (c : Nat)

instance unblocked_setRegisters (v : List (Register × Int)) (index counter flag : Option Int) :
    Unblocked (setRegisters c v index counter flag) := by
  unfold setRegisters
  cases flag <;> infer_instance

instance unblocked_peek (address count : Int) : Unblocked (peek c address count) := by
  unfold peek
  exact unblocked_guard (by simp) inferInstance

instance unblocked_writeBlock (address : Int) (data : List UInt8) :
    Unblocked (writeBlock c address data) := by
  unfold writeBlock
  infer_instance

instance unblocked_poke (address : Int) (data : List UInt8) : Unblocked (poke c address data) := by
  unfold poke
  infer_instance

instance unblocked_programByte (index : Int) : Unblocked (programByte c index) := by
  unfold programByte
  exact unblocked_guard (by simp) inferInstance

end Memory

/-! ### Engines and sessions -/

theorem check_ne_busy {data : List UInt8} (a : Activity) :
    Cartridge.check data ≠ .error (.busy a) := by
  intro hbusy
  rw [Cartridge.check] at hbusy
  split at hbusy
  · cases hbusy
  · split at hbusy <;> cases hbusy

theorem busy_of_load {e : Engine} {data : List UInt8} {name : String} {a : Activity}
    (hl : e.load data name = .error (.busy a)) : e.busy = true := by
  rw [Engine.load] at hl
  split at hl
  · cases hl
  · split at hl
    · next r hc =>
      cases hl
      exact absurd hc (check_ne_busy a)
    · split at hl
      · next hb => exact hb
      · split at hl <;> cases hl

instance unblocked_readRomFile (path : String) : Unblocked (readRomFile path) := by
  have hdata (path : String) (data? : Option (List UInt8)) :
      Unblocked (required (.missingRom path) data?) := unblocked_required (by simp) _
  have hcheck (data : List UInt8) : Unblocked (ofExcept (Cartridge.check data)) :=
    unblocked_ofExcept check_ne_busy
  unfold readRomFile
  dsimp only
  infer_instance

instance unblocked_startEngine (c : Nat) : Unblocked (startEngine c) := by
  have (e : Engine) : Unblocked (ofExcept e.start) := by
    refine unblocked_ofExcept fun a hbusy => ?_
    rw [Engine.start] at hbusy
    split at hbusy
    · cases hbusy
    · split at hbusy <;> cases hbusy
  rw [startEngine_eq]
  infer_instance

instance unblocked_reload (s : Nat) (data : List UInt8) (name : String) :
    Unblocked (reload s data name) := by
  have (session : Session) (generation : Nat) : Unblocked (ofExcept
      ((Engine.fresh session.dialect session.draws (some s) generation).load data name)) :=
    unblocked_ofExcept fun a hbusy => Bool.false_ne_true (busy_of_load hbusy)
  have (c? : Option Nat) : Unblocked (c?.forM retire) := inferInstance
  have (f : Session → Session) : Unblocked (modifySession s f) := unblocked_modify _
  rw [reload_eq]
  infer_instance

instance unblocked_reloadFile (s : Nat) (path : String) : Unblocked (reloadFile s path) := by
  unfold reloadFile
  infer_instance

instance unblocked_reloadOrReport (s : Nat) (path : String) :
    Unblocked (reloadOrReport s path) where
  not_busy h a hbusy := by
    rw [reloadOrReport, bind_of_ok (attempt_apply _ _)] at hbusy
    have hreload := (unblocked_reloadFile s path).not_busy h
    rcases hr : reloadFile s path h with ⟨r | ⟨c, rom⟩, h'⟩ <;> rw [hr] at hbusy hreload
    · dsimp only at hbusy
      split at hbusy
      · cases hbusy
      · cases hbusy
        exact hreload a rfl
    · cases hbusy

instance unblocked_startSession (s : Nat) : Unblocked (startSession s) := by
  have (c? : Option Nat) : Unblocked (required .emptySession c?) :=
    unblocked_required (by simp) _
  unfold startSession
  infer_instance

/-! ### Pacers -/

section Pacers

variable (p : Nat)

instance unblocked_rebase : Unblocked (rebase p) := by
  unfold rebase
  infer_instance

instance unblocked_instructionsDue : Unblocked (instructionsDue p) := by
  unfold instructionsDue
  infer_instance

instance unblocked_powerOn : Unblocked (powerOn p) := by
  unfold powerOn
  infer_instance

instance unblocked_dueNow : Unblocked (dueNow p) := by
  unfold dueNow
  infer_instance

instance unblocked_pacedReply (slept : Nat) (last : Float) :
    Unblocked (pacedReply p slept last) := by
  unfold pacedReply
  infer_instance

instance unblocked_ensureOn : Unblocked (ensureOn p) := by
  unfold ensureOn
  infer_instance

instance unblocked_updateIntervals : Unblocked (updateIntervals p) := by
  unfold updateIntervals
  infer_instance

instance unblocked_setRate (rate : Float) : Unblocked (setRate p rate) := by
  unfold setRate
  exact unblocked_guard (by simp) inferInstance

instance unblocked_rates : Unblocked (rates p) := by
  unfold rates
  infer_instance

instance unblocked_newPacer (x : Handle) (rate timerFrequency refresh : Float)
    (frames : Option (Script Request)) (clock : Nat) :
    Unblocked (newPacer x rate timerFrequency refresh frames clock) := by
  unfold newPacer
  exact unblocked_guard (by simp) (unblocked_guard (by simp)
    (unblocked_guard (by simp) inferInstance))

end Pacers

end HostM

end Chip8
