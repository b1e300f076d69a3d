import Chip8.Proofs.Engine.Load

/-!
# Actions and the pacers of a host

Most of what a host does is none of its pacers' business.  `KeepsPacers` is a
class of actions that keep a property of the pacers, whatever else they change.
An action that leaves the pacers alone keeps every property, and one in the
middle of which requests are made keeps what these requests keep.

* `keepsPacers_stepHandle`: steps, with the requests in the middle of them.
* `keepsPacers_respond`: requests that are about neither steps nor pacers.
-/

namespace Chip8

/-- Whether a request neither makes steps nor creates or drives a pacer. -/
def Request.isQuiet : Request → Bool
  | step _ | execute _ | stepHandle _ => false
  | newPacer .. | powerOn | powerOff | pause | resume => false
  | runSteps _ | setRate _ | runFor .. | run .. => false
  | _ => true

namespace HostM

variable {α β : Type} (P : Array Pacer → Prop)

/-- The action keeps a property of the pacers. -/
class KeepsPacers (x : HostM α) : Prop where
  keeps : ∀ h, P h.pacers → P (x h).2.pacers

variable {P}

theorem KeepsPacers.of_pacers_eq {x : HostM α} (hx : ∀ h, (x h).2.pacers = h.pacers) :
    KeepsPacers P x where
  keeps h hp := by
    rw [hx]
    exact hp

/-- What keeps every property leaves the pacers alone. -/
theorem pacers_eq_of_keepsPacers (x : HostM α) (h : Host)
    [hx : KeepsPacers (fun qs => qs = h.pacers) x] : (x h).2.pacers = h.pacers :=
  hx.keeps h rfl

/-! ### Actions put together -/

instance keepsPacers_bind {x : HostM α} {f : α → HostM β} [hx : KeepsPacers P x]
    [hf : ∀ a, KeepsPacers P (f a)] : KeepsPacers P (x >>= f) where
  keeps h hp := by
    have hkeeps := hx.keeps h hp
    rw [bind_apply]
    rcases hr : x h with ⟨_ | a, h'⟩ <;> rw [hr] at hkeeps
    · exact hkeeps
    · exact (hf a).keeps h' hkeeps

theorem keepsPacers_then {x : HostM α} {f : α → HostM β} [KeepsPacers P x]
    (hf : ∀ a, KeepsPacers P (f a)) : KeepsPacers P (x >>= f) :=
  inferInstance

instance keepsPacers_ite {p : Prop} [Decidable p] {x y : HostM α} [hx : KeepsPacers P x]
    [hy : KeepsPacers P y] : KeepsPacers P (if p then x else y) := by
  split
  · exact hx
  · exact hy

instance keepsPacers_attempt {x : HostM α} [hx : KeepsPacers P x] :
    KeepsPacers P (attempt x) where
  keeps h := hx.keeps h

instance keepsPacers_pure (a : α) : KeepsPacers P (pure a : HostM α) :=
  .of_pacers_eq fun _ => rfl

instance keepsPacers_throw (r : Refusal) : KeepsPacers P (throw r : HostM α) :=
  .of_pacers_eq fun _ => rfl

theorem keepsPacers_guard {p : Prop} [Decidable p] {r : Refusal} {x : HostM α}
    (hx : KeepsPacers P x) : KeepsPacers P (if p then (do throw r; x) else x) :=
  inferInstance

instance keepsPacers_forM {f : α → HostM Unit} [hf : ∀ a, KeepsPacers P (f a)] (a? : Option α) :
    KeepsPacers P (a?.forM f) := by
  cases a? with
  | none => exact keepsPacers_pure ()
  | some a => exact hf a

instance keepsPacers_get : KeepsPacers P (get : HostM Host) :=
  .of_pacers_eq fun _ => rfl

instance keepsPacers_ofExcept (x : Except Refusal α) : KeepsPacers P (ofExcept x) :=
  .of_pacers_eq fun h => by rw [ofExcept_apply]

instance keepsPacers_ofConversion (x : Except Binary64.ConversionError α) :
    KeepsPacers P (ofConversion x) :=
  keepsPacers_ofExcept _

instance keepsPacers_ofMemory (x : Except OutOfRange α) : KeepsPacers P (ofMemory x) :=
  keepsPacers_ofExcept _

instance keepsPacers_required (r : Refusal) (a? : Option α) : KeepsPacers P (required r a?) := by
  cases a? with
  | none => exact keepsPacers_throw r
  | some a => exact keepsPacers_pure a

/-! ### Parts of a host -/

section Parts

variable (c n p s : Nat)

instance keepsPacers_engine : KeepsPacers P (engine c) := by
  unfold engine
  infer_instance

instance keepsPacers_machine : KeepsPacers P (machine c) := by
  unfold machine
  infer_instance

instance keepsPacers_modifyEngine (f : Engine → Engine) : KeepsPacers P (modifyEngine c f) :=
  .of_pacers_eq fun _ => rfl

instance keepsPacers_modifyMachine (f : Machine → Machine) : KeepsPacers P (modifyMachine c f) :=
  keepsPacers_modifyEngine c _

instance keepsPacers_setMachine (m : Machine) : KeepsPacers P (setMachine c m) :=
  keepsPacers_modifyEngine c _

instance keepsPacers_addEngine (e : Engine) : KeepsPacers P (addEngine e) :=
  .of_pacers_eq fun _ => rfl

instance keepsPacers_currentEngine : KeepsPacers P currentEngine := by
  unfold currentEngine
  infer_instance

instance keepsPacers_setCurrent : KeepsPacers P (setCurrent c) :=
  .of_pacers_eq fun _ => rfl

instance keepsPacers_handle : KeepsPacers P (handle n) := by
  unfold handle
  infer_instance

instance keepsPacers_addHandle (x : Handle) : KeepsPacers P (addHandle x) :=
  .of_pacers_eq fun _ => rfl

instance keepsPacers_currentSession : KeepsPacers P currentSession := by
  unfold currentSession
  infer_instance

instance keepsPacers_sessionAt : KeepsPacers P (sessionAt s) := by
  unfold sessionAt
  infer_instance

instance keepsPacers_modifySession (f : Session → Session) : KeepsPacers P (modifySession s f) :=
  .of_pacers_eq fun _ => rfl

instance keepsPacers_isCurrent (x : Handle) : KeepsPacers P (isCurrent x) :=
  .of_pacers_eq fun h => by rw [isCurrent_unchanged]

instance keepsPacers_pacerAt : KeepsPacers P (pacerAt p) := by
  unfold pacerAt
  infer_instance

instance keepsPacers_currentPacer : KeepsPacers P currentPacer := by
  unfold currentPacer
  infer_instance

instance keepsPacers_readClock (k : Nat) : KeepsPacers P (readClock k) := by
  unfold readClock
  have : KeepsPacers P (modify fun h => { h with clocks := h.clocks.modify k Clock.read }) :=
    .of_pacers_eq fun _ => rfl
  infer_instance

instance keepsPacers_currentClock : KeepsPacers P currentClock := by
  unfold currentClock
  infer_instance

instance keepsPacers_now : KeepsPacers P now := by
  unfold now
  infer_instance

instance keepsPacers_readWall (wall : WallClock) (number : Nat) :
    KeepsPacers P (readWall wall number) := by
  unfold readWall
  infer_instance

instance keepsPacers_advanceClock (ns : Int) : KeepsPacers P (advanceClock ns) := by
  unfold advanceClock
  have (k : Nat) : KeepsPacers P (modify fun h =>
      { h with clocks := h.clocks.modify k fun c => c.advance ns }) :=
    .of_pacers_eq fun _ => rfl
  infer_instance

instance keepsPacers_note (m : Note) : KeepsPacers P (note m) :=
  .of_pacers_eq fun _ => rfl

instance keepsPacers_log (line : LogLine) : KeepsPacers P (log line) :=
  .of_pacers_eq fun _ => rfl

instance keepsPacers_logAll (lines : List LogLine) : KeepsPacers P (logAll lines) :=
  .of_pacers_eq fun h => by rw [logAll_apply]; rfl

end Parts

/-! ### Calls on engines and sessions -/

section Engines

variable (c : Nat)

instance keepsPacers_exclusive (activity : Activity) (x : HostM α) [KeepsPacers P x] :
    KeepsPacers P (exclusive c activity x) := by
  unfold exclusive
  infer_instance

instance keepsPacers_halt (address : Int) (reason : HaltReason) :
    KeepsPacers P (halt c address reason) := by
  unfold halt
  infer_instance

instance keepsPacers_tickEngine : KeepsPacers P (tickEngine c) := by
  unfold tickEngine
  infer_instance

instance keepsPacers_tickTimes (n : Nat) : KeepsPacers P (tickTimes c n) := by
  induction n with
  | zero => exact keepsPacers_pure ()
  | succ n ih =>
    unfold tickTimes
    infer_instance

instance keepsPacers_tickHandle (x : Handle) : KeepsPacers P (tickHandle x) := by
  unfold tickHandle
  infer_instance

instance keepsPacers_setKey (code : Int) (down : Bool) : KeepsPacers P (setKey c code down) := by
  unfold setKey
  infer_instance

instance keepsPacers_readScreen : KeepsPacers P (readScreen c) := by
  unfold readScreen
  infer_instance

instance keepsPacers_writeBlock (address : Int) (data : List UInt8) :
    KeepsPacers P (writeBlock c address data) := by
  unfold writeBlock
  infer_instance

instance keepsPacers_loadRom (data : List UInt8) (name : String) :
    KeepsPacers P (loadRom c data name) := by
  rw [loadRom_eq]
  infer_instance

instance keepsPacers_readRomFile (path : String) : KeepsPacers P (readRomFile path) := by
  unfold readRomFile
  dsimp only
  infer_instance

instance keepsPacers_loadRomFile (path : String) : KeepsPacers P (loadRomFile c path) := by
  unfold loadRomFile
  infer_instance

instance keepsPacers_startEngine : KeepsPacers P (startEngine c) := by
  rw [startEngine_eq]
  infer_instance

instance keepsPacers_retire : KeepsPacers P (retire c) :=
  keepsPacers_modifyEngine c _

instance keepsPacers_reload (s : Nat) (data : List UInt8) (name : String) :
    KeepsPacers P (reload s data name) := by
  rw [reload_eq]
  refine keepsPacers_then fun session => keepsPacers_then fun e => keepsPacers_then fun _ => ?_
  infer_instance

instance keepsPacers_reloadFile (s : Nat) (path : String) : KeepsPacers P (reloadFile s path) := by
  unfold reloadFile
  infer_instance

instance keepsPacers_reloadOrReport (s : Nat) (path : String) :
    KeepsPacers P (reloadOrReport s path) := by
  unfold reloadOrReport
  refine keepsPacers_then fun outcome => ?_
  rcases outcome with r | ⟨c, rom⟩ <;> dsimp only <;> infer_instance

instance keepsPacers_startSession (s : Nat) : KeepsPacers P (startSession s) := by
  unfold startSession
  infer_instance

end Engines

/-! ### Steps -/

section Steps

variable (perform : Request → HostM Reply) [hp : ∀ r, KeepsPacers P (perform r)] (c : Nat)

instance keepsPacers_drawByte : KeepsPacers P (drawByte perform c) := by
  unfold drawByte
  refine keepsPacers_then fun e => keepsPacers_then fun _ => ?_
  rcases e.source.next? with _ | ⟨_ | r, value⟩ <;> dsimp only <;> infer_instance

instance keepsPacers_stepMachine : KeepsPacers P (stepMachine perform c) := by
  unfold stepMachine
  refine keepsPacers_then fun e => ?_
  dsimp only
  cases e.machine.halted with
  | some reason => exact keepsPacers_pure _
  | none =>
    refine keepsPacers_then fun _ => ?_
    cases e.machine.advance with
    | drawing m x mask =>
      refine keepsPacers_then fun _ => keepsPacers_then fun outcome => ?_
      rcases outcome with r | byte
      · cases r <;> dsimp only <;> infer_instance
      · infer_instance
    | _ =>
      dsimp only
      infer_instance

instance keepsPacers_stepEngine : KeepsPacers P (stepEngine perform c) := by
  unfold stepEngine
  infer_instance

instance keepsPacers_stepTimes (n : Nat) : KeepsPacers P (stepTimes perform c n) := by
  induction n with
  | zero => exact keepsPacers_pure _
  | succ n ih =>
    unfold stepTimes
    infer_instance

instance keepsPacers_executeUpTo (done : Nat) (last : Option Status) (n : Nat) :
    KeepsPacers P (executeUpTo perform c done last n) := by
  induction n generalizing done last with
  | zero => exact keepsPacers_pure _
  | succ n ih =>
    unfold executeUpTo
    infer_instance

/-- **Steps keep what the requests in the middle of them keep.** -/
instance keepsPacers_stepHandle (x : Handle) : KeepsPacers P (stepHandle perform x) := by
  unfold stepHandle
  dsimp only
  infer_instance

omit hp in
theorem keepsPacers_performAll {requests : List Request}
    (hrequests : ∀ r ∈ requests, KeepsPacers P (perform r)) :
    KeepsPacers P (performAll perform requests) := by
  induction requests with
  | nil => exact keepsPacers_pure ()
  | cons r rest ih =>
    have hr := hrequests r List.mem_cons_self
    have hrest := ih fun r' hr' => hrequests r' (List.mem_cons_of_mem r hr')
    unfold performAll
    infer_instance

omit hp in
theorem keepsPacers_showFrame {script : Script Request}
    (hscript : ∀ k, ∀ r ∈ script.requests k, KeepsPacers P (perform r)) (count : Nat) :
    KeepsPacers P (showFrame perform script count) := by
  unfold showFrame
  have : KeepsPacers P (modify fun h => { h with frames := h.frames + 1 }) :=
    .of_pacers_eq fun _ => rfl
  have (k : Nat) : KeepsPacers P (performAll perform (script.requests k)) :=
    keepsPacers_performAll perform (hscript k)
  infer_instance

instance keepsPacers_sleep (sleeps : Sleeps) (number : Nat) (duration : Float) :
    KeepsPacers P (sleep perform sleeps number duration) := by
  unfold sleep
  have : KeepsPacers P (performAll perform (sleeps.script.requests number)) :=
    keepsPacers_performAll perform fun r _ => hp r
  infer_instance

end Steps

theorem keepsPacers_rebase {p : Nat}
    (hbase : ∀ base, KeepsPacers P (modifyPacer p fun q => { q with base })) :
    KeepsPacers P (rebase p) := by
  unfold rebase
  infer_instance

/-- All that is done to the pacers where one is created is that it is put behind the others, with
nothing on its schedule. -/
theorem keepsPacers_newPacer {handle : Handle} {rate timerFrequency refresh : Float}
    {frames : Option (Script Request)} {clock : Nat}
    (hpush : ∀ (qs : Array Pacer) (q : Pacer), q.schedule = .empty → q.timerActive = false →
      q.frameActive = false → P qs → P (qs.push q)) :
    KeepsPacers P (newPacer handle rate timerFrequency refresh frames clock) := by
  unfold newPacer
  refine keepsPacers_guard (keepsPacers_guard (keepsPacers_guard ?_))
  refine keepsPacers_then fun _ => keepsPacers_then fun timerInterval => ?_
  refine keepsPacers_then fun frameInterval => keepsPacers_then fun now => ?_
  exact keepsPacers_then fun base => ⟨fun h => hpush h.pacers _ rfl rfl rfl⟩

/-! ### Requests -/

instance keepsPacers_handleReply (n : Nat) : KeepsPacers P (handleReply n) := by
  unfold handleReply
  infer_instance

instance keepsPacers_dialectOf (names : List String) : KeepsPacers P (dialectOf names) := by
  unfold dialectOf
  infer_instance

instance keepsPacers_setRegisters (c : Nat) (v : List (Register × Int))
    (index counter flag : Option Int) :
    KeepsPacers P (setRegisters c v index counter flag) := by
  unfold setRegisters
  cases flag <;> infer_instance

instance keepsPacers_peek (c : Nat) (address count : Int) :
    KeepsPacers P (peek c address count) := by
  unfold peek
  infer_instance

instance keepsPacers_poke (c : Nat) (address : Int) (data : List UInt8) :
    KeepsPacers P (poke c address data) := by
  unfold poke
  infer_instance

instance keepsPacers_programByte (c : Nat) (index : Int) : KeepsPacers P (programByte c index) := by
  unfold programByte
  dsimp only
  infer_instance

instance keepsPacers_instructionsDue (p : Nat) : KeepsPacers P (instructionsDue p) := by
  unfold instructionsDue
  infer_instance

instance keepsPacers_rates (p : Nat) : KeepsPacers P (rates p) := by
  unfold rates
  infer_instance

/-- **A quiet request leaves the pacers alone**, so that it keeps what there is to keep. -/
theorem keepsPacers_respond (perform : Request → HostM Reply) {r : Request}
    (hr : r.isQuiet = true) : KeepsPacers P (respond perform r) := by
  cases r with
  | step | execute | stepHandle | newPacer | powerOn | powerOff | pause | resume | runSteps
  | setRate | runFor | run => cases hr
  | newSession names draws =>
    rw [respond]
    have (dialect : Dialect) : KeepsPacers P (modify fun h =>
        { h with
          sessions := h.sessions.push ⟨dialect, draws, 0, none⟩
          session := some h.sessions.size }) :=
      .of_pacers_eq fun _ => rfl
    infer_instance
  | hostKey number down =>
    rw [respond]
    cases Keyboard.key? number <;> dsimp only <;> infer_instance
  | _ =>
    unfold respond
    infer_instance

theorem keepsPacers_respond_newPacer (perform : Request → HostM Reply) {n : Nat}
    {rate timerFrequency refresh : Float} {frames : Option (Script Request)} {clock : Clock}
    [∀ handle k, KeepsPacers P (newPacer handle rate timerFrequency refresh frames k)] :
    KeepsPacers P (respond perform (.newPacer n rate timerFrequency refresh frames clock)) := by
  rw [respond]
  have : KeepsPacers P (modifyGet fun h =>
      (h.clocks.size,
        { h with clocks := h.clocks.push clock, clock := some h.clocks.size, frames := 0 })) :=
    .of_pacers_eq fun _ => rfl
  have (p : Nat) : KeepsPacers P (modify fun h => { h with pacer := some p }) :=
    .of_pacers_eq fun _ => rfl
  infer_instance

end HostM

end Chip8
