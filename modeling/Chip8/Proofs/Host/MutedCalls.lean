import Chip8.Proofs.Host.Muted

/-!
# Calls without reports

The calls on engines, handles and sessions do to the host without reports what
they do to the host.  Of these, only the fetch of an instruction looks at
whether reports are wanted, and all that it does about it is to write to the log.

* `mutes_stepEngine`: a step.
* `mutes_loadRom`, `mutes_reload`: the loads of a program.
-/

namespace Chip8

namespace HostM

variable {α : Type} {c : Nat}

/-! ### Steps -/

section Performing

/-- Requests do to the host without reports what they do to the host, with all switches in them set
to off. -/
class MutesRequests (perform : Request → HostM Reply) : Prop where
  mutes : ∀ r : Request, Mutes (perform r) (perform r.muted)

variable (perform : Request → HostM Reply) [hp : MutesRequests perform]

instance mutes_byteOf (draw? : Option (Draw Request)) :
    Mutes (byteOf perform draw?) (byteOf perform (draw?.map Draw.muted)) := by
  rcases draw? with _ | ⟨_ | r, value⟩
  · exact mutes_pure _
  · exact mutes_pure _
  · have hrequest := hp.mutes r
    show Mutes (do note (.reply (← perform r)); return UInt8.ofInt value)
      (do note (.reply (← perform r.muted)); return UInt8.ofInt value)
    infer_instance

instance mutes_drawByte : Mutes (drawByte perform c) (drawByte perform c) := by
  have hadvance : Mutes (modifyEngine c fun e => { e with source := e.source.advance })
      (modifyEngine c fun e => { e with source := e.source.advance }) :=
    mutes_modifyEngine fun e =>
      congrArg (fun source => { e.muted with source }) e.source.advance_muted
  rw [drawByte_eq]
  refine mutes_engine_then fun e => mutes_then fun _ => ?_
  show Mutes _ (byteOf perform e.source.muted.next?)
  rw [RandomSource.next?_muted]
  infer_instance

omit hp in
instance mutes_halt (address : Int) (reason : HaltReason) :
    Mutes (halt c address reason) (halt c address reason) := by
  have hline : (Engine.haltLine address reason).isTrace = false := by
    rw [LogLine.isTrace, decide_eq_false_iff_not]
    intro htrace
    have hlevel : (if reason.isFault then LogLevel.warning else .info) = .debug := htrace.1
    split at hlevel <;> cases hlevel
  have hlog := mutes_log hline
  unfold halt
  infer_instance

instance mutes_stepMachine : Mutes (stepMachine perform c) (stepMachine perform c) := by
  unfold stepMachine
  refine mutes_engine_then fun e => ?_
  dsimp only
  cases e.machine.halted with
  | some reason => exact mutes_pure _
  | none =>
    have hlog := mutes_logAll fun line (hline : line ∈ e.fetchLines) =>
      Engine.isTrace_of_mem_fetchLines hline
    dsimp only
    rw [Engine.fetchLines_muted]
    refine mutes_then fun _ => ?_
    cases e.machine.advance with
    | drawing m x mask =>
      refine mutes_then fun _ => mutes_then fun outcome => ?_
      rcases outcome with r | byte
      · cases r <;> dsimp only <;> infer_instance
      · infer_instance
    | _ =>
      dsimp only
      infer_instance

/-- **A step** does the same, reported or not. -/
instance mutes_stepEngine : Mutes (stepEngine perform c) (stepEngine perform c) := by
  have hstatus (status : Status) :
      Mutes (modifyEngine c fun e => { e with lastStatus := some status })
        (modifyEngine c fun e => { e with lastStatus := some status }) :=
    mutes_modifyEngine fun _ => rfl
  unfold stepEngine
  infer_instance

/-- So many steps. -/
instance mutes_stepTimes (n : Nat) : Mutes (stepTimes perform c n) (stepTimes perform c n) := by
  induction n with
  | zero => exact mutes_pure []
  | succ n ih =>
    unfold stepTimes
    refine mutes_then fun status => mutes_engine_then fun e => ?_
    rw [Engine.stateLine_muted]
    infer_instance

instance mutes_executeUpTo (done : Nat) (last : Option Status) (n : Nat) :
    Mutes (executeUpTo perform c done last n) (executeUpTo perform c done last n) := by
  induction n generalizing done last with
  | zero => exact mutes_pure _
  | succ n ih =>
    unfold executeUpTo
    infer_instance

instance mutes_stepHandle (x : Handle) : Mutes (stepHandle perform x) (stepHandle perform x) := by
  unfold stepHandle
  infer_instance

end Performing

/-! ### Other calls on an engine -/

instance mutes_tickEngine : Mutes (tickEngine c) (tickEngine c) := by
  unfold tickEngine
  infer_instance

instance mutes_tickTimes (n : Nat) : Mutes (tickTimes c n) (tickTimes c n) := by
  induction n with
  | zero => exact mutes_pure ()
  | succ n ih =>
    unfold tickTimes
    infer_instance

instance mutes_tickHandle (x : Handle) : Mutes (tickHandle x) (tickHandle x) := by
  unfold tickHandle
  infer_instance

instance mutes_setKey (code : Int) (down : Bool) :
    Mutes (setKey c code down) (setKey c code down) := by
  unfold setKey
  infer_instance

instance mutes_readScreen : Mutes (readScreen c) (readScreen c) := by
  unfold readScreen
  infer_instance

theorem mutes_replace {x : Engine → Except Refusal Engine} {g g' : Engine → HostM α}
    (hx : ∀ e : Engine, x e.muted = (x e).map Engine.muted)
    (hg : ∀ e : Engine, Mutes (g e) (g' e.muted)) :
    Mutes (do let e ← ofExcept (x (← engine c)); modifyEngine c fun _ => e; g e)
      (do let e ← ofExcept (x (← engine c)); modifyEngine c fun _ => e; g' e) := by
  refine mutes_engine_then fun e => ?_
  rw [hx]
  refine mutes_ofExcept_bind fun e' => ?_
  have hput : Mutes (modifyEngine c fun _ => e') (modifyEngine c fun _ => e'.muted) :=
    mutes_modifyEngine fun _ => rfl
  have hrest := hg e'
  infer_instance

/-- **A program is loaded** all the same. -/
instance mutes_loadRom (data : List UInt8) (name : String) :
    Mutes (loadRom c data name) (loadRom c data name) := by
  rw [loadRom_eq]
  refine mutes_replace (fun e => e.load_muted data name) fun e => ?_
  have hlog : Mutes (log (Engine.loadedLine data.length name))
      (log (Engine.loadedLine data.length name)) := mutes_log rfl
  show Mutes (log _ >>= fun _ => required .noRom e.rom) (log _ >>= fun _ => required .noRom e.rom)
  infer_instance

instance mutes_readRomFile (path : String) : Mutes (readRomFile path) (readRomFile path) := by
  have hsuffix (message : String) : Mutes (log ⟨.debug, .romFile, message⟩)
      (log ⟨.debug, .romFile, message⟩) := mutes_log rfl
  have hread (message : String) : Mutes (log ⟨.info, .romFile, message⟩)
      (log ⟨.info, .romFile, message⟩) := mutes_log rfl
  unfold readRomFile
  infer_instance

theorem mutes_putRom (rom : Cartridge) : Mutes (modifyEngine c fun e => { e with rom := some rom })
    (modifyEngine c fun e => { e with rom := some rom }) :=
  mutes_modifyEngine fun _ => rfl

instance mutes_loadRomFile (path : String) : Mutes (loadRomFile c path) (loadRomFile c path) := by
  unfold loadRomFile
  refine mutes_then fun rom => ?_
  have hrom := mutes_putRom (c := c) rom
  infer_instance

instance mutes_startEngine : Mutes (startEngine c) (startEngine c) := by
  rw [startEngine_eq]
  exact mutes_replace Engine.start_muted fun e => mutes_addHandle ⟨c, e.generation⟩

/-! ### Sessions -/

theorem mutes_pushSession (session : Session) :
    Mutes (modify fun h =>
        { h with
          sessions := h.sessions.push session
          session := some h.sessions.size } : HostM Unit)
      (modify fun h =>
        { h with
          sessions := h.sessions.push session.muted
          session := some h.sessions.size }) :=
  mutes_modify fun _ => by simp only [Host.muted, Array.map_push, Array.size_map]

/-- **A reload** builds the same engine, whether the one before reports or not. -/
instance mutes_reload (s : Nat) (data : List UInt8) (name : String) :
    Mutes (reload s data name) (reload s data name) := by
  rw [reload_eq]
  refine mutes_sessionAt_then fun session => ?_
  have hloaded : Mutes (log (Engine.loadedLine data.length name))
      (log (Engine.loadedLine data.length name)) := mutes_log rfl
  have hlog (message : String) : Mutes (log ⟨.info, .session, message⟩)
      (log ⟨.info, .session, message⟩) := mutes_log rfl
  have hnext (c : Nat) (generation : Nat) :
      Mutes (modifySession s fun session => { session with generation, engine := some c })
        (modifySession s fun session => { session with generation, engine := some c }) :=
    mutes_modifySession s fun _ => rfl
  dsimp only [Session.muted]
  rw [Engine.muted_fresh, Engine.load_muted]
  refine mutes_ofExcept_bind fun e => ?_
  have hadd := mutes_addEngine e
  infer_instance

instance mutes_reloadFile (s : Nat) (path : String) :
    Mutes (reloadFile s path) (reloadFile s path) := by
  unfold reloadFile
  refine mutes_then fun rom => mutes_then fun c => ?_
  have hrom := mutes_putRom (c := c) rom
  infer_instance

instance mutes_reloadOrReport (s : Nat) (path : String) :
    Mutes (reloadOrReport s path) (reloadOrReport s path) := by
  unfold reloadOrReport
  refine mutes_then fun outcome => ?_
  rcases outcome with r | result
  · have hlog (message : String) : Mutes (log ⟨.error, .window, message⟩)
        (log ⟨.error, .window, message⟩) := mutes_log rfl
    dsimp only
    infer_instance
  · exact mutes_pure _

instance mutes_startSession (s : Nat) : Mutes (startSession s) (startSession s) := by
  unfold startSession
  infer_instance

end HostM

end Chip8
