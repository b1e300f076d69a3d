import Chip8.Proofs.Host.Answers
import Chip8.Proofs.Pacer.Rounds

/-!
# Hosts that requests lead to

Every request keeps what every action keeps, with all the requests that are made
in the middle of it.  So in every host that requests can lead to the engines are
free and the pacers in order.

* `keepsRequests_performWithin`: requests, nested however deep.
* `Reachable.inOrder`, `Reachable.free`: pacers and engines of a host that
  requests lead to.
* `jumpingHost`: a host with one pacer, for requests that begin with it.
-/

namespace Chip8

theorem Pace.interval_pos {instructions : Float} {n : Nat}
    (h : Pace.interval instructions = .ok n) : 0 < n := by
  rw [Pace.interval] at h
  cases hr : Binary64.round instructions with
  | error e =>
    rw [hr] at h
    cases h
  | ok k =>
    rw [hr] at h
    cases h
    show 0 < (max 1 k).toNat
    omega

namespace HostM

/-! ### Control of a pacer -/

section Control

variable (perform : Request → HostM Reply) [KeepsRequests perform] (p : Nat)

instance keeps_instructionsDue : Keeps (instructionsDue p) := by
  unfold instructionsDue
  infer_instance

instance keeps_powerOn : Keeps (powerOn p) := by
  unfold powerOn
  have hpower : Keeps (modifyPacer p fun q => { q with power := .running }) :=
    keeps_modifyPacer p (fun _ => ⟨rfl, rfl⟩) fun _ h => h.setPower (by decide)
  have hstart : Keeps (modifyPacer p Pacer.startPeriodic) :=
    keeps_modifyPacer p Pacer.SameSetup.startPeriodic fun _ h => h.startPeriodic
  infer_instance

instance keeps_powerOff : Keeps (powerOff perform p) := by
  unfold powerOff
  infer_instance

instance keeps_pause : Keeps (pause perform p) := by
  unfold pause
  infer_instance

instance keeps_resume : Keeps (resume perform p) := by
  unfold resume
  infer_instance

instance keeps_updateIntervals : Keeps (updateIntervals p) := by
  unfold updateIntervals
  refine keeps_then (fun pacer => keeps_ofConversion_bind fun timerInterval ht => ?_)
  have htimer : Keeps (modifyPacer p fun q => { q with timerInterval }) :=
    keeps_modifyPacer p (fun _ => ⟨rfl, rfl⟩) fun _ h =>
      { h with timer_pos := Pace.interval_pos ht }
  refine keeps_then (fun _ => keeps_ofConversion_bind fun frameInterval hf => ?_)
  exact keeps_modifyPacer p (fun _ => ⟨rfl, rfl⟩) fun _ h =>
    { h with frame_pos := Pace.interval_pos hf }

instance keeps_setRate (rate : Float) : Keeps (setRate p rate) := by
  unfold setRate
  have hrate : Keeps (modifyPacer p fun q => { q with rate }) :=
    keeps_modifyPacer p (fun _ => ⟨rfl, rfl⟩) fun _ h => { h with }
  have hrestart : Keeps (modifyPacer p fun q => q.stopPeriodic.clearSchedule.startPeriodic) :=
    keeps_modifyPacer p Pacer.SameSetup.restartPeriodic fun _ h => h.restartPeriodic
  infer_instance

instance keeps_newPacer (handle : Handle) (rate timerFrequency refresh : Float)
    (frames : Option (Script Request)) (clock : Nat) :
    Keeps (newPacer handle rate timerFrequency refresh frames clock) := by
  unfold newPacer
  refine keeps_guard (keeps_guard (keeps_guard ?_))
  refine keeps_then (fun _ => keeps_ofConversion_bind fun timerInterval ht => ?_)
  refine keeps_ofConversion_bind fun frameInterval hf => ?_
  refine keeps_then (fun now => keeps_then (fun base => ?_))
  exact ⟨fun h => .of_pacers <| .push
    { ordered := Schedule.ordered_empty
      ahead := fun _ he => absurd he List.not_mem_nil
      timer_pos := Pace.interval_pos ht
      frame_pos := Pace.interval_pos hf
      silent := fun _ => rfl
      idle := fun _ _ => ⟨rfl, rfl⟩ }⟩

instance keeps_rates : Keeps (rates p) := by
  unfold rates
  infer_instance

end Control

/-! ### Paced runs -/

section Runs

variable (perform : Request → HostM Reply) [KeepsRequests perform] (p : Nat)

instance keeps_sleep (sleeps : Sleeps) (number : Nat) (duration : Float) :
    Keeps (sleep perform sleeps number duration) :=
  keeps_guard inferInstance

instance keeps_dueNow : Keeps (dueNow p) := by
  unfold dueNow
  infer_instance

instance keeps_pacedReply (slept : Nat) (last : Float) : Keeps (pacedReply p slept last) := by
  unfold pacedReply
  infer_instance

instance keeps_ensureOn : Keeps (ensureOn p) := by
  unfold ensureOn
  infer_instance

instance keeps_runRounds (maxBatch : Int) (sleeps : Sleeps) (slept : Nat) (last : Float)
    (n : Nat) : Keeps (runRounds perform p maxBatch sleeps slept last n) := by
  induction n generalizing slept last with
  | zero => exact keeps_throw _
  | succ n ih =>
    unfold runRounds
    infer_instance

instance keeps_run (maxBatch : Int) (sleeps : Sleeps) : Keeps (run perform p maxBatch sleeps) := by
  unfold run
  infer_instance

instance keeps_runForRounds (wall : WallClock) (deadline : Float) (maxBatch : Int)
    (sleeps : Sleeps) (reads slept : Nat) (last : Float) (n : Nat) :
    Keeps (runForRounds perform p wall deadline maxBatch sleeps reads slept last n) := by
  induction n generalizing reads slept last with
  | zero => exact keeps_throw _
  | succ n ih =>
    unfold runForRounds
    infer_instance

instance keeps_runFor (wall : WallClock) (seconds : Float) (maxBatch : Int) (sleeps : Sleeps) :
    Keeps (runFor perform p wall seconds maxBatch sleeps) := by
  unfold runFor
  infer_instance

end Runs

/-! ### Requests -/

section Requests

variable (perform : Request → HostM Reply) [KeepsRequests perform] (c : Nat)

instance keeps_handleReply (n : Nat) : Keeps (handleReply n) := by
  unfold handleReply
  infer_instance

instance keeps_dialectOf (names : List String) : Keeps (dialectOf names) := by
  unfold dialectOf
  infer_instance

theorem sameProgress_foldl_setV (v : List (Register × Int)) (m : Machine) :
    m.SameProgress (v.foldl (fun m (x, value) => m.setV x value) m) := by
  induction v generalizing m with
  | nil => exact .refl m
  | cons a v ih =>
    have hset : m.SameProgress (m.setV a.1 a.2) := ⟨rfl, rfl⟩
    exact hset.trans (ih _)

instance keeps_setRegisters (v : List (Register × Int)) (index counter flag : Option Int) :
    Keeps (setRegisters c v index counter flag) := by
  unfold setRegisters
  have hv : Keeps (modifyMachine c fun m => v.foldl (fun m (x, value) => m.setV x value) m) :=
    keeps_modifyMachine c (sameProgress_foldl_setV v)
  have hx (a : Int) : Keeps (modifyMachine c fun m => m.setIndex a) :=
    keeps_modifyMachine c fun _ => ⟨rfl, rfl⟩
  have hc (a : Int) : Keeps (modifyMachine c fun m => m.setCounter a) :=
    keeps_modifyMachine c fun _ => ⟨rfl, rfl⟩
  have hf (value : Int) : Keeps (modifyMachine c fun m => m.setV flagRegister (value % 0x100)) :=
    keeps_modifyMachine c fun _ => ⟨rfl, rfl⟩
  cases flag <;> infer_instance

instance keeps_peek (address count : Int) : Keeps (peek c address count) :=
  keeps_guard inferInstance

instance keeps_writeBlock (address : Int) (data : List UInt8) :
    Keeps (writeBlock c address data) := by
  unfold writeBlock
  have (memory : Ram) : Keeps (modifyMachine c fun m => { m with memory }) :=
    keeps_modifyMachine c fun _ => ⟨rfl, rfl⟩
  infer_instance

instance keeps_poke (address : Int) (data : List UInt8) : Keeps (poke c address data) := by
  unfold poke
  infer_instance

instance keeps_programByte (index : Int) : Keeps (programByte c index) := by
  refine keeps_guard (keeps_then (fun e => ?_))
  dsimp only
  infer_instance

/-- **Every request but a reload** keeps what every action keeps, if those in the middle of it
do. -/
theorem keeps_respond {r : Request} (hr : r.isReload = false) : Keeps (respond perform r) := by
  cases r with
  | reload | reloadFile | reloadOrReport => cases hr
  | newEngine names draws generation =>
    rw [respond]
    have (dialect : Dialect) : Keeps (addEngine (Engine.fresh dialect draws none generation)) :=
      keeps_addEngine rfl rfl
    infer_instance
  | newSession names draws =>
    rw [respond]
    have (dialect : Dialect) : Keeps (modify fun h =>
        { h with
          sessions := h.sessions.push ⟨dialect, draws, 0, none⟩
          session := some h.sessions.size }) :=
      ⟨fun h => .pushSession rfl rfl⟩
    infer_instance
  | trace on =>
    rw [respond]
    have (c : Nat) : Keeps (modifyEngine c fun e => { e with tracing := on }) :=
      keeps_modifyEngine c fun e => { Engine.Follows.refl e with }
    infer_instance
  | traceMemory on =>
    rw [respond]
    have (c : Nat) : Keeps (modifyEngine c fun e => { e with tracingMemory := on }) :=
      keeps_modifyEngine c fun e => { Engine.Follows.refl e with }
    infer_instance
  | releaseAll =>
    rw [respond]
    have (c : Nat) : Keeps (modifyMachine c fun m =>
        { m with keypad := m.keypad.releaseAll }) :=
      keeps_modifyMachine c fun _ => ⟨rfl, rfl⟩
    infer_instance
  | hostKey number down =>
    rw [respond]
    cases Keyboard.key? number <;> dsimp only <;> infer_instance
  | newPacer n rate timerFrequency refresh frames clock =>
    rw [respond]
    have : Keeps (modifyGet fun h =>
        (h.clocks.size,
          { h with clocks := h.clocks.push clock, clock := some h.clocks.size, frames := 0 })) :=
      ⟨fun h => .of_sameHoldings ⟨rfl, rfl, rfl, rfl, rfl⟩⟩
    have (p : Nat) : Keeps (modify fun h => { h with pacer := some p }) :=
      keeps_modify fun _ => ⟨rfl, rfl, rfl, rfl, rfl⟩
    infer_instance
  | _ =>
    unfold respond
    infer_instance

/-- **Every request keeps what every action keeps**, together with the note of its answer. -/
instance keepsRequests_respond : KeepsRequests (respond perform) where
  keeps_noted r := by
    cases hr : r.isReload with
    | true => exact keeps_noted_reload perform hr
    | false =>
      have hkeeps := keeps_respond perform hr
      have hsilent := silent_respond perform hr
      exact keeps_noted_of_silent

instance keepsRequests_performWithin (depth : Nat) : KeepsRequests (performWithin depth) := by
  induction depth with
  | zero => exact ⟨fun _ => .of_unchanged fun _ => rfl⟩
  | succ depth ih => exact keepsRequests_respond (performWithin depth)

end Requests

end HostM

/-! ### Reachable hosts -/

namespace Host

/-- The host without notes and log, as it is before each request that is observed. -/
def emptied (h : Host) : Host :=
  { h with notes := #[], log := #[] }

/-- Requests lead to the host: one after the other, and nested at most to some depth each. -/
inductive Reachable : Host → Prop
  | start (files : Files) : Reachable (ofFiles files)
  | request {h : Host} (hr : Reachable h) (depth : Nat) (r : Request) :
    Reachable (HostM.performWithin depth r h).2
  /-- Notes and log are emptied before a request that a host observes. -/
  | emptied {h : Host} (hr : Reachable h) : Reachable { h with notes := #[], log := #[] }

variable {h : Host}

theorem Reachable.observe (hr : h.Reachable) (r : Request) : (h.observe r).2.Reachable :=
  hr.emptied.request HostM.nestingLimit r

theorem Reachable.play (hr : h.Reachable) (requests : List Request) :
    (h.play requests).2.Reachable := by
  induction requests generalizing h with
  | nil => exact hr
  | cons r rest ih => exact ih (hr.observe r)

theorem Reachable.enginesFollow (hr : h.Reachable) : EnginesFollow #[] h.engines := by
  induction hr with
  | start files => exact .refl _
  | request hr depth r ih => exact ih.trans (HostM.KeepsRequests.engines r _)
  | emptied hr ih => exact ih

theorem Reachable.pacersFollow (hr : h.Reachable) : PacersFollow #[] h.pacers := by
  induction hr with
  | start files => exact .refl _
  | request hr depth r ih => exact ih.trans (HostM.KeepsRequests.pacers r _)
  | emptied hr ih => exact ih

/-- **Between requests every pacer is in order.** -/
theorem Reachable.inOrder (hr : h.Reachable) : PacersInOrder h.pacers :=
  hr.pacersFollow.inOrder fun p q hq => by cases hq

/-- **Between requests every engine is free.** -/
theorem Reachable.free (hr : h.Reachable) {c : Nat} {e : Engine} (he : h.engines[c]? = some e) :
    e.busy = false :=
  hr.enginesFollow.new_free rfl he

end Host

/-! ### Hosts with one pacer -/

/-- A host with a pacer over an engine that jumps on the spot, after these requests. -/
def jumpingHost (rate refresh : Float) (frames : Option (Script Request)) (clock : Clock)
    (requests : List Request) : Host :=
  ((Host.ofFiles ⟨[], []⟩).play ([
    .newEngine [] [] 0, .loadRom [0x12, 0x00] "JUMP", .start,
    .newPacer 0 rate 60 refresh frames clock] ++ requests)).2

theorem reachable_jumpingHost (rate refresh : Float) (frames : Option (Script Request))
    (clock : Clock) (requests : List Request) :
    (jumpingHost rate refresh frames clock requests).Reachable :=
  (Host.Reachable.start ⟨[], []⟩).play _

end Chip8
