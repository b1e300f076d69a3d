import Chip8.Host.Perform
import Chip8.Proofs.Engine.Step

/-!
# Calls on one engine

The calls by which a host makes use of an engine: it loads programs, starts and
retires the engine, asks for steps and ticks, moves keys and writes bytes into
the memory.  Writing the registers is not among them.  `EngineCall.after` says
what a call makes of an engine that is free and whose source is plain, and
`engines_make` that the host's action does just that, whether or not it is
refused.

* `engines_makeAll`: a history of calls, with the host going on after refusals.
* `newHost`, `hostAfter`: a host with one new engine, and the same after calls on it.
-/

namespace Chip8

inductive EngineCall
  | load (data : List UInt8) (name : String)
  | start
  | retire
  | step
  | tick
  | key (code : Int) (down : Bool)
  | releaseAll
  | poke (address : Int) (data : List UInt8)

namespace Engine

/-- An engine whose next calls depend on nothing but itself. -/
structure Alone (e : Engine) : Prop where
  free : e.busy = false
  plain : e.source.IsPlain

/-- The engine after a change that may be refused. -/
def orSelf (e : Engine) : Except Refusal Engine → Engine
  | .ok e' => e'
  | .error _ => e

def withMachine (e : Engine) (machine : Machine) : Engine :=
  { e with machine }

/-- The machine after bytes have been written, if they fit. -/
def poked (m : Machine) (address : Int) (data : List UInt8) : Machine :=
  match m.memory.writeBlock address (data.map fun b => (b.toNat : Int)) with
  | (memory, .ok ()) => { m with memory }
  | (_, .error _) => m

end Engine

namespace EngineCall

def make (perform : Request → HostM Reply) (c : Nat) : EngineCall → HostM Unit
  | load data name => do
    let _ ← HostM.loadRom c data name
  | start => do
    let _ ← HostM.startEngine c
  | retire => HostM.retire c
  | step => do
    let _ ← HostM.stepEngine perform c
  | tick => HostM.tickEngine c
  | key code down => HostM.setKey c code down
  | releaseAll => HostM.modifyMachine c fun m => { m with keypad := m.keypad.releaseAll }
  | poke address data => do
    let _ ← HostM.poke c address data

/-- Makes calls one after the other and goes on when one is refused. -/
def makeAll (perform : Request → HostM Reply) (c : Nat) : List EngineCall → HostM Unit
  | [] => pure ()
  | call :: rest => do
    let _ ← HostM.attempt (call.make perform c)
    makeAll perform c rest

/-- What a call makes of an engine that is free and whose source is plain. -/
def after (e : Engine) : EngineCall → Engine
  | load data name => e.orSelf (e.load data name)
  | start => e.orSelf e.start
  | retire => { e with retired := true }
  | step => if e.started then e.stepped else e
  | tick => e.withMachine e.machine.tickTimers
  | key code down => e.keyed code down
  | releaseAll => e.withMachine { e.machine with keypad := e.machine.keypad.releaseAll }
  | poke address data => e.withMachine (Engine.poked e.machine address data)

def afterAll (e : Engine) (calls : List EngineCall) : Engine :=
  calls.foldl after e

end EngineCall

/-! ### What the host does -/

namespace HostM

variable {perform : Request → HostM Reply} {h : Host} {c : Nat} {e : Engine}

theorem engines_loadRom (he : h.engines[c]? = some e) (data : List UInt8) (name : String) :
    (loadRom c data name h).2.engines[c]? = some (e.orSelf (e.load data name)) := by
  cases hl : e.load data name with
  | error r =>
    rw [loadRom_of_error he hl]
    exact he
  | ok e' =>
    obtain ⟨rom, -, hrun⟩ := loadRom_of_ok he hl
    rw [hrun]
    exact Host.engines_putEngine he

theorem engines_startEngine (he : h.engines[c]? = some e) :
    (startEngine c h).2.engines[c]? = some (e.orSelf e.start) := by
  cases hs : e.start with
  | error r =>
    rw [startEngine_of_error he hs]
    exact he
  | ok e' =>
    rw [startEngine_apply he hs]
    exact Host.engines_putEngine he

theorem engines_poke (he : h.engines[c]? = some e) (address : Int) (data : List UInt8) :
    (poke c address data h).2.engines[c]? =
      some (e.withMachine (Engine.poked e.machine address data)) := by
  rw [poke]
  rcases hw : e.machine.memory.writeBlock address (data.map fun b => (b.toNat : Int)) with
    ⟨memory, o | ⟨⟩⟩
  · rw [bind_of_error (writeBlock_of_error he hw), Engine.poked, hw]
    exact he
  · rw [bind_of_ok (writeBlock_of_ok he hw), Engine.poked, hw]
    exact Host.engines_putEngine he

end HostM

namespace EngineCall

open HostM

variable {perform : Request → HostM Reply} {h : Host} {c : Nat} {e : Engine}

theorem bind_discard_apply {α : Type} (x : HostM α) (h : Host) :
    ((do let _ ← x) : HostM Unit) h = ((x h).1.map fun _ => (), (x h).2) := by
  rw [bind_apply]
  rcases x h with ⟨_ | _, _⟩ <;> rfl

/-- A call that is no step does to the engine what `after` says, whatever source it has. -/
theorem engines_make_of_ne_step (he : h.engines[c]? = some e) (hfree : e.busy = false)
    {call : EngineCall} (hcall : call ≠ .step) :
    (call.make perform c h).2.engines[c]? = some (after e call) := by
  cases call with
  | step => exact absurd rfl hcall
  | load data name =>
    rw [make, bind_discard_apply]
    exact engines_loadRom he data name
  | start =>
    rw [make, bind_discard_apply]
    exact engines_startEngine he
  | retire =>
    rw [make, HostM.retire, modifyEngine_apply he]
    exact Host.engines_putEngine he
  | tick =>
    rw [make, tickEngine_apply he hfree]
    exact Host.engines_putEngine he
  | key code down =>
    rw [make, setKey_apply he hfree]
    exact Host.engines_putEngine he
  | releaseAll =>
    rw [make, modifyMachine_apply he]
    exact Host.engines_putEngine he
  | poke address data =>
    rw [make, bind_discard_apply]
    exact engines_poke he address data

/-- **A call does to the engine what `after` says.** -/
theorem engines_make (he : h.engines[c]? = some e) (ha : e.Alone) (call : EngineCall) :
    (call.make perform c h).2.engines[c]? = some (after e call) := by
  cases call with
  | step =>
    rw [make, bind_discard_apply, after]
    cases hs : e.started with
    | false =>
      rw [stepEngine_of_not_started he hs]
      exact he
    | true =>
      rw [stepEngine_apply he hs ha.free (Engine.undisturbed_of_isPlain ha.plain)]
      exact Host.engines_putEngine he
  | _ => exact engines_make_of_ne_step he ha.free (by rintro ⟨⟩)

/-- **A call that is no step** changes at most memory, keypad and timers of the machine. -/
theorem machine_after_of_ne_step (e : Engine) {call : EngineCall} (hcall : call ≠ .step) :
    ∃ memory keypad timers,
      (after e call).machine = { e.machine with memory, keypad, timers } := by
  cases call with
  | step => exact absurd rfl hcall
  | load data name =>
    rw [after]
    cases hl : e.load data name with
    | error r => exact ⟨_, _, _, rfl⟩
    | ok e' =>
      obtain ⟨memory, rfl⟩ := Engine.load_eq_ok hl
      exact ⟨memory, _, _, rfl⟩
  | start =>
    rw [after]
    cases hs : e.start with
    | error r => exact ⟨_, _, _, rfl⟩
    | ok e' =>
      rw [Engine.start_eq_ok hs]
      exact ⟨_, _, _, rfl⟩
  | key code down =>
    rw [after, Engine.keyed]
    cases Keypad.key? code with
    | none => exact ⟨_, _, _, rfl⟩
    | some key => exact ⟨_, _, _, rfl⟩
  | poke address data =>
    rw [after, Engine.poked]
    split
    · exact ⟨_, _, _, rfl⟩
    · exact ⟨_, _, _, rfl⟩
  | retire | tick | releaseAll => exact ⟨_, _, _, rfl⟩

/-! ### Histories -/

theorem alone_after (ha : e.Alone) (call : EngineCall) : (after e call).Alone := by
  cases call with
  | load data name =>
    show (e.orSelf (e.load data name)).Alone
    cases hl : e.load data name with
    | error r => exact ha
    | ok e' =>
      obtain ⟨memory, rfl⟩ := Engine.load_eq_ok hl
      exact ⟨ha.free, ha.plain⟩
  | start =>
    show (e.orSelf e.start).Alone
    cases hs : e.start with
    | error r => exact ha
    | ok e' =>
      rw [Engine.start_eq_ok hs]
      exact ⟨ha.free, ha.plain⟩
  | retire => exact ⟨ha.free, ha.plain⟩
  | step =>
    rw [after]
    split
    · obtain ⟨source, lastStatus, heq⟩ := e.stepped_eq
      exact ⟨by rw [heq]; exact ha.free, Engine.isPlain_stepped ha.plain⟩
    · exact ha
  | tick => exact ⟨ha.free, ha.plain⟩
  | key code down =>
    show (e.keyed code down).Alone
    rw [Engine.keyed]
    split
    · exact ha
    · exact ⟨ha.free, ha.plain⟩
  | releaseAll => exact ⟨ha.free, ha.plain⟩
  | poke address data => exact ⟨ha.free, ha.plain⟩

/-- **A history of calls does to the engine what `afterAll` says.** -/
theorem engines_makeAll (he : h.engines[c]? = some e) (ha : e.Alone) (calls : List EngineCall) :
    (makeAll perform c calls h).2.engines[c]? = some (afterAll e calls) ∧
      (afterAll e calls).Alone := by
  induction calls generalizing h e with
  | nil => exact ⟨he, ha⟩
  | cons call rest ih =>
    rw [makeAll, bind_of_ok (attempt_apply _ _)]
    exact ih (engines_make he ha call) (alone_after ha call)

theorem afterAll_induction {P : Engine → Prop} (hP : ∀ e call, P e → P (after e call)) (h : P e)
    (calls : List EngineCall) : P (afterAll e calls) := by
  induction calls generalizing e with
  | nil => exact h
  | cons call rest ih => exact ih (hP e call h)

end EngineCall

/-! ### Hosts with one engine -/

/-- A host with one new engine, which draws these numbers. -/
def newHost (dialect : Dialect) (draws : List (Draw Request)) : Host :=
  { Host.ofFiles ⟨[], []⟩ with
    engines := #[Engine.fresh dialect draws none 0]
    current := some 0 }

/-- A host with one engine that draws no numbers, after these calls on the engine. -/
def hostAfter (dialect : Dialect) (calls : List EngineCall) : Host :=
  (EngineCall.makeAll HostM.perform 0 calls (newHost dialect [])).2

end Chip8
