import Chip8.Memory.Bus
import Chip8.Proofs.Host.Reachable
import Chip8.Proofs.Pacer.Muted

/-!
# Tracing only observes

An operation is a request of a host, or a call on the memory of one of its engines.
The reports of an engine are switched by operations, and by requests that are
nested in others.  If two scripts of operations differ in their switches only, then
two hosts that differ in their reports only see the same of them: every other
operation ends the same way and leaves the same host, but for the reports.

* `Bus.respond_muted`: a call on a bus does the same, reported or not.
* `muted_make_of_isSwitch`: a switch changes nothing but what is reported.
* `tracing_only_observes`: whole scripts.
-/

namespace Chip8

/-! ### Calls on a bus -/

namespace Bus

variable {start size : Nat}

def muted (b : Bus start size) : Bus start size :=
  { b with tracing := false }

end Bus

/-- The call, switching the reports off if it switches them at all. -/
def BusCall.muted : BusCall → BusCall
  | .trace _ => .trace false
  | call => call

def BusResult.muted {start size : Nat} (r : BusResult start size) : BusResult start size :=
  { r with
    accesses := []
    bus := r.bus.muted }

namespace Bus

variable {start size : Nat} (b : Bus start size)

theorem refuse_muted (r : Refusal) : b.muted.refuse r = (b.refuse r).muted := rfl

theorem read_muted {α : Type} (x : Except OutOfRange α) (f : α → BusAnswer)
    (accesses : List MemoryAccess) : b.muted.read x f accesses = (b.read x f accesses).muted := rfl

theorem write_muted (x : Memory start size × Except OutOfRange Unit) (answer : BusAnswer)
    (accesses : List MemoryAccess) :
    b.muted.write x answer accesses = (b.write x answer accesses).muted := rfl

/-- **A call on a bus** answers the same and leaves the same memory, reported or not. -/
theorem respond_muted (call : BusCall) : b.muted.respond call.muted = (b.respond call).muted := by
  cases call with
  | load8 a => exact b.read_muted _ _ _
  | load16 a => exact b.read_muted _ _ _
  | store8 a v => exact b.write_muted _ _ _
  | store16 a v => exact b.write_muted _ _ _
  | writeBlock a values => exact b.write_muted _ _ _
  | installFont a => exact b.write_muted _ _ _
  | readBlock a count =>
    show (if count < 0 then _ else _) = (if count < 0 then _ else _ : BusResult start size).muted
    split
    · exact b.refuse_muted _
    · exact b.read_muted _ _ _
  | programByte i =>
    show (if i < 0 ∨ (programCapacity : Int) ≤ i then _ else _) =
      (if i < 0 ∨ (programCapacity : Int) ≤ i then _ else _ : BusResult start size).muted
    split
    · exact b.refuse_muted _
    · exact b.read_muted _ _ _
  | programBytes => exact b.read_muted _ _ _
  | contains | firstAddress | lastAddress | bytes | clear | trace => rfl

end Bus

/-! ### Calls on the memory of an engine -/

def Engine.bus (e : Engine) : Bus 0 addressSpace :=
  ⟨e.machine.memory, e.tracingMemory⟩

def Engine.withBus (e : Engine) (b : Bus 0 addressSpace) : Engine :=
  { e with
    machine := { e.machine with memory := b.memory }
    tracingMemory := b.tracing }

def BusAnswer.reply : BusAnswer → Reply
  | .nothing => .nothing
  | .flag holds => .flag holds
  | .number n => .number n
  | .bytes data => .bytes data

namespace HostM

def access (c : Nat) (call : BusCall) : HostM Reply := do
  let result := (← engine c).bus.respond call
  modifyEngine c fun e => e.withBus result.bus
  logAll (result.accesses.map Engine.accessLine)
  return (← ofExcept result.answer).reply

theorem access_apply {h : Host} {c : Nat} {e : Engine} (he : h.engines[c]? = some e)
    (call : BusCall) :
    access c call h =
      ((e.bus.respond call).answer.map BusAnswer.reply,
        (h.putEngine c (e.withBus (e.bus.respond call).bus)).addLines
          ((e.bus.respond call).accesses.map Engine.accessLine)) := by
  rw [access, bind_of_ok (engine_apply he), bind_of_ok (modifyEngine_apply he _),
    bind_of_ok (logAll_apply _ _), bind_apply, ofExcept_apply]
  cases (e.bus.respond call).answer <;> rfl

end HostM

/-! ### Operations -/

/-- A request of a host, or a call on the memory of one of its engines. -/
inductive ScriptOp
  | request (r : Request)
  | access (engine : Nat) (call : BusCall)

namespace ScriptOp

/-- Whether the operation does nothing but to switch reports. -/
def isSwitch : ScriptOp → Bool
  | request (.trace _) | request (.traceMemory _) | access _ (.trace _) => true
  | _ => false

/-- The operation with all switches in it set to off. -/
def muted : ScriptOp → ScriptOp
  | request r => request r.muted
  | access c call => access c call.muted

def make (perform : Request → HostM Reply) : ScriptOp → HostM Reply
  | request r => perform r
  | access c call => HostM.access c call

theorem isSwitch_muted (op : ScriptOp) : op.muted.isSwitch = op.isSwitch := by
  cases op with
  | request r => cases r <;> rfl
  | access c call => cases call <;> rfl

end ScriptOp

/-- The script without its switches, and with those in the middle of its requests set to off. -/
def untraced (script : List ScriptOp) : List ScriptOp :=
  (script.filter fun op => !op.isSwitch).map ScriptOp.muted

namespace HostM

theorem mutes_access (c : Nat) (call : BusCall) : Mutes (access c call) (access c call.muted) := by
  unfold access
  refine mutes_engine_then fun e => ?_
  have hbus : e.muted.bus = e.bus.muted := rfl
  dsimp only
  rw [hbus, Bus.respond_muted]
  have hput : Mutes (modifyEngine c fun e' => e'.withBus (e.bus.respond call).bus)
      (modifyEngine c fun e' => e'.withBus (e.bus.respond call).muted.bus) :=
    mutes_modifyEngine fun _ => rfl
  have hlog : Mutes (logAll ((e.bus.respond call).accesses.map Engine.accessLine))
      (logAll ((e.bus.respond call).muted.accesses.map Engine.accessLine)) := by
    refine mutes_logAll fun line hline => ?_
    obtain ⟨access, -, rfl⟩ := List.mem_map.mp hline
    rfl
  have hanswer : (e.bus.respond call).muted.answer = (e.bus.respond call).answer := rfl
  rw [hanswer]
  infer_instance

instance mutes_make (depth : Nat) (op : ScriptOp) :
    Mutes (op.make (performWithin depth)) (op.muted.make (performWithin depth)) := by
  cases op with
  | request r => exact mutes_performWithin depth r
  | access c call => exact mutes_access c call

theorem muted_putEngine {h : Host} {c : Nat} {e e' : Engine} (he : h.engines[c]? = some e)
    (hsame : e'.muted = e.muted) : (h.putEngine c e').muted = h.muted := by
  have hmuted : h.muted.engines[c]? = some e.muted := by
    rw [Array.getElem?_map, he, Option.map_some]
  have hput : (h.putEngine c e').muted = h.muted.putEngine c e'.muted :=
    congrArg (fun engines => { h.muted with engines }) Array.map_setIfInBounds
  rw [hput, hsame, Host.putEngine_eq_self hmuted]

theorem muted_switch {f : Engine → Engine} (hf : ∀ e : Engine, (f e).muted = e.muted) (h : Host) :
    ((do
      modifyEngine (← currentEngine) f
      return .nothing : HostM Reply) h).2.muted = h.muted := by
  rw [currentEngine, bind_assoc, bind_of_ok (get_apply h)]
  cases h.current with
  | none => rfl
  | some c =>
    show (modifyEngine c f h).2.muted = h.muted
    cases he : h.engines[c]? with
    | none => rw [modifyEngine_of_eq_none he]
    | some e =>
      rw [modifyEngine_apply he]
      exact muted_putEngine he (hf e)

/-- **A switch** changes nothing but what is reported. -/
theorem muted_make_of_isSwitch (depth : Nat) {op : ScriptOp} (hswitch : op.isSwitch = true)
    (h : Host) : (op.make (performWithin depth) h).2.muted = h.muted := by
  cases op with
  | request r =>
    cases r with
    | trace on =>
      cases depth with
      | zero => rfl
      | succ depth => exact muted_switch (f := fun e => { e with tracing := on }) (fun _ => rfl) h
    | traceMemory on =>
      cases depth with
      | zero => rfl
      | succ depth =>
        exact muted_switch (f := fun e => { e with tracingMemory := on }) (fun _ => rfl) h
    | _ => cases hswitch
  | access c call =>
    cases call with
    | trace on =>
      show (access c (.trace on) h).2.muted = h.muted
      cases he : h.engines[c]? with
      | none => rw [access, bind_of_error (engine_of_eq_none he)]
      | some e =>
        rw [access_apply he]
        show (Host.addLines _ []).muted = h.muted
        rw [Host.addLines_nil]
        exact muted_putEngine he rfl
    | _ => cases hswitch

end HostM

/-! ### What is seen of a script -/

/-- What is seen of an operation: how it has ended, and the host after it, with what has been noted
and logged on the way. -/
structure Sight where
  outcome : Except Refusal Reply
  host : Host

def Sight.muted (s : Sight) : Sight :=
  { s with host := s.host.muted }

namespace Host

/-- Makes the operations of a script one after the other.  What is seen of the switches is left
out. -/
def watch (depth : Nat) (h : Host) : List ScriptOp → List Sight × Host
  | [] => ([], h)
  | op :: rest =>
    let made := op.make (HostM.performWithin depth) h.emptied
    let later := made.2.watch depth rest
    (if op.isSwitch then later.1 else ⟨made.1, made.2⟩ :: later.1, later.2)

theorem emptied_muted (h : Host) : h.muted.emptied = h.emptied.muted := rfl

/-- Notes and log are emptied before each operation, so they are not seen. -/
theorem watch_emptied (depth : Nat) (h : Host) (script : List ScriptOp) :
    (h.emptied.watch depth script).1 = (h.watch depth script).1 ∧
      (h.emptied.watch depth script).2.emptied = (h.watch depth script).2.emptied := by
  cases script <;> exact ⟨rfl, rfl⟩

theorem watch_muted (depth : Nat) (h : Host) (script : List ScriptOp) :
    (h.muted.watch depth (untraced script)).1 = (h.watch depth script).1.map Sight.muted ∧
      (h.muted.watch depth (untraced script)).2.emptied =
        (h.watch depth script).2.emptied.muted := by
  induction script generalizing h with
  | nil => exact ⟨rfl, h.emptied_muted⟩
  | cons op rest ih =>
    have hlater := ih (op.make (HostM.performWithin depth) h.emptied).2
    cases hswitch : op.isSwitch with
    | true =>
      have hrest : untraced (op :: rest) = untraced rest := by
        rw [untraced, List.filter_cons_of_neg (by rw [hswitch]; exact Bool.false_ne_true), untraced]
      have hsame := HostM.muted_make_of_isSwitch depth hswitch h.emptied
      rw [hsame, ← emptied_muted] at hlater
      obtain ⟨hsights, hhost⟩ := watch_emptied depth h.muted (untraced rest)
      rw [hrest, watch, hswitch, if_pos rfl, ← hsights, ← hhost]
      exact hlater
    | false =>
      have hrest : untraced (op :: rest) = op.muted :: untraced rest := by
        rw [untraced, List.filter_cons_of_pos (by rw [hswitch]; rfl), List.map_cons, untraced]
      have hmade := (HostM.mutes_make depth op).eq h.emptied
      have hstays : op.muted.isSwitch = false := op.isSwitch_muted.trans hswitch
      rw [hrest, watch, watch, emptied_muted, hmade, hstays, hswitch]
      exact ⟨congrArg (_ :: ·) hlater.1, hlater.2⟩

end Host

/-- **Tracing only observes.**  Take two hosts that differ in what they report only, and two scripts
of operations, with switches anywhere in each of them, that otherwise differ only in whether the
switches in the middle of their requests switch on or off.  All operations but the switches end the
same way in both scripts, with the same notes, and leave the same host each time, but for what is
reported; so do the scripts as a whole. -/
theorem tracing_only_observes (depth : Nat) {h h' : Host} (hhosts : h.muted = h'.muted)
    {script script' : List ScriptOp} (hscripts : untraced script = untraced script') :
    (h.watch depth script).1.map Sight.muted = (h'.watch depth script').1.map Sight.muted ∧
      (h.watch depth script).2.emptied.muted = (h'.watch depth script').2.emptied.muted := by
  obtain ⟨hsights, hafter⟩ := h.watch_muted depth script
  obtain ⟨hsights', hafter'⟩ := h'.watch_muted depth script'
  rw [← hsights, ← hafter, hhosts, hscripts]
  exact ⟨hsights', hafter'⟩

/-- A program that draws a random number and goes round in circles. -/
def drawProgram : List UInt8 :=
  [0xC0, 0xFF, 0x12, 0x00]

/-- An engine whose source of random numbers switches the reports of the memory. -/
def switchingEngine (on : Bool) : Request :=
  .newEngine [] [⟨some (.traceMemory on), 7⟩] 0

/-- A store outside the memory, a load and two steps, with all reports on before them. -/
def loudScript : List ScriptOp :=
  [.request (switchingEngine false), .request (.trace true),
    .request (.loadRom drawProgram "DRAW"), .request .start, .access 0 (.trace true),
    .access 0 (.store8 0x1000 5), .access 0 (.load8 0x200), .request (.step 2)]

/-- The same with reports of the memory only, from the first step on. -/
def quietScript : List ScriptOp :=
  [.request (switchingEngine true), .request (.loadRom drawProgram "DRAW"), .request .start,
    .access 0 (.store8 0x1000 5), .access 0 (.load8 0x200), .request (.step 2)]

/-- Whether each operation succeeds, and how many lines it logs. -/
def summary (sights : List Sight) : List (Bool × Nat) :=
  sights.map fun s => (s.outcome.isOk, s.host.log.size)

def loudSights : List Sight :=
  ((Host.ofFiles ⟨[], []⟩).watch 9 loudScript).1

def quietSights : List Sight :=
  ((Host.ofFiles ⟨[], []⟩).watch 9 quietScript).1

/-- The store is refused in both scripts, and reported in one of them. -/
theorem tracing_only_observes_of_refused_store :
    loudSights.map Sight.muted = quietSights.map Sight.muted ∧
      summary loudSights =
        [(true, 0), (true, 1), (true, 0), (false, 1), (true, 1), (true, 4)] ∧
      summary quietSights =
        [(true, 0), (true, 1), (true, 0), (false, 0), (true, 0), (true, 2)] := by
  have hscripts : untraced loudScript = untraced quietScript := rfl
  obtain ⟨hsights, -⟩ := tracing_only_observes 9 (h := .ofFiles ⟨[], []⟩) rfl hscripts
  exact ⟨hsights, by decide +kernel, by decide +kernel⟩

end Chip8
