import Chip8.Proofs.Engine.Load
import Chip8.Proofs.Machine.Step

/-!
# Steps of an engine without a host in between

A source of random numbers is plain if it gives numbers and asks the host for
nothing.  An engine with such a source makes its steps alone: `Engine.step` is
the step as a function of the engine, and `stepEngine_apply` says that the host
that asks for a step gets this one and nothing else but lines in its log.

* `stepEngine_apply`: a step of an engine that has been started and is free.
* `stepEngine_of_drawing`: a step that asks the host for a number.
* `stepEngine_cases`: every step is refused, or one of these two.
* `tickEngine_apply`, `setKey_apply`, `readScreen_apply`: a tick of its timers, a
  move of a key and a look at its picture.
-/

namespace Chip8

namespace RandomSource

/-- The source gives numbers and asks the host for nothing. -/
def IsPlain (s : RandomSource) : Prop :=
  ∀ d ∈ s.draws, d.before = none

/-- The next number comes without a request to the host. -/
def IsReady (s : RandomSource) : Prop :=
  ∀ d, s.next? = some d → d.before = none

/-- The next byte, and zero if the source has no numbers. -/
def nextByte (s : RandomSource) : UInt8 :=
  match s.next? with
  | none => 0
  | some d => UInt8.ofInt d.value

theorem IsPlain.isReady {s : RandomSource} (h : s.IsPlain) : s.IsReady :=
  fun d hd => h d (List.mem_of_getElem? hd)

end RandomSource

namespace Engine

/-- If the next step takes a number, it takes it without a request to the host. -/
def Undisturbed (e : Engine) : Prop :=
  ∀ m x mask, e.machine.advance = .drawing m x mask → e.source.IsReady

/-- What the engine's machine makes of a step. -/
def reaction (e : Engine) : Machine.StepResult :=
  e.machine.step e.source.nextByte

/-- The engine with another machine, and its source after a number if one has been taken. -/
def moved (e : Engine) (machine : Machine) (drew : Bool) : Engine :=
  { e with machine, source := if drew then e.source.advance else e.source }

def outcome (e : Engine) : Except Refusal Status :=
  e.reaction.status.mapError .timerOutOfRange

/-- The engine with a report as its last status, if it is a status. -/
def noting (e : Engine) : Except Refusal Status → Engine
  | .ok status => { e with lastStatus := some status }
  | .error _ => e

def stepped (e : Engine) : Engine :=
  (e.moved e.reaction.machine e.reaction.drew).noting e.outcome

def stepLines (e : Engine) : List LogLine :=
  match e.machine.halted with
  | some _ => []
  | none =>
    e.fetchLines ++ match e.reaction.status with
      | .ok (.halted reason) => [haltLine e.machine.counter reason]
      | _ => []

/-- The engine in the middle of a step that takes a number. -/
def opened (e : Engine) : Engine :=
  { e with machine := e.machine.passed, busy := true }

/-- What a step reports that has asked for a number. -/
def drawOutcome : Except Refusal UInt8 → Except Refusal Status
  | .ok _ => .ok .continue
  | .error (.halting reason) => .ok (.halted reason)
  | .error r => .error r

def drawMachine (m : Machine) (x : Register) (mask : Nat) (counter : Int) :
    Except Refusal UInt8 → Machine
  | .ok byte => m.supply x mask byte
  | .error (.halting reason) => m.halt counter reason
  | .error _ => m

/-- The engine after a step that has asked for a number. -/
def closed (e : Engine) (x : Register) (mask : Nat) (counter : Int)
    (drawn : Except Refusal UInt8) : Engine :=
  { e with machine := drawMachine e.machine x mask counter drawn, busy := false }.noting
    (drawOutcome drawn)

def drawLines (counter : Int) : Except Refusal UInt8 → List LogLine
  | .error (.halting reason) => [haltLine counter reason]
  | _ => []

/-- What a move of a key reports to the host. -/
def keyOutcome (code : Int) : Except Refusal Unit :=
  match Keypad.key? code with
  | none => .error (.keyOutOfRange code)
  | some _ => .ok ()

/-- The engine after a move of a key, if the code has one. -/
def keyed (e : Engine) (code : Int) (down : Bool) : Engine :=
  match Keypad.key? code with
  | none => e
  | some key =>
    { e with machine := { e.machine with keypad := e.machine.keypad.set key down } }

@[simp] theorem moved_false (e : Engine) (m : Machine) :
    e.moved m false = { e with machine := m } := rfl

theorem stepped_eq (e : Engine) : ∃ source lastStatus,
    e.stepped = { e with machine := e.reaction.machine, source, lastStatus } := by
  rw [stepped]
  cases e.outcome with
  | ok status => exact ⟨_, _, rfl⟩
  | error r => exact ⟨_, e.lastStatus, rfl⟩

theorem undisturbed_of_isPlain {e : Engine} (h : e.source.IsPlain) : e.Undisturbed :=
  fun _ _ _ _ => h.isReady

/-- An instruction that is carried out at once takes no number. -/
theorem undisturbed_of_completed {e : Engine} {m : Machine}
    (ha : e.machine.advance = .completed m) : e.Undisturbed := by
  intro m' x mask hdrawing
  rw [ha] at hdrawing
  cases hdrawing

theorem draws_stepped (e : Engine) : e.stepped.source.draws = e.source.draws := by
  have hmoved : (e.moved e.reaction.machine e.reaction.drew).source.draws = e.source.draws := by
    cases e.reaction.drew <;> rfl
  rw [stepped]
  cases e.outcome <;> exact hmoved

theorem isPlain_stepped {e : Engine} (h : e.source.IsPlain) : e.stepped.source.IsPlain := by
  rw [RandomSource.IsPlain, draws_stepped]
  exact h

end Engine

namespace HostM

variable {perform : Request → HostM Reply} {h : Host} {c : Nat} {e : Engine}

theorem halt_apply (he : h.engines[c]? = some e) (address : Int) (reason : HaltReason) :
    halt c address reason h =
      (.ok (.halted reason),
        (h.putEngine c { e with machine := e.machine.halt address reason }).addLines
          [Engine.haltLine address reason]) := by
  rw [halt, bind_of_ok (modifyMachine_apply he _), bind_of_ok (log_apply _ _), pure_apply]

/-- The halt of an instruction: the machine that it hands over is the one before it, but for the
counter. -/
theorem setMachine_halt_apply (he : h.engines[c]? = some e) {m : Machine} {reason : HaltReason}
    (ha : e.machine.advance = .halted m reason) :
    (setMachine c m >>= fun _ => halt c e.machine.counter reason) h =
      (.ok (.halted reason),
        (h.putEngine c { e with machine := e.machine.halt e.machine.counter reason }).addLines
          [Engine.haltLine e.machine.counter reason]) := by
  have hput : (h.putEngine c { e with machine := m }).engines[c]? = some { e with machine := m } :=
    Host.engines_putEngine he
  have hhalt : m.halt e.machine.counter reason = e.machine.halt e.machine.counter reason :=
    Machine.halt_of_advance ha
  rw [bind_of_ok (setMachine_apply he m), halt_apply hput, Host.putEngine_putEngine, hhalt]

def byteOf (perform : Request → HostM Reply) : Option (Draw Request) → HostM UInt8
  | none => return 0
  | some draw => do
    match draw.before with
    | none => pure ()
    | some r => note (.reply (← perform r))
    return UInt8.ofInt draw.value

theorem drawByte_eq (perform : Request → HostM Reply) (c' : Nat) :
    drawByte perform c' = (engine c' >>= fun e =>
      modifyEngine c' (fun e => { e with source := e.source.advance }) >>= fun _ =>
        byteOf perform e.source.next?) := rfl

theorem drawByte_apply (he : h.engines[c]? = some e) (hready : e.source.IsReady) :
    drawByte perform c h =
      (.ok e.source.nextByte, h.putEngine c { e with source := e.source.advance }) := by
  rw [drawByte, bind_of_ok (engine_apply he), bind_of_ok (modifyEngine_apply he _),
    RandomSource.nextByte]
  cases hd : e.source.next? with
  | none => rfl
  | some d =>
    obtain ⟨before, value⟩ := d
    have hbefore : before = none := hready _ hd
    subst hbefore
    rfl

theorem stepMachine_apply (he : h.engines[c]? = some e) (hquiet : e.Undisturbed) :
    stepMachine perform c h =
      (e.outcome,
        (h.putEngine c (e.moved e.reaction.machine e.reaction.drew)).addLines e.stepLines) := by
  rw [stepMachine, bind_of_ok (engine_apply he), Engine.outcome, Engine.stepLines, Engine.reaction]
  cases hh : e.machine.halted with
  | some reason =>
    rw [Machine.step_of_isHalted hh, Engine.moved_false, Host.addLines_nil,
      Host.putEngine_eq_self he]
    rfl
  | none =>
    have he₁ : (h.addLines e.fetchLines).engines[c]? = some e := he
    dsimp only
    rw [bind_of_ok (logAll_apply _ _)]
    cases ha : e.machine.advance with
    | completed m =>
      rw [Machine.step_of_completed hh ha]
      dsimp only
      rw [bind_of_ok (setMachine_apply he₁ _), List.append_nil]
      rfl
    | waiting m =>
      rw [Machine.step_of_waiting hh ha]
      dsimp only
      rw [bind_of_ok (setMachine_apply he₁ _), List.append_nil]
      rfl
    | halted m reason =>
      rw [Machine.step_of_halted hh ha]
      dsimp only
      rw [setMachine_halt_apply he₁ ha, Host.addLines_append]
      rfl
    | refused m value =>
      rw [Machine.step_of_refused hh ha]
      dsimp only
      rw [bind_of_ok (setMachine_apply he₁ _), List.append_nil, Machine.advance_eq_refused ha]
      rfl
    | drawing m x mask =>
      rw [Machine.step_of_drawing hh ha]
      dsimp only
      rw [Machine.advance_eq_drawing ha]
      have he₂ : ((h.addLines e.fetchLines).putEngine c
          { e with machine := e.machine.passed }).engines[c]? =
          some { e with machine := e.machine.passed } := Host.engines_putEngine he₁
      rw [bind_of_ok (setMachine_apply he₁ _), bind_of_ok (attempt_apply _ _),
        drawByte_apply he₂ (hquiet m x mask ha)]
      dsimp only
      rw [bind_of_ok (modifyMachine_apply (Host.engines_putEngine he₂) _), List.append_nil,
        Host.putEngine_putEngine, Host.putEngine_putEngine]
      rfl

theorem stepEngine_of_eq_none (he : h.engines[c]? = none) :
    stepEngine perform c h = (.error .noEngine, h) := by
  rw [stepEngine, bind_of_error (engine_of_eq_none he)]

theorem stepEngine_of_not_started (he : h.engines[c]? = some e) (hs : e.started = false) :
    stepEngine perform c h = (.error .notStarted, h) := by
  rw [stepEngine, bind_of_ok (engine_apply he), hs]
  rfl

theorem stepEngine_of_busy (he : h.engines[c]? = some e) (hs : e.started = true)
    (hbusy : e.busy = true) : stepEngine perform c h = (.error (.busy .step), h) := by
  rw [stepEngine, bind_of_ok (engine_apply he), hs]
  exact bind_of_error (exclusive_of_busy he hbusy .step _) _

theorem stepEngine_of_stepMachine (he : h.engines[c]? = some e) (hstarted : e.started = true)
    (hfree : e.busy = false) {outcome : Except Refusal Status} {h' : Host} {e' : Engine}
    (hx : stepMachine perform c (h.putEngine c (e.marked true)) = (outcome, h'))
    (he' : h'.engines[c]? = some e') :
    stepEngine perform c h =
      (outcome, h'.putEngine c ((e'.marked false).noting outcome)) := by
  have hexclusive := exclusive_of_free he hfree .step (stepMachine perform c)
  rw [hx, modifyEngine_apply he'] at hexclusive
  have hfreed : (h'.putEngine c (e'.marked false)).engines[c]? = some (e'.marked false) :=
    Host.engines_putEngine he'
  rw [stepEngine, bind_of_ok (engine_apply he), hstarted]
  show (exclusive c .step (stepMachine perform c) >>= fun _ => _) h = _
  cases outcome with
  | error r =>
    rw [bind_of_error hexclusive]
    rfl
  | ok status =>
    rw [bind_of_ok hexclusive, bind_of_ok (modifyEngine_apply hfreed _), pure_apply,
      Host.putEngine_putEngine]
    rfl

/-- **A step of a program that has halted** reports the halt again, and does nothing else. -/
theorem stepEngine_of_isHalted (he : h.engines[c]? = some e) (hstarted : e.started = true)
    (hfree : e.busy = false) {r : HaltReason} (hh : e.machine.halted = some r) :
    stepEngine perform c h =
      (.ok (.halted r), h.putEngine c { e with lastStatus := some (.halted r) }) := by
  have hmarked : (h.putEngine c (e.marked true)).engines[c]? = some (e.marked true) :=
    Host.engines_putEngine he
  have hmachine : stepMachine perform c (h.putEngine c (e.marked true)) =
      (.ok (.halted r), h.putEngine c (e.marked true)) := by
    rw [stepMachine, bind_of_ok (engine_apply hmarked)]
    show (match e.machine.halted with | some reason => _ | none => _ : HostM Status) _ = _
    rw [hh]
    rfl
  rw [stepEngine_of_stepMachine he hstarted hfree hmachine hmarked, Host.putEngine_putEngine]
  exact congrArg (fun busy => (Except.ok (Status.halted r), h.putEngine c
    { e with lastStatus := some (.halted r), busy })) hfree.symm

/-- **A step of an engine that has been started and is free** is a step of the engine alone. -/
theorem stepEngine_apply (he : h.engines[c]? = some e) (hstarted : e.started = true)
    (hfree : e.busy = false) (hquiet : e.Undisturbed) :
    stepEngine perform c h = (e.outcome, (h.putEngine c e.stepped).addLines e.stepLines) := by
  have hmarked : (h.putEngine c (e.marked true)).engines[c]? = some (e.marked true) :=
    Host.engines_putEngine he
  have hmachine : stepMachine perform c (h.putEngine c (e.marked true)) =
      (e.outcome,
        (h.putEngine c ((e.marked true).moved e.reaction.machine e.reaction.drew)).addLines
          e.stepLines) := by
    rw [stepMachine_apply hmarked hquiet, Host.putEngine_putEngine]
    rfl
  have hfree' : ((e.marked true).moved e.reaction.machine e.reaction.drew).marked false =
      e.moved e.reaction.machine e.reaction.drew :=
    congrArg (fun busy => { e.moved e.reaction.machine e.reaction.drew with busy }) hfree.symm
  rw [stepEngine_of_stepMachine he hstarted hfree hmachine (Host.engines_putEngine he), hfree',
    Host.putEngine_addLines, Host.putEngine_putEngine, Engine.stepped]

theorem stepMachine_of_drawing (he : h.engines[c]? = some e) (hrun : e.machine.halted = none)
    {m : Machine} {x : Register} {mask : Nat} (ha : e.machine.advance = .drawing m x mask)
    {drawn : Except Refusal UInt8} {h' : Host} {e' : Engine}
    (hdraw : drawByte perform c ((h.addLines e.fetchLines).putEngine c
      { e with machine := e.machine.passed }) = (drawn, h'))
    (he' : h'.engines[c]? = some e') :
    stepMachine perform c h =
      (Engine.drawOutcome drawn,
        (h'.putEngine c { e' with
          machine := Engine.drawMachine e'.machine x mask e.machine.counter drawn }).addLines
            (Engine.drawLines e.machine.counter drawn)) := by
  have he₁ : (h.addLines e.fetchLines).engines[c]? = some e := he
  rw [stepMachine, bind_of_ok (engine_apply he), hrun]
  dsimp only
  rw [bind_of_ok (logAll_apply _ _), ha, Machine.advance_eq_drawing ha]
  dsimp only
  rw [bind_of_ok (setMachine_apply he₁ _), bind_of_ok (attempt_apply _ _), hdraw]
  cases drawn with
  | ok byte =>
    dsimp only [Engine.drawLines]
    rw [bind_of_ok (modifyMachine_apply he' _), Host.addLines_nil]
    rfl
  | error r =>
    have hsame : h'.putEngine c { e' with machine := e'.machine } = h' := Host.putEngine_eq_self he'
    cases r with
    | halting reason => exact halt_apply he' _ _
    | _ =>
      dsimp only [Engine.drawLines, Engine.drawMachine]
      rw [Host.addLines_nil, hsame]
      rfl

/-- **A step that asks for a number**, whatever the host does before the number is given: the step
ends with the engine that is there when the number has come, or has been refused. -/
theorem stepEngine_of_drawing (he : h.engines[c]? = some e) (hstarted : e.started = true)
    (hfree : e.busy = false) (hrun : e.machine.halted = none) {m : Machine} {x : Register}
    {mask : Nat} (ha : e.machine.advance = .drawing m x mask) {drawn : Except Refusal UInt8}
    {h' : Host} {e' : Engine}
    (hdraw : drawByte perform c ((h.putEngine c e.opened).addLines e.fetchLines) = (drawn, h'))
    (he' : h'.engines[c]? = some e') :
    stepEngine perform c h =
      (Engine.drawOutcome drawn,
        (h'.putEngine c (e'.closed x mask e.machine.counter drawn)).addLines
          (Engine.drawLines e.machine.counter drawn)) := by
  have hmarked : (h.putEngine c (e.marked true)).engines[c]? = some (e.marked true) :=
    Host.engines_putEngine he
  have hopened : ((h.putEngine c (e.marked true)).addLines e.fetchLines).putEngine c
      { e.marked true with machine := e.machine.passed } =
        (h.putEngine c e.opened).addLines e.fetchLines := by
    rw [Host.putEngine_addLines, Host.putEngine_putEngine]
    rfl
  rw [← hopened] at hdraw
  have hmachine := stepMachine_of_drawing hmarked hrun ha hdraw he'
  have hput : ((h'.putEngine c { e' with
      machine := Engine.drawMachine e'.machine x mask e.machine.counter drawn }).addLines
        (Engine.drawLines e.machine.counter drawn)).engines[c]? = some { e' with
          machine := Engine.drawMachine e'.machine x mask e.machine.counter drawn } :=
    Host.engines_putEngine he'
  rw [stepEngine_of_stepMachine he hstarted hfree hmachine hput, Host.putEngine_addLines,
    Host.putEngine_putEngine]
  rfl

theorem stepEngine_alone_of_isHalted (he : h.engines[c]? = some e) (hstarted : e.started = true)
    (hfree : e.busy = false) {r : HaltReason} (hh : e.machine.halted = some r) :
    stepEngine perform c h = (e.outcome, (h.putEngine c e.stepped).addLines e.stepLines) := by
  rw [stepEngine_of_isHalted he hstarted hfree hh, Engine.outcome, Engine.stepped, Engine.outcome,
    Engine.reaction, Machine.step_of_isHalted hh, Engine.stepLines, hh, Host.addLines_nil]
  rfl

/-- A step of an engine that has been started and is free is a step of the engine alone, or a
request of the host waits before the number that it asks for. -/
theorem stepEngine_of_free (he : h.engines[c]? = some e) (hs : e.started = true)
    (hfree : e.busy = false) :
    stepEngine perform c h = (e.outcome, (h.putEngine c e.stepped).addLines e.stepLines) ∨
      e.machine.halted = none ∧ ¬e.source.IsReady ∧
        ∃ m x mask, e.machine.advance = .drawing m x mask := by
  cases hh : e.machine.halted with
  | some r => exact .inl (stepEngine_alone_of_isHalted he hs hfree hh)
  | none =>
    by_cases hquiet : e.Undisturbed
    · exact .inl (stepEngine_apply he hs hfree hquiet)
    · have hdraw : ∃ m x mask, e.machine.advance = .drawing m x mask ∧ ¬e.source.IsReady := by
        simpa only [Engine.Undisturbed, Classical.not_forall, exists_prop] using hquiet
      obtain ⟨m, x, mask, ha, hready⟩ := hdraw
      exact .inr ⟨rfl, hready, m, x, mask, ha⟩

/-- **How a step goes**: it is refused at once, it is a step of the engine alone, or a request of
the host waits before the number that it asks for. -/
theorem stepEngine_cases (he : h.engines[c]? = some e) :
    (∃ r, (r = .notStarted ∨ r = .busy .step) ∧ stepEngine perform c h = (.error r, h)) ∨
      e.started = true ∧ e.busy = false ∧
        (stepEngine perform c h = (e.outcome, (h.putEngine c e.stepped).addLines e.stepLines) ∨
          e.machine.halted = none ∧ ¬e.source.IsReady ∧
            ∃ m x mask, e.machine.advance = .drawing m x mask) := by
  cases hs : e.started with
  | false => exact .inl ⟨_, .inl rfl, stepEngine_of_not_started he hs⟩
  | true =>
    cases hb : e.busy with
    | true => exact .inl ⟨_, .inr rfl, stepEngine_of_busy he hs hb⟩
    | false => exact .inr ⟨rfl, rfl, stepEngine_of_free he hs hb⟩

/-- A step does not depend on how requests are performed, or it asks for a number. -/
theorem stepEngine_eq_or_drawing (he : h.engines[c]? = some e) :
    (∃ result, ∀ perform, stepEngine perform c h = result) ∨
      e.started = true ∧ e.busy = false ∧ e.machine.halted = none ∧
        ∃ m x mask, e.machine.advance = .drawing m x mask := by
  cases hs : e.started with
  | false => exact .inl ⟨_, fun _ => stepEngine_of_not_started he hs⟩
  | true =>
    cases hb : e.busy with
    | true => exact .inl ⟨_, fun _ => stepEngine_of_busy he hs hb⟩
    | false =>
      cases hh : e.machine.halted with
      | some r => exact .inl ⟨_, fun _ => stepEngine_of_isHalted he hs hb hh⟩
      | none =>
        cases ha : e.machine.advance with
        | drawing m x mask => exact .inr ⟨rfl, rfl, rfl, m, x, mask, rfl⟩
        | _ =>
          have hquiet : e.Undisturbed := fun m x mask hd => by
            rw [ha] at hd
            cases hd
          exact .inl ⟨_, fun _ => stepEngine_apply he hs hb hquiet⟩

theorem tickEngine_apply (he : h.engines[c]? = some e) (hfree : e.busy = false) :
    tickEngine c h = (.ok (), h.putEngine c { e with machine := e.machine.tickTimers }) := by
  have hmarked : (h.putEngine c (e.marked true)).engines[c]? = some (e.marked true) :=
    Host.engines_putEngine he
  have htick : modifyMachine c Machine.tickTimers (h.putEngine c (e.marked true)) =
      (.ok (), (h.putEngine c
        { e.marked true with machine := e.machine.tickTimers }).addLines []) := by
    rw [modifyMachine_apply hmarked, Host.putEngine_putEngine, Host.addLines_nil]
    rfl
  rw [tickEngine, exclusive_apply he hfree _ htick, Host.addLines_nil]
  exact congrArg (fun busy => (Except.ok (), h.putEngine c
    { e with machine := e.machine.tickTimers, busy })) hfree.symm

theorem setKey_apply (he : h.engines[c]? = some e) (hfree : e.busy = false) (code : Int)
    (down : Bool) :
    setKey c code down h = (Engine.keyOutcome code, h.putEngine c (e.keyed code down)) := by
  have hmarked : (h.putEngine c (e.marked true)).engines[c]? = some (e.marked true) :=
    Host.engines_putEngine he
  have hkey : (do
      let key ← required (.keyOutOfRange code) (Keypad.key? code)
      modifyMachine c fun m => { m with keypad := m.keypad.set key down } : HostM Unit)
        (h.putEngine c (e.marked true)) =
      (Engine.keyOutcome code,
        (h.putEngine c ((e.marked true).keyed code down)).addLines []) := by
    rw [Engine.keyOutcome, Engine.keyed, Host.addLines_nil]
    cases Keypad.key? code with
    | none => rw [bind_of_error (required_none _ _)]
    | some key =>
      rw [bind_of_ok (required_some _ _ _), modifyMachine_apply hmarked, Host.putEngine_putEngine]
  have hfree' : ((e.marked true).keyed code down).marked false = e.keyed code down := by
    rw [Engine.keyed, Engine.keyed]
    cases Keypad.key? code with
    | none => exact congrArg (fun busy => { e with busy }) hfree.symm
    | some key =>
      exact congrArg (fun busy => { e with
        machine := { e.machine with keypad := e.machine.keypad.set key down }, busy }) hfree.symm
  rw [setKey, exclusive_apply he hfree _ hkey, Host.addLines_nil, hfree']

theorem readScreen_apply (he : h.engines[c]? = some e) (hfree : e.busy = false) :
    readScreen c h = (.ok e.machine.display.hexRows, h) := by
  have hmarked : (h.putEngine c (e.marked true)).engines[c]? = some (e.marked true) :=
    Host.engines_putEngine he
  have hread : (do return (← machine c).display.hexRows : HostM (List String))
      (h.putEngine c (e.marked true)) =
        (.ok e.machine.display.hexRows, (h.putEngine c (e.marked true)).addLines []) := by
    rw [bind_of_ok (machine_apply hmarked), Host.addLines_nil]
    rfl
  have hsame : (e.marked true).marked false = e :=
    congrArg (fun busy => { e with busy }) hfree.symm
  rw [readScreen, exclusive_apply he hfree _ hread, Host.addLines_nil, hsame,
    Host.putEngine_eq_self he]

end HostM

end Chip8
