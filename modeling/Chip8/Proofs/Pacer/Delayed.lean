import Chip8.Proofs.Engine.Step
import Chip8.Proofs.Pacer.Order

/-!
# Hosts at a later time

Time is read from the clock of a pacer only to be compared with its base.  So if
clock and base are moved on by the same amount, nothing else changes: the pacer
does what it would have done, at the later time.

`Host.delayed` moves them on, together with the bases that have been noted.
`Shifts` relates what is done at the earlier time to what is done at the later
time: it gives the same, or what corresponds to it, and the hosts that it leaves
are again delayed by as much.  The two actions are written the same way, but for
values that they have read before.

All requests that drive the current pacer are of this kind, with frame callback,
sleeps and random numbers that make such requests themselves (`Request.Drives`).
A run of so many seconds is not: it waits for an instant of its own.

* `shifts_rebase`, `shifts_instructionsDue`: where the clock is read.
* `shifts_performWithin`: every request that drives the pacer, with those in the
  middle of it.
-/

namespace Chip8

/-! ### Requests that drive the pacer -/

/-- The request drives the current pacer, or asks about it, and the requests in the middle of it do
the same. -/
inductive Request.Drives : Request → Prop
  | runSteps (count : Int) : Drives (.runSteps count)
  | instructionsDue : Drives .instructionsDue
  | powerOn : Drives .powerOn
  | powerOff : Drives .powerOff
  | pause : Drives .pause
  | resume : Drives .resume
  | setRate (rate : Float) : Drives (.setRate rate)
  | advanceClock (ns : Int) : Drives (.advanceClock ns)
  | run {sleeps : Script Request} (hsleeps : ∀ k, ∀ r ∈ sleeps.requests k, Drives r)
    (maxBatch limit : Int) : Drives (.run maxBatch sleeps limit)
  | isRunning : Drives .isRunning
  | lastPaced : Drives .lastPaced
  | rates : Drives .rates

/-- All requests of the script drive the pacer. -/
def Script.Drives (script : Script Request) : Prop :=
  ∀ k, ∀ r ∈ script.requests k, r.Drives

/-- Whether the request drives the pacer and holds no other requests. -/
def Request.isDrive : Request → Bool
  | runSteps _ | instructionsDue | powerOn | powerOff | pause | resume => true
  | setRate _ | advanceClock _ | isRunning | lastPaced | rates => true
  | _ => false

theorem Request.drives_of_isDrive {r : Request} (hr : r.isDrive = true) : r.Drives := by
  cases r with
  | runSteps count => exact .runSteps count
  | instructionsDue => exact .instructionsDue
  | powerOn => exact .powerOn
  | powerOff => exact .powerOff
  | pause => exact .pause
  | resume => exact .resume
  | setRate rate => exact .setRate rate
  | advanceClock ns => exact .advanceClock ns
  | isRunning => exact .isRunning
  | lastPaced => exact .lastPaced
  | rates => exact .rates
  | _ => cases hr

theorem Script.drives_of_all {script : Script Request}
    (h : (script.entries.all fun entry => entry.2.all Request.isDrive) = true) :
    script.Drives := by
  intro k r hr
  rw [requests] at hr
  cases hlookup : script.entries.lookup k with
  | none =>
    rw [hlookup] at hr
    cases hr
  | some rs =>
    rw [hlookup] at hr
    obtain ⟨l₁, l₂, hentries, -⟩ := List.lookup_eq_some_iff.mp hlookup
    have hmem : (k, rs) ∈ script.entries := by
      rw [hentries]
      exact List.mem_append_right l₁ List.mem_cons_self
    exact Request.drives_of_isDrive (List.all_eq_true.mp (List.all_eq_true.mp h _ hmem) r hr)

/-- All requests that wait before a number drive the pacer. -/
def RandomSource.Drives (s : RandomSource) : Prop :=
  ∀ draw ∈ s.draws, ∀ r, draw.before = some r → r.Drives

theorem RandomSource.IsPlain.drives {s : RandomSource} (h : s.IsPlain) : s.Drives := by
  intro draw hdraw r hr
  rw [h draw hdraw] at hr
  cases hr

/-! ### The same host at a later time -/

/-- By how many nanoseconds the time of a pacer is moved on, with its clock and the engine that it
steps. -/
structure Delay where
  pacer : Nat
  clock : Nat
  engine : Nat
  ns : Int

def Pacer.delayed (ns : Int) (q : Pacer) : Pacer :=
  { q with base := q.base + ns }

/-- The answer at the later time: the base is later, and all else is the same. -/
def Reply.delayed (ns : Int) : Reply → Reply
  | .rates timerInterval period base rate => .rates timerInterval period (base + ns) rate
  | a => a

def Note.delayed (ns : Int) : Note → Note
  | .reply a => .reply (a.delayed ns)
  | .frame k count => .frame k count

/-- The host at the later time. -/
def Host.delayed (s : Delay) (h : Host) : Host :=
  { h with
    pacers := h.pacers.modify s.pacer (Pacer.delayed s.ns)
    clocks := h.clocks.modify s.clock (·.advance s.ns)
    notes := h.notes.map (Note.delayed s.ns) }

/-- The pacer follows the clock, steps the engine, and its callback makes requests that drive it. -/
structure Pacer.Led (s : Delay) (q : Pacer) : Prop where
  clock_eq : q.clock = s.clock
  engine_eq : q.handle.engine = s.engine
  frames : ∀ script, q.frames = some script → script.Drives

/-- The pacer is the current one, and what happens in the middle of its steps drives it. -/
structure Host.Led (s : Delay) (h : Host) : Prop where
  current : h.pacer = some s.pacer
  pacer : ∀ q, h.pacers[s.pacer]? = some q → q.Led s
  source : ∀ e : Engine, h.engines[s.engine]? = some e → e.source.Drives

/-! ### Changes of a pacer -/

namespace Pacer

variable {s : Delay} {q : Pacer}

theorem Led.delayed (h : q.Led s) : (q.delayed s.ns).Led s :=
  ⟨h.clock_eq, h.engine_eq, h.frames⟩

theorem Led.of_sameSetup {q' : Pacer} (h : q.Led s) (hclock : q'.clock = q.clock)
    (hsetup : q.SameSetup q') : q'.Led s where
  clock_eq := hclock.trans h.clock_eq
  engine_eq := (congrArg Handle.engine hsetup.handle_eq).trans h.engine_eq
  frames script hs := h.frames script (hsetup.frames_eq.symm.trans hs)

theorem clock_startTimers (q : Pacer) : q.startTimers.clock = q.clock := by
  rw [startTimers]
  split <;> rfl

theorem clock_startFrames (q : Pacer) : q.startFrames.clock = q.clock := by
  rw [startFrames]
  split <;> rfl

theorem clock_startPeriodic (q : Pacer) : q.startPeriodic.clock = q.clock := by
  rw [startPeriodic]
  split
  · rw [clock_startFrames, clock_startTimers]
  · rfl

theorem clock_pauseNow (q : Pacer) : q.pauseNow.clock = q.clock := by
  rw [pauseNow]
  split <;> rfl

theorem startTimers_delayed (ns : Int) (q : Pacer) :
    (q.delayed ns).startTimers = q.startTimers.delayed ns := by
  show (if q.timerActive = true then _ else _) = _
  rw [startTimers]
  split <;> rfl

theorem startFrames_delayed (ns : Int) (q : Pacer) :
    (q.delayed ns).startFrames = q.startFrames.delayed ns := by
  show (if (q.frameActive || q.frames.isNone) = true then _ else _) = _
  rw [startFrames]
  split <;> rfl

theorem startPeriodic_delayed (ns : Int) (q : Pacer) :
    (q.delayed ns).startPeriodic = q.startPeriodic.delayed ns := by
  show (if q.power = .running then (q.delayed ns).startTimers.startFrames else _) = _
  rw [startPeriodic, startTimers_delayed, startFrames_delayed]
  split <;> rfl

theorem pauseNow_delayed (ns : Int) (q : Pacer) :
    (q.delayed ns).pauseNow = q.pauseNow.delayed ns := by
  show (if q.power = .running then _ else _) = _
  rw [pauseNow]
  split <;> rfl

end Pacer

theorem modify_comm {α : Type} (xs : Array α) (i j : Nat) {f g : α → α}
    (hfg : ∀ a, g (f a) = f (g a)) : (xs.modify i f).modify j g = (xs.modify j g).modify i f := by
  apply Array.ext_getElem?
  intro k
  rw [Array.getElem?_modify, Array.getElem?_modify, Array.getElem?_modify, Array.getElem?_modify]
  by_cases hi : i = k <;> by_cases hj : j = k
  · rw [if_pos hi, if_pos hj, if_pos hj, if_pos hi, Option.map_map, Option.map_map]
    exact congrArg (xs[k]?.map ·) (funext hfg)
  all_goals simp only [if_pos, if_neg, hi, hj, not_false_eq_true]

theorem Pace.baseTime_add (now ns count : Int) (rate : Float) :
    baseTime (now + ns) count rate = (baseTime now count rate).map (· + ns) := by
  rw [baseTime, baseTime]
  by_cases hrate : rate ≤ 0
  · rw [if_pos hrate, if_pos hrate]
    rfl
  rw [if_neg hrate, if_neg hrate]
  cases Binary64.ofInt? count with
  | error e => rfl
  | ok c =>
    show (Binary64.truncate (c / rate * second) >>= fun elapsed => pure (now + ns - elapsed)) =
      (Binary64.truncate (c / rate * second) >>= fun elapsed => pure (now - elapsed)).map (· + ns)
    cases Binary64.truncate (c / rate * second) with
    | error e => rfl
    | ok elapsed =>
      have hsum : now + ns - elapsed = now - elapsed + ns := by omega
      exact congrArg Except.ok hsum

/-! ### Actions at a later time -/

namespace HostM

variable {α β : Type} (s : Delay)

/-- The second action does at the later time what the first one does at the earlier time, and gives
what corresponds by `f` to what that one gives. -/
class Shifts (f : α → α) (x y : HostM α) : Prop where
  led : ∀ h : Host, h.Led s → (x h).2.Led s
  eq : ∀ h : Host, h.Led s → y (h.delayed s) = ((x h).1.map f, (x h).2.delayed s)

variable {s}

/-! ### Actions put together -/

theorem shifts_bind_map {f : α → α} {f' : β → β} {x y : HostM α} {g g' : α → HostM β}
    (hx : Shifts s f x y) (hg : ∀ a, Shifts s f' (g a) (g' (f a))) :
    Shifts s f' (x >>= g) (y >>= g') where
  led h hled := by
    have hafter := hx.led h hled
    rw [bind_apply]
    rcases hr : x h with ⟨r | a, h'⟩ <;> rw [hr] at hafter
    · exact hafter
    · exact (hg a).led h' hafter
  eq h hled := by
    have hafter := hx.led h hled
    have hlater := hx.eq h hled
    rcases hr : x h with ⟨r | a, h'⟩ <;> rw [hr] at hafter hlater
    · rw [bind_of_error hlater, bind_of_error hr]
      rfl
    · rw [bind_of_ok hlater, bind_of_ok hr]
      exact (hg a).eq h' hafter

instance shifts_bind {f : β → β} {x y : HostM α} {g g' : α → HostM β} [hx : Shifts s id x y]
    [hg : ∀ a, Shifts s f (g a) (g' a)] : Shifts s f (x >>= g) (y >>= g') :=
  shifts_bind_map hx hg

theorem shifts_then {f : β → β} {x y : HostM α} {g g' : α → HostM β} [Shifts s id x y]
    (hg : ∀ a, Shifts s f (g a) (g' a)) : Shifts s f (x >>= g) (y >>= g') :=
  inferInstance

instance shifts_ite {f : α → α} {c : Prop} [Decidable c] {x y x' y' : HostM α} [hx : Shifts s f x y]
    [hx' : Shifts s f x' y'] : Shifts s f (if c then x else x') (if c then y else y') := by
  split
  · exact hx
  · exact hx'

theorem shifts_cond {f : α → α} {c : Prop} [Decidable c] {x y x' y' : HostM α}
    (hx : Shifts s f x y) (hx' : Shifts s f x' y') :
    Shifts s f (if c then x else x') (if c then y else y') :=
  inferInstance

theorem Shifts.of_eq {x : HostM α} (hled : ∀ h : Host, h.Led s → (x h).2.Led s)
    (heq : ∀ h, x (h.delayed s) = ((x h).1, (x h).2.delayed s)) : Shifts s id x x where
  led := hled
  eq h _ := by
    rw [heq, Except.map_id]
    rfl

theorem Shifts.of_unchanged {x : HostM α} (hx : ∀ h, (x h).2 = h)
    (heq : ∀ h, (x (h.delayed s)).1 = (x h).1) : Shifts s id x x := by
  refine .of_eq (fun h hled => ?_) fun h => Prod.ext (heq h) ?_
  · rw [hx]
    exact hled
  · rw [hx, hx]

instance shifts_pure (a : α) : Shifts s id (pure a) (pure a) :=
  .of_unchanged (fun _ => rfl) fun _ => rfl

instance shifts_throw (f : α → α) (r : Refusal) : Shifts s f (throw r) (throw r) where
  led _ hled := hled
  eq _ _ := rfl

instance shifts_attempt {x y : HostM α} [hx : Shifts s id x y] :
    Shifts s id (attempt x) (attempt y) where
  led h hled := hx.led h hled
  eq h hled := by
    rw [attempt_apply, attempt_apply, hx.eq h hled, Except.map_id]
    rfl

instance shifts_ofExcept (x : Except Refusal α) : Shifts s id (ofExcept x) (ofExcept x) :=
  .of_unchanged (fun h => by rw [ofExcept_apply]) fun h => by rw [ofExcept_apply, ofExcept_apply]

instance shifts_ofConversion (x : Except Binary64.ConversionError α) :
    Shifts s id (ofConversion x) (ofConversion x) :=
  shifts_ofExcept _

theorem shifts_pure_map (f : α → α) (a : α) : Shifts s f (pure a) (pure (f a)) where
  led _ hled := hled
  eq _ _ := rfl

theorem shifts_answer {x : HostM α} {f : α → Reply} [hx : Shifts s id x x]
    (hf : ∀ a, (f a).delayed s.ns = f a) :
    Shifts s (Reply.delayed s.ns) (x >>= fun a => pure (f a)) (x >>= fun a => pure (f a)) := by
  refine shifts_then fun a => ?_
  have hpure : Shifts s (Reply.delayed s.ns) (pure (f a) : HostM Reply)
      (pure ((f a).delayed s.ns)) := shifts_pure_map _ _
  rw [hf] at hpure
  exact hpure

/-! ### Notes and log -/

theorem shifts_note {n n' : Note} (hn : n' = n.delayed s.ns) : Shifts s id (note n) (note n') where
  led _ hled := ⟨hled.current, hled.pacer, hled.source⟩
  eq h _ := by
    have hpush : (h.notes.map (Note.delayed s.ns)).push n' =
        (h.notes.push n).map (Note.delayed s.ns) := by
      rw [Array.map_push, hn]
    exact congrArg (fun notes => (Except.ok (), { h.delayed s with notes })) hpush

instance shifts_log (line : LogLine) : Shifts s id (log line) (log line) :=
  .of_eq (fun _ hled => ⟨hled.current, hled.pacer, hled.source⟩) fun _ => rfl

instance shifts_logAll (lines : List LogLine) : Shifts s id (logAll lines) (logAll lines) := by
  refine .of_eq (fun h hled => ?_) fun h => ?_
  · rw [logAll_apply]
    exact ⟨hled.current, hled.pacer, hled.source⟩
  · rw [logAll_apply, logAll_apply]
    rfl

/-! ### The engine -/

theorem shifts_engine_bind {f : α → α} {g g' : Engine → HostM α}
    (hg : ∀ e : Engine, e.source.Drives → Shifts s f (g e) (g' e)) :
    Shifts s f (engine s.engine >>= g) (engine s.engine >>= g') where
  led h hled := by
    cases he : h.engines[s.engine]? with
    | none =>
      rw [bind_of_error (engine_of_eq_none he)]
      exact hled
    | some e =>
      rw [bind_of_ok (engine_apply he)]
      exact (hg e (hled.source e he)).led h hled
  eq h hled := by
    cases he : h.engines[s.engine]? with
    | none =>
      have he' : (h.delayed s).engines[s.engine]? = none := he
      rw [bind_of_error (engine_of_eq_none he), bind_of_error (engine_of_eq_none he')]
      rfl
    | some e =>
      have he' : (h.delayed s).engines[s.engine]? = some e := he
      rw [bind_of_ok (engine_apply he), bind_of_ok (engine_apply he')]
      exact (hg e (hled.source e he)).eq h hled

theorem shifts_modifyEngine {f : Engine → Engine}
    (hf : ∀ e : Engine, (f e).source.draws = e.source.draws) :
    Shifts s id (modifyEngine s.engine f) (modifyEngine s.engine f) := by
  refine .of_eq (fun h hled => ⟨hled.current, hled.pacer, fun e he => ?_⟩) fun _ => rfl
  have hmodified : (h.engines.modify s.engine f)[s.engine]? = some e := he
  rw [Array.getElem?_modify, if_pos rfl, Option.map_eq_some_iff] at hmodified
  obtain ⟨e₀, he₀, rfl⟩ := hmodified
  intro draw hdraw
  rw [hf] at hdraw
  exact hled.source e₀ he₀ draw hdraw

instance shifts_modifyMachine (f : Machine → Machine) :
    Shifts s id (modifyMachine s.engine f) (modifyMachine s.engine f) :=
  shifts_modifyEngine fun _ => rfl

instance shifts_setMachine (m : Machine) :
    Shifts s id (setMachine s.engine m) (setMachine s.engine m) :=
  shifts_modifyEngine fun _ => rfl

instance shifts_exclusive (activity : Activity) {x y : HostM α} [Shifts s id x y] :
    Shifts s id (exclusive s.engine activity x) (exclusive s.engine activity y) := by
  have hmark (b : Bool) : Shifts s id (modifyEngine s.engine fun e => { e with busy := b })
      (modifyEngine s.engine fun e => { e with busy := b }) := shifts_modifyEngine fun _ => rfl
  unfold exclusive
  refine shifts_engine_bind fun e _ => ?_
  infer_instance

instance shifts_halt (address : Int) (reason : HaltReason) :
    Shifts s id (halt s.engine address reason) (halt s.engine address reason) := by
  unfold halt
  infer_instance

instance shifts_tickEngine : Shifts s id (tickEngine s.engine) (tickEngine s.engine) := by
  unfold tickEngine
  infer_instance

instance shifts_isCurrent (x : Handle) : Shifts s id (isCurrent x) (isCurrent x) :=
  .of_unchanged (isCurrent_unchanged x) fun _ => isCurrent_of_eq rfl rfl

/-! ### Requests in the middle of a call -/

variable (s) in
/-- Requests that drive the pacer are performed at the later time as at the earlier time. -/
class ShiftsRequests (perform : Request → HostM Reply) : Prop where
  shifts : ∀ r : Request, r.Drives → Shifts s (Reply.delayed s.ns) (perform r) (perform r)

section Performing

variable (perform : Request → HostM Reply) [hp : ShiftsRequests s perform]

theorem shifts_noted {r : Request} (hr : r.Drives) {g g' : HostM α} {f : α → α}
    (hg : Shifts s f g g') :
    Shifts s f (do note (.reply (← perform r)); g) (do note (.reply (← perform r)); g') := by
  refine shifts_bind_map (hp.shifts r hr) fun a => ?_
  have hnote : Shifts s id (note (.reply a)) (note (.reply (a.delayed s.ns))) := shifts_note rfl
  infer_instance

theorem shifts_performAll {requests : List Request} (hrequests : ∀ r ∈ requests, r.Drives) :
    Shifts s id (performAll perform requests) (performAll perform requests) := by
  induction requests with
  | nil => exact shifts_pure ()
  | cons r rest ih =>
    have hrest := ih fun r' hr' => hrequests r' (List.mem_cons_of_mem r hr')
    exact shifts_noted perform (hrequests r List.mem_cons_self) hrest

/-! ### Steps -/

theorem shifts_byteOf {draw? : Option (Draw Request)}
    (hdraw : ∀ draw, draw? = some draw → ∀ r, draw.before = some r → r.Drives) :
    Shifts s id (byteOf perform draw?) (byteOf perform draw?) := by
  rcases draw? with _ | ⟨_ | r, value⟩
  · exact shifts_pure _
  · exact shifts_pure _
  · exact shifts_noted perform (hdraw _ rfl r rfl) (shifts_pure _)

instance shifts_drawByte :
    Shifts s id (drawByte perform s.engine) (drawByte perform s.engine) := by
  have hadvance : Shifts s id
      (modifyEngine s.engine fun e => { e with source := e.source.advance })
      (modifyEngine s.engine fun e => { e with source := e.source.advance }) :=
    shifts_modifyEngine fun _ => rfl
  rw [drawByte_eq]
  refine shifts_engine_bind fun e he => ?_
  have hbyte : Shifts s id (byteOf perform e.source.next?) (byteOf perform e.source.next?) :=
    shifts_byteOf perform fun draw hdraw => he draw (List.mem_of_getElem? hdraw)
  infer_instance

instance shifts_stepMachine :
    Shifts s id (stepMachine perform s.engine) (stepMachine perform s.engine) := by
  unfold stepMachine
  refine shifts_engine_bind fun e _ => ?_
  dsimp only
  cases e.machine.halted with
  | some reason => exact shifts_pure _
  | none =>
    refine shifts_then fun _ => ?_
    cases e.machine.advance with
    | drawing m x mask =>
      refine shifts_then fun _ => shifts_then fun outcome => ?_
      rcases outcome with r | byte
      · cases r <;> dsimp only <;> infer_instance
      · infer_instance
    | _ =>
      dsimp only
      infer_instance

instance shifts_stepEngine :
    Shifts s id (stepEngine perform s.engine) (stepEngine perform s.engine) := by
  have hnote (status : Status) :
      Shifts s id (modifyEngine s.engine fun e => { e with lastStatus := some status })
        (modifyEngine s.engine fun e => { e with lastStatus := some status }) :=
    shifts_modifyEngine fun _ => rfl
  unfold stepEngine
  refine shifts_engine_bind fun e _ => ?_
  infer_instance

/-! ### Reading the pacer and its clock -/

variable {f : α → α}

/-- What is done with the pacer after a look at it, which shows the later base. -/
theorem shifts_pacerAt_bind {g g' : Pacer → HostM α}
    (hg : ∀ q : Pacer, q.Led s → Shifts s f (g q) (g' (q.delayed s.ns))) :
    Shifts s f (pacerAt s.pacer >>= g) (pacerAt s.pacer >>= g') where
  led h hled := by
    cases hq : h.pacers[s.pacer]? with
    | none =>
      rw [bind_of_error (pacerAt_of_eq_none hq)]
      exact hled
    | some q =>
      rw [bind_of_ok (pacerAt_apply hq)]
      exact (hg q (hled.pacer q hq)).led h hled
  eq h hled := by
    have hlater : (h.delayed s).pacers[s.pacer]? =
        h.pacers[s.pacer]?.map (Pacer.delayed s.ns) := by
      show (h.pacers.modify s.pacer _)[s.pacer]? = _
      rw [Array.getElem?_modify, if_pos rfl]
    cases hq : h.pacers[s.pacer]? with
    | none =>
      rw [hq] at hlater
      rw [bind_of_error (pacerAt_of_eq_none hq), bind_of_error (pacerAt_of_eq_none hlater)]
      rfl
    | some q =>
      rw [hq] at hlater
      rw [bind_of_ok (pacerAt_apply hq), bind_of_ok (pacerAt_apply hlater)]
      exact (hg q (hled.pacer q hq)).eq h hled

theorem shifts_pacerAt_bind_same {g : Pacer → HostM α}
    (hbase : ∀ q : Pacer, g (q.delayed s.ns) = g q)
    (hg : ∀ q : Pacer, q.Led s → Shifts s f (g q) (g q)) :
    Shifts s f (pacerAt s.pacer >>= g) (pacerAt s.pacer >>= g) := by
  refine shifts_pacerAt_bind fun q hq => ?_
  rw [hbase]
  exact hg q hq

theorem shifts_modifyPacer {f f' : Pacer → Pacer}
    (hled : ∀ q : Pacer, q.Led s → (f q).Led s)
    (heq : ∀ q : Pacer, f' (q.delayed s.ns) = (f q).delayed s.ns) :
    Shifts s id (modifyPacer s.pacer f) (modifyPacer s.pacer f') where
  led h hh := by
    refine ⟨hh.current, fun q hq => ?_, hh.source⟩
    have hmodified : (h.pacers.modify s.pacer f)[s.pacer]? = some q := hq
    rw [Array.getElem?_modify, if_pos rfl, Option.map_eq_some_iff] at hmodified
    obtain ⟨q₀, hq₀, rfl⟩ := hmodified
    exact hled q₀ (hh.pacer q₀ hq₀)
  eq h _ := by
    have hpacers : (h.pacers.modify s.pacer (Pacer.delayed s.ns)).modify s.pacer f' =
        (h.pacers.modify s.pacer f).modify s.pacer (Pacer.delayed s.ns) := by
      rw [modify_modify, modify_modify]
      exact congrArg _ (funext heq)
    exact congrArg (fun pacers => (Except.ok (), { h.delayed s with pacers })) hpacers

theorem readClock_eq (k : Nat) (h : Host) :
    readClock k h =
      (h.clocks[k]?.elim (.error .noPacer) fun c => .ok c.read.now,
        { h with clocks := h.clocks.modify k Clock.read }) := by
  rw [readClock, bind_of_ok (modify_apply _ _), bind_of_ok (get_apply _)]
  show (required .noPacer (h.clocks.modify k Clock.read)[k]? >>= _) _ = _
  rw [Array.getElem?_modify, if_pos rfl]
  cases h.clocks[k]? <;> rfl

/-- The clock shows the later time. -/
theorem shifts_readClock : Shifts s (· + s.ns) (readClock s.clock) (readClock s.clock) where
  led h hled := by
    rw [readClock_eq]
    exact ⟨hled.current, hled.pacer, hled.source⟩
  eq h _ := by
    have hread (c : Clock) : (c.advance s.ns).read = c.read.advance s.ns := rfl
    have hclocks : (h.clocks.modify s.clock (·.advance s.ns)).modify s.clock Clock.read =
        (h.clocks.modify s.clock Clock.read).modify s.clock (·.advance s.ns) := by
      rw [modify_modify, modify_modify]
      exact congrArg _ (funext hread)
    have hlater : (h.delayed s).clocks[s.clock]? = h.clocks[s.clock]?.map (·.advance s.ns) := by
      show (h.clocks.modify s.clock _)[s.clock]? = _
      rw [Array.getElem?_modify, if_pos rfl]
    rw [readClock_eq, readClock_eq, hlater]
    refine Prod.ext ?_ (congrArg (fun clocks => { h.delayed s with clocks }) hclocks)
    cases h.clocks[s.clock]? with
    | none => rfl
    | some c => exact congrArg Except.ok (c.read.now_advance s.ns)

/-- **A new base** is later by as much as the clock. -/
instance shifts_rebase : Shifts s id (rebase s.pacer) (rebase s.pacer) := by
  have hbase (base : Int) : Shifts s id (modifyPacer s.pacer fun q => { q with base })
      (modifyPacer s.pacer fun q => { q with base := base + s.ns }) :=
    shifts_modifyPacer (fun _ hq => ⟨hq.clock_eq, hq.engine_eq, hq.frames⟩) fun _ => rfl
  unfold rebase
  refine shifts_pacerAt_bind fun q hq => ?_
  show Shifts s id (readClock q.clock >>= _) (readClock q.clock >>= _)
  rw [hq.clock_eq]
  refine shifts_bind_map shifts_readClock fun now => ?_
  have htime : Pace.baseTime (now + s.ns) q.count q.rate =
      (Pace.baseTime now q.count q.rate).map (· + s.ns) := Pace.baseTime_add now s.ns q.count q.rate
  show Shifts s id _ (ofConversion (Pace.baseTime (now + s.ns) q.count q.rate) >>= _)
  rw [htime]
  cases Pace.baseTime now q.count q.rate with
  | error e => exact shifts_throw id (.conversion e)
  | ok base => exact hbase base

/-- **As many instructions are due**, as clock and base are late by as much. -/
instance shifts_instructionsDue :
    Shifts s id (instructionsDue s.pacer) (instructionsDue s.pacer) := by
  unfold instructionsDue
  refine shifts_pacerAt_bind fun q hq => ?_
  show Shifts s id (readClock q.clock >>= _) (readClock q.clock >>= _)
  rw [hq.clock_eq]
  refine shifts_bind_map shifts_readClock fun now => ?_
  have helapsed : now + s.ns - (q.base + s.ns) = now - q.base := by omega
  show Shifts s id _ (ofConversion
    (Pace.instructionsDue (now + s.ns - (q.base + s.ns)) q.count q.rate))
  rw [helapsed]
  infer_instance

/-! ### Cues -/

omit hp in
theorem shifts_tickHandle {x : Handle} (hx : x.engine = s.engine) :
    Shifts s id (tickHandle x) (tickHandle x) := by
  unfold tickHandle
  rw [hx]
  infer_instance

theorem shifts_stepHandle {x : Handle} (hx : x.engine = s.engine) :
    Shifts s id (stepHandle perform x) (stepHandle perform x) := by
  unfold stepHandle
  rw [hx]
  infer_instance

theorem shifts_showFrame {script : Script Request} (hscript : script.Drives) (count : Nat) :
    Shifts s id (showFrame perform script count) (showFrame perform script count) := by
  have hcount : Shifts s id (modify fun h => { h with frames := h.frames + 1 } : HostM Unit)
      (modify fun h => { h with frames := h.frames + 1 }) :=
    .of_eq (fun _ hled => ⟨hled.current, hled.pacer, hled.source⟩) fun _ => rfl
  have hrest (k : Nat) : Shifts s id
      (do note (.frame k count); performAll perform (script.requests k))
      (do note (.frame k count); performAll perform (script.requests k)) := by
    have hnote : Shifts s id (note (.frame k count)) (note (.frame k count)) := shifts_note rfl
    have hall : Shifts s id (performAll perform (script.requests k))
        (performAll perform (script.requests k)) := shifts_performAll perform (hscript k)
    infer_instance
  unfold showFrame
  refine shifts_then fun _ => ⟨fun h hled => (hrest h.frames).led h hled, fun h hled => ?_⟩
  exact (hrest h.frames).eq h hled

omit hp in
theorem shifts_modifyPacer_of_setup {f : Pacer → Pacer}
    (hclock : ∀ q : Pacer, (f q).clock = q.clock) (hsetup : ∀ q : Pacer, q.SameSetup (f q))
    (heq : ∀ q : Pacer, f (q.delayed s.ns) = (f q).delayed s.ns) :
    Shifts s id (modifyPacer s.pacer f) (modifyPacer s.pacer f) :=
  shifts_modifyPacer (fun q hq => hq.of_sameSetup (hclock q) (hsetup q)) heq

instance shifts_fire (cue : Cue) :
    Shifts s id (fire perform s.pacer cue) (fire perform s.pacer cue) := by
  cases cue with
  | tickTimers =>
    have hagain : Shifts s id (modifyPacer s.pacer fun q => q.enqueue .tickTimers q.timerInterval)
        (modifyPacer s.pacer fun q => q.enqueue .tickTimers q.timerInterval) :=
      shifts_modifyPacer_of_setup (fun _ => rfl) (fun _ => ⟨rfl, rfl⟩) fun _ => rfl
    refine shifts_pacerAt_bind_same (fun _ => rfl) fun q hq => ?_
    have htick := shifts_tickHandle hq.engine_eq
    infer_instance
  | showFrame =>
    have hagain : Shifts s id (modifyPacer s.pacer fun q => q.enqueue .showFrame q.frameInterval)
        (modifyPacer s.pacer fun q => q.enqueue .showFrame q.frameInterval) :=
      shifts_modifyPacer_of_setup (fun _ => rfl) (fun _ => ⟨rfl, rfl⟩) fun _ => rfl
    refine shifts_pacerAt_bind_same (fun _ => rfl) fun q hq => ?_
    cases hframes : q.frames with
    | none => infer_instance
    | some script =>
      have hshow : Shifts s id (showFrame perform script q.count)
          (showFrame perform script q.count) :=
        shifts_showFrame perform (hq.frames script hframes) q.count
      infer_instance
  | powerOff => exact shifts_modifyPacer_of_setup (fun _ => rfl) (fun _ => ⟨rfl, rfl⟩) fun _ => rfl
  | pause =>
    exact shifts_modifyPacer_of_setup Pacer.clock_pauseNow Pacer.SameSetup.pauseNow
      (Pacer.pauseNow_delayed s.ns)
  | resume =>
    have hpower : Shifts s id (modifyPacer s.pacer fun q => { q with power := .running })
        (modifyPacer s.pacer fun q => { q with power := .running }) :=
      shifts_modifyPacer_of_setup (fun _ => rfl) (fun _ => ⟨rfl, rfl⟩) fun _ => rfl
    refine shifts_pacerAt_bind_same (fun _ => rfl) fun q _ => ?_
    infer_instance

instance shifts_fireAll (events : List (Event Cue)) :
    Shifts s id (fireAll perform s.pacer events) (fireAll perform s.pacer events) := by
  induction events with
  | nil => exact shifts_pure ()
  | cons e rest ih =>
    unfold fireAll
    infer_instance

instance shifts_settle : Shifts s id (settle perform s.pacer) (settle perform s.pacer) := by
  have htake : Shifts s id (modifyPacer s.pacer Pacer.takeDue)
      (modifyPacer s.pacer Pacer.takeDue) :=
    shifts_modifyPacer_of_setup (fun _ => rfl) (fun _ => ⟨rfl, rfl⟩) fun _ => rfl
  unfold settle
  refine shifts_pacerAt_bind_same (fun _ => rfl) fun q _ => ?_
  infer_instance

instance shifts_cueNow (cue : Cue) :
    Shifts s id (cueNow perform s.pacer cue) (cueNow perform s.pacer cue) := by
  have hcue : Shifts s id (modifyPacer s.pacer fun q => q.enqueue cue 0)
      (modifyPacer s.pacer fun q => q.enqueue cue 0) :=
    shifts_modifyPacer_of_setup (fun _ => rfl) (fun _ => ⟨rfl, rfl⟩) fun _ => rfl
  unfold cueNow
  infer_instance

/-! ### Batches and control -/

omit hp in
instance shifts_stopNow :
    Shifts s id (modifyPacer s.pacer Pacer.stopNow) (modifyPacer s.pacer Pacer.stopNow) :=
  shifts_modifyPacer_of_setup (fun _ => rfl) (fun _ => ⟨rfl, rfl⟩) fun _ => rfl

omit hp in
instance shifts_startPeriodic :
    Shifts s id (modifyPacer s.pacer Pacer.startPeriodic)
      (modifyPacer s.pacer Pacer.startPeriodic) :=
  shifts_modifyPacer_of_setup Pacer.clock_startPeriodic Pacer.SameSetup.startPeriodic
    (Pacer.startPeriodic_delayed s.ns)

instance shifts_stepsUpTo (n : Nat) :
    Shifts s id (stepsUpTo perform s.pacer n) (stepsUpTo perform s.pacer n) := by
  induction n with
  | zero => exact shifts_pure ()
  | succ n ih =>
    have hcount (status : Status) : Shifts s id (modifyPacer s.pacer fun q => q.countStep status)
        (modifyPacer s.pacer fun q => q.countStep status) :=
      shifts_modifyPacer_of_setup (fun _ => rfl) (fun _ => ⟨rfl, rfl⟩) fun _ => rfl
    unfold stepsUpTo
    refine shifts_then fun _ => shifts_pacerAt_bind_same (fun _ => rfl) fun q hq => ?_
    have hstep := shifts_stepHandle perform hq.engine_eq
    infer_instance

instance shifts_runSteps (count : Int) :
    Shifts s id (runSteps perform s.pacer count) (runSteps perform s.pacer count) := by
  unfold runSteps
  refine shifts_then fun _ => shifts_then fun _ => ?_
  exact shifts_pacerAt_bind_same (fun _ => rfl) fun q _ => shifts_pure q.lastStatus

omit hp in
instance shifts_powerOn : Shifts s id (powerOn s.pacer) (powerOn s.pacer) := by
  have hpower : Shifts s id (modifyPacer s.pacer fun q => { q with power := .running })
      (modifyPacer s.pacer fun q => { q with power := .running }) :=
    shifts_modifyPacer_of_setup (fun _ => rfl) (fun _ => ⟨rfl, rfl⟩) fun _ => rfl
  unfold powerOn
  infer_instance

instance shifts_powerOff :
    Shifts s id (powerOff perform s.pacer) (powerOff perform s.pacer) := by
  unfold powerOff
  refine shifts_pacerAt_bind_same (fun _ => rfl) fun q _ => ?_
  infer_instance

instance shifts_pause : Shifts s id (pause perform s.pacer) (pause perform s.pacer) := by
  unfold pause
  refine shifts_pacerAt_bind_same (fun _ => rfl) fun q _ => ?_
  infer_instance

instance shifts_resume : Shifts s id (resume perform s.pacer) (resume perform s.pacer) := by
  unfold resume
  refine shifts_pacerAt_bind_same (fun _ => rfl) fun q _ => ?_
  infer_instance

omit hp in
instance shifts_updateIntervals :
    Shifts s id (updateIntervals s.pacer) (updateIntervals s.pacer) := by
  have htimer (timerInterval : Nat) :
      Shifts s id (modifyPacer s.pacer fun q => { q with timerInterval })
        (modifyPacer s.pacer fun q => { q with timerInterval }) :=
    shifts_modifyPacer_of_setup (fun _ => rfl) (fun _ => ⟨rfl, rfl⟩) fun _ => rfl
  have hframe (frameInterval : Nat) :
      Shifts s id (modifyPacer s.pacer fun q => { q with frameInterval })
        (modifyPacer s.pacer fun q => { q with frameInterval }) :=
    shifts_modifyPacer_of_setup (fun _ => rfl) (fun _ => ⟨rfl, rfl⟩) fun _ => rfl
  unfold updateIntervals
  refine shifts_pacerAt_bind_same (fun _ => rfl) fun q _ => ?_
  infer_instance

omit hp in
instance shifts_setRate (rate : Float) :
    Shifts s id (setRate s.pacer rate) (setRate s.pacer rate) := by
  have hrate : Shifts s id (modifyPacer s.pacer fun q => { q with rate })
      (modifyPacer s.pacer fun q => { q with rate }) :=
    shifts_modifyPacer_of_setup (fun _ => rfl) (fun _ => ⟨rfl, rfl⟩) fun _ => rfl
  have hrestart : Shifts s id
      (modifyPacer s.pacer fun q => q.stopPeriodic.clearSchedule.startPeriodic)
      (modifyPacer s.pacer fun q => q.stopPeriodic.clearSchedule.startPeriodic) :=
    shifts_modifyPacer_of_setup (fun q => q.stopPeriodic.clearSchedule.clock_startPeriodic)
      Pacer.SameSetup.restartPeriodic
      fun q => Pacer.startPeriodic_delayed s.ns q.stopPeriodic.clearSchedule
  have hregular : Shifts s id
      (do
        if (← pacerAt s.pacer).power = .running then
          modifyPacer s.pacer fun q => q.stopPeriodic.clearSchedule.startPeriodic)
      (do
        if (← pacerAt s.pacer).power = .running then
          modifyPacer s.pacer fun q => q.stopPeriodic.clearSchedule.startPeriodic) := by
    refine shifts_pacerAt_bind_same (fun _ => rfl) fun q _ => ?_
    infer_instance
  unfold setRate
  dsimp only
  infer_instance

omit hp in
instance shifts_advanceClock (ns : Int) : Shifts s id (advanceClock ns) (advanceClock ns) := by
  have hmove (k : Nat) : Shifts s id
      (modify fun h => { h with clocks := h.clocks.modify k fun c => c.advance ns } : HostM Unit)
      (modify fun h => { h with clocks := h.clocks.modify k fun c => c.advance ns }) := by
    refine .of_eq (fun _ hled => ⟨hled.current, hled.pacer, hled.source⟩) fun h => ?_
    have hclocks : (h.clocks.modify s.clock (·.advance s.ns)).modify k (·.advance ns) =
        (h.clocks.modify k (·.advance ns)).modify s.clock (·.advance s.ns) := by
      refine modify_comm h.clocks s.clock k fun c => ?_
      exact congrArg (fun passed => { c with passed }) (Int.add_right_comm c.passed s.ns ns)
    exact congrArg (fun clocks => (Except.ok (), { h.delayed s with clocks })) hclocks
  have hclock : Shifts s id currentClock currentClock := by
    have hrequired (h : Host) : currentClock h = (required .noPacer h.clock : HostM Nat) h := by
      rw [currentClock, bind_of_ok (get_apply h)]
    refine .of_unchanged (fun h => ?_) fun h => ?_
    · rw [hrequired]
      cases h.clock <;> rfl
    · rw [hrequired, hrequired]
      show (required .noPacer h.clock (h.delayed s)).1 = _
      cases h.clock <;> rfl
  unfold advanceClock
  infer_instance

/-! ### Paced runs -/

theorem shifts_sleep {sleeps : Sleeps} (hsleeps : sleeps.script.Drives) (number : Nat)
    (duration : Float) :
    Shifts s id (sleep perform sleeps number duration) (sleep perform sleeps number duration) := by
  have hall : Shifts s id (performAll perform (sleeps.script.requests number))
      (performAll perform (sleeps.script.requests number)) :=
    shifts_performAll perform (hsleeps number)
  unfold sleep
  infer_instance

omit hp in
instance shifts_dueNow : Shifts s id (dueNow s.pacer) (dueNow s.pacer) := by
  unfold dueNow
  exact shifts_pacerAt_bind_same (fun _ => rfl) fun q _ => inferInstance

omit hp in
theorem shifts_pacedReply (slept : Nat) (last : Float) :
    Shifts s (Reply.delayed s.ns) (pacedReply s.pacer slept last) (pacedReply s.pacer slept last) :=
  shifts_pacerAt_bind_same (fun _ => rfl) fun _ _ =>
    shifts_pure_map (Reply.delayed s.ns) (.paced ..)

omit hp in
instance shifts_ensureOn : Shifts s id (ensureOn s.pacer) (ensureOn s.pacer) := by
  unfold ensureOn
  exact shifts_pacerAt_bind_same (fun _ => rfl) fun q _ => inferInstance

theorem shifts_runRounds {sleeps : Sleeps} (hsleeps : sleeps.script.Drives) (maxBatch : Int)
    (slept : Nat) (last : Float) (n : Nat) :
    Shifts s (Reply.delayed s.ns) (runRounds perform s.pacer maxBatch sleeps slept last n)
      (runRounds perform s.pacer maxBatch sleeps slept last n) := by
  induction n generalizing slept last with
  | zero => exact shifts_throw _ _
  | succ n ih =>
    have hsleep (duration : Float) : Shifts s id (sleep perform sleeps (slept + 1) duration)
        (sleep perform sleeps (slept + 1) duration) := shifts_sleep perform hsleeps _ duration
    unfold runRounds
    refine shifts_pacerAt_bind_same (fun _ => rfl) fun q _ => ?_
    refine shifts_cond (shifts_pacedReply slept last) (shifts_then fun due => shifts_cond ?_ ?_)
    · infer_instance
    · exact shifts_pacerAt_bind_same (fun _ => rfl) fun q _ => inferInstance

theorem shifts_run {sleeps : Sleeps} (hsleeps : sleeps.script.Drives) (maxBatch : Int) :
    Shifts s (Reply.delayed s.ns) (run perform s.pacer maxBatch sleeps)
      (run perform s.pacer maxBatch sleeps) := by
  unfold run
  exact shifts_then fun _ => shifts_runRounds perform hsleeps maxBatch 0 0 _

/-! ### Requests -/

omit hp in
theorem shifts_rates : Shifts s (Reply.delayed s.ns) (rates s.pacer) (rates s.pacer) :=
  shifts_pacerAt_bind fun _ _ => shifts_pure_map (Reply.delayed s.ns) (.rates ..)

omit hp in
theorem shifts_currentPacer_bind {g : Nat → HostM α} (hg : Shifts s f (g s.pacer) (g s.pacer)) :
    Shifts s f (currentPacer >>= g) (currentPacer >>= g) := by
  have hcurrent {h : Host} (hled : h.Led s) : currentPacer h = (.ok s.pacer, h) := by
    rw [currentPacer, bind_of_ok (get_apply h), hled.current, required_some]
  refine ⟨fun h hled => ?_, fun h hled => ?_⟩
  · rw [bind_of_ok (hcurrent hled)]
    exact hg.led h hled
  · have hlater : currentPacer (h.delayed s) = (.ok s.pacer, h.delayed s) := by
      rw [currentPacer, bind_of_ok (get_apply _)]
      show required .noPacer h.pacer _ = _
      rw [hled.current, required_some]
    rw [bind_of_ok (hcurrent hled), bind_of_ok hlater]
    exact hg.eq h hled

/-- **A request that drives the pacer** does the same at the later time. -/
theorem shifts_respond {r : Request} (hr : r.Drives) :
    Shifts s (Reply.delayed s.ns) (respond perform r) (respond perform r) := by
  cases hr with
  | runSteps count => exact shifts_currentPacer_bind (shifts_answer fun _ => rfl)
  | instructionsDue => exact shifts_currentPacer_bind (shifts_answer fun _ => rfl)
  | powerOn => exact shifts_currentPacer_bind (shifts_answer fun _ => rfl)
  | powerOff => exact shifts_currentPacer_bind (shifts_answer fun _ => rfl)
  | pause => exact shifts_currentPacer_bind (shifts_answer fun _ => rfl)
  | resume => exact shifts_currentPacer_bind (shifts_answer fun _ => rfl)
  | setRate rate =>
    have hrates : Shifts s (Reply.delayed s.ns) (rates s.pacer) (rates s.pacer) := shifts_rates
    exact shifts_currentPacer_bind (shifts_then fun _ => hrates)
  | advanceClock ns => exact shifts_currentPacer_bind (shifts_answer fun _ => rfl)
  | @run script hsleeps maxBatch limit =>
    have hscript : (Sleeps.mk script limit).script.Drives := hsleeps
    exact shifts_currentPacer_bind (shifts_run perform hscript maxBatch)
  | isRunning | lastPaced =>
    refine shifts_currentPacer_bind (shifts_pacerAt_bind_same (fun _ => rfl) fun q _ => ?_)
    exact shifts_pure_map (Reply.delayed s.ns) _
  | rates => exact shifts_currentPacer_bind shifts_rates

end Performing

instance shiftsRequests_performWithin (depth : Nat) : ShiftsRequests s (performWithin depth) := by
  induction depth with
  | zero => exact ⟨fun _ _ => shifts_throw _ _⟩
  | succ depth ih => exact ⟨fun _ hr => shifts_respond (performWithin depth) hr⟩

/-- **Requests that drive the pacer**, nested however deep, do the same at the later time. -/
theorem shifts_performWithin (depth : Nat) {r : Request} (hr : r.Drives) :
    Shifts s (Reply.delayed s.ns) (performWithin depth r) (performWithin depth r) :=
  ShiftsRequests.shifts r hr

end HostM

end Chip8
