import Chip8.Proofs.Engine.Step
import Mathlib.Logic.Basic

/-!
# Engines that are spared

An engine that has been retired is spared by an action if its machine comes out
of it as it was, apart from the keypad, and no pacer over one of its handles has
counted a step.  `Spares` is a class of actions that spare a retired engine,
whatever else they do.  Calls on another engine do; so do calls on the engine
itself that leave its machine alone, and the calls on handles, which are not
current any more.

* `spares_stepHandle`, `spares_tickHandle`: calls on handles.
* `spares_reload`: the reload of a session retires its engine and spares it.
-/

namespace Chip8

def Machine.SameButKeys (m m' : Machine) : Prop :=
  m' = { m with keypad := m'.keypad }

/-- The machine is the same, apart from the keypad, and what is retired stays so. -/
structure Engine.Spared (e e' : Engine) : Prop where
  machine : e.machine.SameButKeys e'.machine
  retired : e.retired = true → e'.retired = true

/-- A pacer over an engine has counted no step. -/
structure Pacer.Spared (c : Nat) (q q' : Pacer) : Prop where
  handle_eq : q'.handle = q.handle
  count_eq : q.handle.engine = c → q'.count = q.count

/-- Between two hosts an engine has been left alone, and no pacer over it has counted a step. -/
structure Host.Spared (c : Nat) (h h' : Host) : Prop where
  engine : ∀ {e : Engine}, h.engines[c]? = some e →
    ∃ e' : Engine, h'.engines[c]? = some e' ∧ e.Spared e'
  pacers : ∀ {p : Nat} {q : Pacer}, h.pacers[p]? = some q →
    ∃ q' : Pacer, h'.pacers[p]? = some q' ∧ q.Spared c q'

def Host.Retired (c : Nat) (h : Host) : Prop :=
  ∃ e : Engine, h.engines[c]? = some e ∧ e.retired = true

theorem Machine.SameButKeys.refl (m : Machine) : m.SameButKeys m := rfl

theorem Machine.SameButKeys.trans {m m' m'' : Machine} (h : m.SameButKeys m')
    (h' : m'.SameButKeys m'') : m.SameButKeys m'' :=
  (show m'' = _ from h').trans (congrArg (fun m₀ : Machine => { m₀ with keypad := m''.keypad }) h)

theorem Engine.Spared.refl (e : Engine) : e.Spared e :=
  ⟨.refl _, id⟩

theorem Engine.Spared.trans {e e' e'' : Engine} (h : e.Spared e') (h' : e'.Spared e'') :
    e.Spared e'' :=
  ⟨h.machine.trans h'.machine, fun hr => h'.retired (h.retired hr)⟩

theorem Pacer.Spared.refl (c : Nat) (q : Pacer) : q.Spared c q :=
  ⟨rfl, fun _ => rfl⟩

theorem Pacer.Spared.trans {c : Nat} {q q' q'' : Pacer} (h : q.Spared c q')
    (h' : q'.Spared c q'') : q.Spared c q'' where
  handle_eq := h'.handle_eq.trans h.handle_eq
  count_eq hx := (h'.count_eq (by rw [h.handle_eq, hx])).trans (h.count_eq hx)

namespace Host.Spared

variable {c : Nat} {h h' h'' : Host}

theorem of_eq (he : h'.engines[c]? = h.engines[c]?) (hp : h'.pacers = h.pacers) :
    Spared c h h' where
  engine {e} hc := ⟨e, by rw [he, hc], .refl e⟩
  pacers {p q} hq := ⟨q, by rw [hp, hq], .refl c q⟩

theorem refl (c : Nat) (h : Host) : Spared c h h :=
  of_eq rfl rfl

theorem trans (h₁ : Spared c h h') (h₂ : Spared c h' h'') : Spared c h h'' where
  engine he := by
    obtain ⟨e', he', hs⟩ := h₁.engine he
    obtain ⟨e'', he'', hs'⟩ := h₂.engine he'
    exact ⟨e'', he'', hs.trans hs'⟩
  pacers hq := by
    obtain ⟨q', hq', hs⟩ := h₁.pacers hq
    obtain ⟨q'', hq'', hs'⟩ := h₂.pacers hq'
    exact ⟨q'', hq'', hs.trans hs'⟩

theorem retired (hs : Spared c h h') (hr : h.Retired c) : h'.Retired c := by
  obtain ⟨e, he, hretired⟩ := hr
  obtain ⟨e', he', hspared⟩ := hs.engine he
  exact ⟨e', he', hspared.retired hretired⟩

theorem putEngine {c' : Nat} {e e' : Engine} (he : h.engines[c']? = some e)
    (hs : c' = c → e.Spared e') : Spared c h (h.putEngine c' e') where
  engine {e₀} he₀ := by
    by_cases hc : c' = c
    · subst hc
      rw [he] at he₀
      cases he₀
      exact ⟨e', engines_putEngine he, hs rfl⟩
    · exact ⟨e₀, (Array.getElem?_setIfInBounds_ne hc).trans he₀, .refl e₀⟩
  pacers {p q} hq := ⟨q, hq, .refl c q⟩

theorem pushEngine (e : Engine) : Spared c h { h with engines := h.engines.push e } where
  engine {e₀} he₀ := by
    have hc : c < h.engines.size := (Array.getElem?_eq_some_iff.mp he₀).1
    refine ⟨e₀, ?_, .refl e₀⟩
    rw [Array.getElem?_push, if_neg (Nat.ne_of_lt hc), he₀]
  pacers {p q} hq := ⟨q, hq, .refl c q⟩

theorem modifyPacer {p : Nat} {f : Pacer → Pacer}
    (hf : ∀ q, h.pacers[p]? = some q → q.Spared c (f q)) :
    Spared c h { h with pacers := h.pacers.modify p f } where
  engine {e} he := ⟨e, he, .refl e⟩
  pacers {p' q} hq := by
    rw [Array.getElem?_modify, hq]
    by_cases hp : p = p'
    · subst hp
      rw [if_pos rfl]
      exact ⟨f q, rfl, hf q hq⟩
    · rw [if_neg hp]
      exact ⟨q, rfl, .refl c q⟩

theorem pushPacer (q : Pacer) : Spared c h { h with pacers := h.pacers.push q } where
  engine {e} he := ⟨e, he, .refl e⟩
  pacers {p q'} hq' := by
    have hp : p < h.pacers.size := (Array.getElem?_eq_some_iff.mp hq').1
    refine ⟨q', ?_, .refl c q'⟩
    rw [Array.getElem?_push, if_neg (Nat.ne_of_lt hp), hq']

end Host.Spared

namespace HostM

variable {α β : Type} (c : Nat)

/-- The action spares an engine that has been retired. -/
class Spares (x : HostM α) : Prop where
  spares : ∀ h : Host, h.Retired c → Host.Spared c h (x h).2

variable {c}

theorem Spares.of_eq {x : HostM α}
    (hx : ∀ h, (x h).2.engines = h.engines ∧ (x h).2.pacers = h.pacers) : Spares c x :=
  ⟨fun h _ => .of_eq (congrArg (fun engines : Array Engine => engines[c]?) (hx h).1) (hx h).2⟩

/-! ### Actions put together -/

theorem spared_bind {x : HostM α} {f : α → HostM β} {h : Host} (hr : h.Retired c)
    (hx : Host.Spared c h (x h).2)
    (hf : ∀ a h', x h = (.ok a, h') → h'.Retired c → Host.Spared c h' (f a h').2) :
    Host.Spared c h ((x >>= f) h).2 := by
  rw [bind_apply]
  rcases hres : x h with ⟨_ | a, h'⟩ <;> rw [hres] at hx
  · exact hx
  · exact hx.trans (hf a h' hres (hx.retired hr))

instance spares_bind {x : HostM α} {f : α → HostM β} [hx : Spares c x]
    [hf : ∀ a, Spares c (f a)] : Spares c (x >>= f) where
  spares h hr := spared_bind hr (hx.spares h hr) fun a h' _ hr' => (hf a).spares h' hr'

theorem spares_then {x : HostM α} {f : α → HostM β} [Spares c x] (hf : ∀ a, Spares c (f a)) :
    Spares c (x >>= f) :=
  inferInstance

instance spares_ite {p : Prop} [Decidable p] {x y : HostM α} [hx : Spares c x]
    [hy : Spares c y] : Spares c (if p then x else y) := by
  split
  · exact hx
  · exact hy

instance spares_attempt {x : HostM α} [hx : Spares c x] : Spares c (attempt x) where
  spares h := hx.spares h

instance spares_forM {f : α → HostM Unit} [hf : ∀ a, Spares c (f a)] (a? : Option α) :
    Spares c (a?.forM f) := by
  cases a? with
  | none => exact .of_eq fun _ => ⟨rfl, rfl⟩
  | some a => exact hf a

instance spares_pure (a : α) : Spares c (pure a : HostM α) :=
  .of_eq fun _ => ⟨rfl, rfl⟩

instance spares_throw (r : Refusal) : Spares c (throw r : HostM α) :=
  .of_eq fun _ => ⟨rfl, rfl⟩

theorem spares_guard {p : Prop} [Decidable p] {r : Refusal} {x : HostM α} (hx : Spares c x) :
    Spares c (if p then (do throw r; x) else x) :=
  inferInstance

instance spares_get : Spares c (get : HostM Host) :=
  .of_eq fun _ => ⟨rfl, rfl⟩

instance spares_ofExcept (x : Except Refusal α) : Spares c (ofExcept x) :=
  .of_eq fun h => by
    rw [ofExcept_apply]
    exact ⟨rfl, rfl⟩

instance spares_ofConversion (x : Except Binary64.ConversionError α) :
    Spares c (ofConversion x) :=
  spares_ofExcept _

instance spares_ofMemory (x : Except OutOfRange α) : Spares c (ofMemory x) :=
  spares_ofExcept _

instance spares_required (r : Refusal) (a? : Option α) : Spares c (required r a?) := by
  cases a? with
  | none => exact spares_throw r
  | some a => exact spares_pure a

/-! ### Parts of a host -/

theorem spares_modify {f : Host → Host}
    (hf : ∀ h, (f h).engines = h.engines ∧ (f h).pacers = h.pacers) :
    Spares c (modify f : HostM Unit) :=
  .of_eq hf

section Parts

variable (c' k n p s : Nat)

instance spares_engine : Spares c (engine c') := by
  unfold engine
  infer_instance

instance spares_machine : Spares c (machine c') := by
  unfold machine
  infer_instance

instance spares_addEngine (e : Engine) : Spares c (addEngine e) :=
  ⟨fun _ _ => .pushEngine e⟩

instance spares_currentEngine : Spares c currentEngine := by
  unfold currentEngine
  infer_instance

instance spares_setCurrent : Spares c (setCurrent c') :=
  spares_modify fun _ => ⟨rfl, rfl⟩

instance spares_handle : Spares c (handle n) := by
  unfold handle
  infer_instance

instance spares_addHandle (x : Handle) : Spares c (addHandle x) :=
  .of_eq fun _ => ⟨rfl, rfl⟩

instance spares_currentSession : Spares c currentSession := by
  unfold currentSession
  infer_instance

instance spares_sessionAt : Spares c (sessionAt s) := by
  unfold sessionAt
  infer_instance

instance spares_modifySession (f : Session → Session) : Spares c (modifySession s f) :=
  spares_modify fun _ => ⟨rfl, rfl⟩

instance spares_isCurrent (x : Handle) : Spares c (isCurrent x) :=
  .of_eq fun h => by
    rw [isCurrent_unchanged]
    exact ⟨rfl, rfl⟩

instance spares_pacerAt : Spares c (pacerAt p) := by
  unfold pacerAt
  infer_instance

instance spares_currentPacer : Spares c currentPacer := by
  unfold currentPacer
  infer_instance

instance spares_readClock : Spares c (readClock k) := by
  unfold readClock
  have : Spares c (modify fun h => { h with clocks := h.clocks.modify k Clock.read }) :=
    spares_modify fun _ => ⟨rfl, rfl⟩
  infer_instance

instance spares_currentClock : Spares c currentClock := by
  unfold currentClock
  infer_instance

instance spares_now : Spares c now := by
  unfold now
  infer_instance

instance spares_readWall (wall : WallClock) (number : Nat) : Spares c (readWall wall number) := by
  unfold readWall
  infer_instance

instance spares_advanceClock (ns : Int) : Spares c (advanceClock ns) := by
  unfold advanceClock
  have (k : Nat) : Spares c (modify fun h =>
      { h with clocks := h.clocks.modify k fun clock => clock.advance ns }) :=
    spares_modify fun _ => ⟨rfl, rfl⟩
  infer_instance

instance spares_note (m : Note) : Spares c (note m) :=
  spares_modify fun _ => ⟨rfl, rfl⟩

instance spares_log (line : LogLine) : Spares c (log line) :=
  spares_modify fun _ => ⟨rfl, rfl⟩

instance spares_logAll (lines : List LogLine) : Spares c (logAll lines) :=
  .of_eq fun h => by
    rw [logAll_apply]
    exact ⟨rfl, rfl⟩

end Parts

/-! ### Changes of engines -/

theorem spared_modifyEngine {c' : Nat} {f : Engine → Engine} {h : Host}
    (hf : ∀ e, h.engines[c']? = some e → c' = c → e.Spared (f e)) :
    Host.Spared c h (modifyEngine c' f h).2 := by
  cases he : h.engines[c']? with
  | none =>
    rw [modifyEngine_of_eq_none he]
    exact .refl c h
  | some e =>
    rw [modifyEngine_apply he]
    exact .putEngine he (hf e he)

theorem spares_modifyEngine (c' : Nat) {f : Engine → Engine} (hf : ∀ e : Engine, e.Spared (f e)) :
    Spares c (modifyEngine c' f) :=
  ⟨fun _ _ => spared_modifyEngine fun e _ _ => hf e⟩

instance spares_retire (c' : Nat) : Spares c (retire c') :=
  spares_modifyEngine c' fun _ => ⟨.refl _, fun _ => rfl⟩

theorem spares_modifyKeypad (c' : Nat) (f : Keypad → Keypad) :
    Spares c (modifyMachine c' fun m => { m with keypad := f m.keypad }) :=
  spares_modifyEngine c' fun _ => ⟨rfl, id⟩

instance spares_exclusive (c' : Nat) (activity : Activity) (x : HostM α) [Spares c x] :
    Spares c (exclusive c' activity x) := by
  unfold exclusive
  have (busy : Bool) : Spares c (modifyEngine c' fun e => { e with busy }) :=
    spares_modifyEngine c' fun _ => ⟨.refl _, id⟩
  infer_instance

instance spares_setKey (c' : Nat) (code : Int) (down : Bool) : Spares c (setKey c' code down) := by
  unfold setKey
  have (key : Key) : Spares c (modifyMachine c' fun m =>
      { m with keypad := m.keypad.set key down }) :=
    spares_modifyKeypad c' fun keypad => keypad.set key down
  infer_instance

instance spares_readScreen (c' : Nat) : Spares c (readScreen c') := by
  unfold readScreen
  infer_instance

instance spares_readRomFile (path : String) : Spares c (readRomFile path) := by
  unfold readRomFile
  dsimp only
  infer_instance

/-- A start of any engine leaves its machine alone. -/
instance spares_startEngine (c' : Nat) : Spares c (startEngine c') where
  spares h hr := by
    rw [startEngine_eq]
    cases he : h.engines[c']? with
    | none =>
      rw [bind_of_error (engine_of_eq_none he)]
      exact .refl c h
    | some e =>
      rw [bind_of_ok (engine_apply he)]
      refine spared_bind hr (Spares.spares h hr) fun e' h' hstart hr' => ?_
      rw [ofExcept_apply] at hstart
      obtain ⟨hok, rfl⟩ := Prod.mk.inj hstart
      refine spared_bind hr' (spared_modifyEngine fun e₁ he₁ _ => ?_) fun _ h₁ _ hr₁ =>
        Spares.spares h₁ hr₁
      rw [he] at he₁
      cases he₁
      rw [Engine.start_eq_ok hok]
      exact ⟨.refl _, id⟩

/-! ### Sessions -/

/-- **A reload** retires the engine of the session and leaves its machine alone. -/
instance spares_reload (s : Nat) (data : List UInt8) (name : String) :
    Spares c (reload s data name) := by
  rw [reload_eq]
  refine spares_then fun session => spares_then fun e => spares_then fun _ => ?_
  infer_instance

instance spares_reloadFile (s : Nat) (path : String) : Spares c (reloadFile s path) := by
  unfold reloadFile
  have (c' : Nat) (rom : Cartridge) : Spares c (modifyEngine c' fun e =>
      { e with rom := some rom }) :=
    spares_modifyEngine c' fun _ => ⟨.refl _, id⟩
  infer_instance

instance spares_reloadOrReport (s : Nat) (path : String) : Spares c (reloadOrReport s path) := by
  unfold reloadOrReport
  refine spares_then fun outcome => ?_
  rcases outcome with r | ⟨c', rom⟩ <;> dsimp only <;> infer_instance

instance spares_startSession (s : Nat) : Spares c (startSession s) := by
  unfold startSession
  infer_instance

/-! ### Random numbers -/

instance spares_advanceSource (c' : Nat) :
    Spares c (modifyEngine c' fun e => { e with source := e.source.advance }) :=
  spares_modifyEngine c' fun _ => ⟨.refl _, id⟩

instance spares_byteOf (perform : Request → HostM Reply) [∀ r, Spares c (perform r)]
    (draw? : Option (Draw Request)) : Spares c (byteOf perform draw?) := by
  rcases draw? with _ | ⟨_ | r, value⟩ <;> unfold byteOf <;> dsimp only <;> infer_instance

instance spares_drawByte (perform : Request → HostM Reply) [∀ r, Spares c (perform r)]
    (c' : Nat) : Spares c (drawByte perform c') := by
  rw [drawByte_eq]
  infer_instance

/-! ### Calls on another engine -/

section Others

variable (perform : Request → HostM Reply) [hp : ∀ r, Spares c (perform r)] {c' : Nat}
  [hne : Fact (c' ≠ c)]

omit hp

instance spares_modifyEngine_of_ne (f : Engine → Engine) : Spares c (modifyEngine c' f) :=
  ⟨fun _ _ => spared_modifyEngine fun _ _ hc => absurd hc hne.out⟩

instance spares_modifyMachine_of_ne (f : Machine → Machine) : Spares c (modifyMachine c' f) :=
  spares_modifyEngine_of_ne _

instance spares_setMachine_of_ne (m : Machine) : Spares c (setMachine c' m) :=
  spares_modifyEngine_of_ne _

instance spares_halt (address : Int) (reason : HaltReason) :
    Spares c (halt c' address reason) := by
  unfold halt
  infer_instance

instance spares_tickEngine : Spares c (tickEngine c') := by
  unfold tickEngine
  infer_instance

instance spares_tickTimes (n : Nat) : Spares c (tickTimes c' n) := by
  induction n with
  | zero => exact spares_pure ()
  | succ n ih =>
    unfold tickTimes
    infer_instance

instance spares_loadRom (data : List UInt8) (name : String) : Spares c (loadRom c' data name) := by
  rw [loadRom_eq]
  infer_instance

instance spares_loadRomFile (path : String) : Spares c (loadRomFile c' path) := by
  unfold loadRomFile
  infer_instance

include hp

instance spares_stepMachine : Spares c (stepMachine perform c') := by
  unfold stepMachine
  refine spares_then fun e => ?_
  dsimp only
  cases e.machine.halted with
  | some reason => exact spares_pure _
  | none =>
    refine spares_then fun _ => ?_
    cases e.machine.advance with
    | drawing m x mask =>
      refine spares_then fun _ => spares_then fun outcome => ?_
      rcases outcome with r | byte
      · cases r <;> dsimp only <;> infer_instance
      · infer_instance
    | _ =>
      dsimp only
      infer_instance

instance spares_stepEngine : Spares c (stepEngine perform c') := by
  unfold stepEngine
  infer_instance

instance spares_stepTimes (n : Nat) : Spares c (stepTimes perform c' n) := by
  induction n with
  | zero => exact spares_pure _
  | succ n ih =>
    unfold stepTimes
    infer_instance

instance spares_executeUpTo (done : Nat) (last : Option Status) (n : Nat) :
    Spares c (executeUpTo perform c' done last n) := by
  induction n generalizing done last with
  | zero => exact spares_pure _
  | succ n ih =>
    unfold executeUpTo
    infer_instance

end Others

/-! ### Calls on handles -/

/-- No handle of a retired engine is current. -/
theorem isCurrent_of_retired {x : Handle} {h : Host} (hr : h.Retired x.engine) :
    isCurrent x h = (.ok false, h) := by
  obtain ⟨e, he, hretired⟩ := hr
  rw [isCurrent, bind_of_ok (engine_apply he), hretired]
  rfl

/-- **A tick through any handle** spares a retired engine: nothing happens, or another engine's
timers tick. -/
instance spares_tickHandle (x : Handle) : Spares c (tickHandle x) := by
  by_cases hx : x.engine = c
  · subst hx
    refine ⟨fun h hr => ?_⟩
    rw [tickHandle_of_not_current (isCurrent_of_retired hr)]
    exact .refl _ h
  · have : Fact (x.engine ≠ c) := ⟨hx⟩
    unfold tickHandle
    infer_instance

/-- **A step through any handle** spares a retired engine: it is refused, or another engine makes
it. -/
instance spares_stepHandle (perform : Request → HostM Reply) [∀ r, Spares c (perform r)]
    (x : Handle) : Spares c (stepHandle perform x) := by
  by_cases hx : x.engine = c
  · subst hx
    refine ⟨fun h hr => ?_⟩
    rw [stepHandle_of_not_current (isCurrent_of_retired hr)]
    exact .refl _ h
  · have : Fact (x.engine ≠ c) := ⟨hx⟩
    unfold stepHandle
    dsimp only
    infer_instance

end HostM

end Chip8
