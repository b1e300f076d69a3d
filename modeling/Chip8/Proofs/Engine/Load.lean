import Chip8.Host.Perform
import Chip8.Proofs.Host.Evaluation
import Chip8.Proofs.Memory.Blocks

/-!
# Loads and starts as single changes

A load makes its checks, has the engine for itself while it writes the memory,
and then gives the engine the image.  Seen from outside it is one change of the
engine, or none: every check comes before the first write, and a block that is
refused has written nothing.  `Engine.load` is that change, `Engine.start` the
one that a start makes.

* `loadRom_of_error`, `loadRom_of_ok`: a load makes this change, or none.
* `startEngine_of_error`, `startEngine_apply`: so does a start.
* `loadNew_eq`: an engine that is refused its program leaves nothing behind.
* `loadRom_eq`, `reload_eq`, `startEngine_eq`: the calls with their changes made at
  once.
-/

namespace Chip8

/-! ### What a load and a start make of an engine -/

namespace Engine

/-- The engine with a program, or why it does not take it. -/
def load (e : Engine) (data : List UInt8) (name : String) : Except Refusal Engine :=
  if e.started then .error .romAfterStart
  else
    match Cartridge.check data with
    | .error r => .error r
    | .ok data =>
      if e.busy then .error (.busy .loadRom)
      else
        match e.machine.memory.writeBlock programStart (data.map fun b => (b.toNat : Int)) with
        | (_, .error o) => .error (.ofOutOfRange o)
        | (memory, .ok ()) =>
          .ok { e with machine := { e.machine with memory }, rom := some ⟨data, name, none⟩ }

/-- The engine started, or why it is not. -/
def start (e : Engine) : Except Refusal Engine :=
  if e.retired then .error .retired
  else if e.rom.isNone then .error .noRom
  else .ok { e with started := true }

variable {e e' : Engine} {data : List UInt8} {name : String}

theorem load_cases (hl : e.load data name = .ok e') :
    e.started = false ∧ e.busy = false ∧ data ≠ [] ∧ data.length ≤ programCapacity ∧ ∃ memory,
      e.machine.memory.writeBlock programStart (data.map fun b => (b.toNat : Int)) =
        (memory, .ok ()) ∧
      e' = { e with machine := { e.machine with memory }, rom := some ⟨data, name, none⟩ } := by
  rw [load] at hl
  split at hl
  · cases hl
  · next hs =>
    split at hl
    · cases hl
    · next data' hc =>
      obtain ⟨rfl, hdata, hlength⟩ := Cartridge.check_eq_ok_iff.mp hc
      split at hl
      · cases hl
      · next hb =>
        split at hl
        · cases hl
        · next memory hw =>
          cases hl
          exact ⟨Bool.eq_false_iff.mpr hs, Bool.eq_false_iff.mpr hb, hdata, hlength, memory, hw,
            rfl⟩

theorem load_eq_ok (hl : e.load data name = .ok e') : ∃ memory,
    e' = { e with machine := { e.machine with memory }, rom := some ⟨data, name, none⟩ } := by
  obtain ⟨-, -, -, -, memory, -, he'⟩ := load_cases hl
  exact ⟨memory, he'⟩

theorem load_of_started (hs : e.started = true) (data : List UInt8) (name : String) :
    e.load data name = .error .romAfterStart := by
  rw [load, hs]
  rfl

theorem start_eq_ok (hs : e.start = .ok e') : e' = { e with started := true } := by
  rw [start] at hs
  split at hs
  · cases hs
  · split at hs
    · cases hs
    · cases hs
      rfl

end Engine

namespace HostM

variable {h : Host} {c : Nat} {e : Engine} {data : List UInt8} {name : String}

theorem modifyMachine_apply (he : h.engines[c]? = some e) (f : Machine → Machine) :
    modifyMachine c f h = (.ok (), h.putEngine c { e with machine := f e.machine }) :=
  modifyEngine_apply he _

theorem setMachine_apply (he : h.engines[c]? = some e) (m : Machine) :
    setMachine c m h = (.ok (), h.putEngine c { e with machine := m }) :=
  modifyEngine_apply he _

/-! ### Blocks -/

theorem writeBlock_of_error (he : h.engines[c]? = some e) {address : Int} {memory : Ram}
    {o : OutOfRange}
    (hw : e.machine.memory.writeBlock address (data.map fun b => (b.toNat : Int)) =
      (memory, .error o)) :
    writeBlock c address data h = (.error (.ofOutOfRange o), h) := by
  obtain ⟨rfl, -⟩ := Memory.writeBlock_eq_error_iff.mp hw
  rw [writeBlock, bind_of_ok (machine_apply he), hw]
  dsimp only
  rw [bind_of_ok (modifyMachine_apply he _), Host.putEngine_eq_self he, ofMemory_error]

theorem writeBlock_of_ok (he : h.engines[c]? = some e) {address : Int} {memory : Ram}
    (hw : e.machine.memory.writeBlock address (data.map fun b => (b.toNat : Int)) =
      (memory, .ok ())) :
    writeBlock c address data h =
      (.ok (), h.putEngine c { e with machine := { e.machine with memory } }) := by
  rw [writeBlock, bind_of_ok (machine_apply he), hw]
  dsimp only
  rw [bind_of_ok (modifyMachine_apply he _), ofMemory_ok]

theorem exclusive_writeBlock_of_error (he : h.engines[c]? = some e) (hfree : e.busy = false)
    (activity : Activity) {address : Int} {memory : Ram} {o : OutOfRange}
    (hw : e.machine.memory.writeBlock address (data.map fun b => (b.toNat : Int)) =
      (memory, .error o)) :
    exclusive c activity (writeBlock c address data) h = (.error (.ofOutOfRange o), h) := by
  have hmarked : (h.putEngine c (e.marked true)).engines[c]? = some (e.marked true) :=
    Host.engines_putEngine he
  have hwrite : writeBlock c address data (h.putEngine c (e.marked true)) =
      (.error (.ofOutOfRange o), (h.putEngine c (e.marked true)).addLines []) := by
    rw [writeBlock_of_error hmarked hw, Host.addLines_nil]
  have hsame : (e.marked true).marked false = e :=
    congrArg (fun busy => { e with busy }) hfree.symm
  rw [exclusive_apply he hfree _ hwrite, Host.addLines_nil, hsame, Host.putEngine_eq_self he]

theorem exclusive_writeBlock_of_ok (he : h.engines[c]? = some e) (hfree : e.busy = false)
    (activity : Activity) {address : Int} {memory : Ram}
    (hw : e.machine.memory.writeBlock address (data.map fun b => (b.toNat : Int)) =
      (memory, .ok ())) :
    exclusive c activity (writeBlock c address data) h =
      (.ok (), h.putEngine c { e with machine := { e.machine with memory } }) := by
  have hmarked : (h.putEngine c (e.marked true)).engines[c]? = some (e.marked true) :=
    Host.engines_putEngine he
  have hwrite : writeBlock c address data (h.putEngine c (e.marked true)) =
      (.ok (), (h.putEngine c
        { e.marked true with machine := { e.machine with memory } }).addLines []) := by
    rw [writeBlock_of_ok hmarked hw, Host.putEngine_putEngine, Host.addLines_nil]
    rfl
  rw [exclusive_apply he hfree _ hwrite, Host.addLines_nil]
  exact congrArg (fun busy => (Except.ok (), h.putEngine c
    { e with machine := { e.machine with memory }, busy })) hfree.symm

/-! ### Loads -/

/-- The checks of a load come before its first write, in this order. -/
theorem loadRom_apply (he : h.engines[c]? = some e) (data : List UInt8) (name : String) :
    loadRom c data name h =
      if e.started then (.error .romAfterStart, h)
      else
        match Cartridge.check data with
        | .error r => (.error r, h)
        | .ok data => (do
            exclusive c .loadRom (writeBlock c programStart data)
            let rom : Cartridge := ⟨data, name, none⟩
            modifyEngine c fun e => { e with rom := some rom }
            log (Engine.loadedLine data.length name)
            return rom : HostM Cartridge) h := by
  rw [loadRom, bind_of_ok (engine_apply he)]
  cases e.started with
  | true => rfl
  | false =>
    show (ofExcept (Cartridge.check data) >>= fun _ => _) h = _
    cases Cartridge.check data with
    | error r => rw [bind_of_error (ofExcept_apply _ _)]; rfl
    | ok data' => rw [bind_of_ok (ofExcept_apply _ _)]; rfl

/-- **A load that is refused has changed nothing.** -/
theorem loadRom_of_error (he : h.engines[c]? = some e) {r : Refusal}
    (hl : e.load data name = .error r) : loadRom c data name h = (.error r, h) := by
  rw [Engine.load] at hl
  rw [loadRom_apply he]
  split at hl
  · next hs =>
    cases hl
    rw [if_pos hs]
  · next hs =>
    rw [if_neg hs]
    split at hl
    · cases hl
      rfl
    · next data' hc =>
      dsimp only
      split at hl
      · next hb =>
        cases hl
        rw [bind_of_error (exclusive_of_busy he hb _ _)]
      · next hb =>
        split at hl
        · next memory o hw =>
          cases hl
          have hfree := Bool.eq_false_iff.mpr hb
          rw [bind_of_error (exclusive_writeBlock_of_error he hfree _ hw)]
        · cases hl

/-- **A load that is not refused** puts the engine with the program in the place of the one
without, and reports it. -/
theorem loadRom_of_ok (he : h.engines[c]? = some e) {e' : Engine}
    (hl : e.load data name = .ok e') : ∃ rom, e'.rom = some rom ∧
      loadRom c data name h =
        (.ok rom, (h.putEngine c e').addLines [Engine.loadedLine data.length name]) := by
  obtain ⟨hs, hb, hdata, hlength, memory, hw, rfl⟩ := Engine.load_cases hl
  refine ⟨_, rfl, ?_⟩
  have hput : (h.putEngine c { e with machine := { e.machine with memory } }).engines[c]? =
      some { e with machine := { e.machine with memory } } := Host.engines_putEngine he
  rw [loadRom_apply he, if_neg (Bool.eq_false_iff.mp hs),
    Cartridge.check_eq_ok_iff.mpr ⟨rfl, hdata, hlength⟩]
  dsimp only
  rw [bind_of_ok (exclusive_writeBlock_of_ok he hb _ hw),
    bind_of_ok (modifyEngine_apply hput _), bind_of_ok (log_apply _ _), pure_apply,
    Host.putEngine_putEngine]

theorem loadRom_eq (c : Nat) (data : List UInt8) (name : String) :
    loadRom c data name = (do
      let e ← ofExcept ((← engine c).load data name)
      modifyEngine c fun _ => e
      log (Engine.loadedLine data.length name)
      required .noRom e.rom) := by
  funext h
  cases he : h.engines[c]? with
  | none =>
    rw [loadRom, bind_of_error (engine_of_eq_none he), bind_of_error (engine_of_eq_none he)]
  | some e =>
    rw [bind_of_ok (engine_apply he)]
    cases hl : e.load data name with
    | error r => rw [loadRom_of_error he hl, bind_of_error (ofExcept_apply _ _)]
    | ok e' =>
      obtain ⟨rom, hrom, hload⟩ := loadRom_of_ok he hl
      rw [hload, bind_of_ok (ofExcept_apply _ _), bind_of_ok (modifyEngine_apply he _),
        bind_of_ok (log_apply _ _), hrom, required_some]

theorem setIfInBounds_push {α : Type} (xs : Array α) (a b : α) :
    (xs.push a).setIfInBounds xs.size b = xs.push b := by
  apply Array.ext_getElem?
  intro i
  rw [Array.getElem?_push, Array.getElem?_setIfInBounds, Array.getElem?_push, Array.size_push]
  by_cases hi : i = xs.size
  · rw [if_pos hi.symm, if_pos xs.size.lt_succ_self, if_pos hi]
  · rw [if_neg hi, if_neg (Ne.symm hi), if_neg hi]

/-- **An engine that is refused its program** leaves nothing behind. -/
theorem loadNew_eq (e : Engine) (data : List UInt8) (name : String) :
    loadNew e data name = (do
      let e' ← ofExcept (e.load data name)
      log (Engine.loadedLine data.length name)
      return e') := by
  funext h
  let h₁ : Host := { h with engines := h.engines.push e }
  have hadd : addEngine e h = (.ok h.engines.size, h₁) := rfl
  have he : h₁.engines[h.engines.size]? = some e := Array.getElem?_push_size
  rw [loadNew, bind_of_ok hadd, bind_of_ok (attempt_apply _ _)]
  cases hl : e.load data name with
  | error r =>
    have hpop : { h₁ with engines := h₁.engines.pop } = h :=
      congrArg (fun engines => { h with engines }) Array.pop_push
    rw [loadRom_of_error he hl, bind_of_ok (engine_apply he), bind_of_ok (modify_apply _ _),
      bind_of_error (ofExcept_apply _ _), bind_of_error (ofExcept_apply _ _), hpop]
  | ok e' =>
    obtain ⟨rom, -, hload⟩ := loadRom_of_ok he hl
    have hput : h₁.putEngine h.engines.size e' = { h with engines := h.engines.push e' } :=
      congrArg (fun engines => { h with engines }) (setIfInBounds_push h.engines e e')
    have he' : ((h₁.putEngine h.engines.size e').addLines
        [Engine.loadedLine data.length name]).engines[h.engines.size]? = some e' :=
      Host.engines_putEngine he
    rw [hload, bind_of_ok (engine_apply he'), bind_of_ok (modify_apply _ _),
      bind_of_ok (ofExcept_apply _ _), bind_of_ok (ofExcept_apply _ _), hput]
    have hpop : (h.engines.push e').pop = h.engines := Array.pop_push
    rw [bind_of_ok (log_apply _ _)]
    exact congrArg (fun engines => (Except.ok e', { h.addLines
      [Engine.loadedLine data.length name] with engines })) hpop

theorem reload_eq (s : Nat) (data : List UInt8) (name : String) :
    reload s data name = (do
      let session ← sessionAt s
      let generation := session.generation + 1
      let e ← ofExcept
        ((Engine.fresh session.dialect session.draws (some s) generation).load data name)
      log (Engine.loadedLine data.length name)
      session.engine.forM retire
      let c ← addEngine e
      modifySession s fun session => { session with generation, engine := some c }
      log ⟨.info, .session, "session generation " ++ toString generation ++ ": " ++
        (if name.isEmpty then toString data.length ++ " bytes" else name)⟩
      return c) := by
  simp only [reload, loadNew_eq, bind_assoc, pure_bind]

/-! ### Starts -/

/-- The checks of a start come before its change, in this order. -/
theorem startEngine_if (he : h.engines[c]? = some e) :
    startEngine c h =
      if e.retired then (.error .retired, h)
      else if e.rom.isNone then (.error .noRom, h)
      else (.ok h.handles.size, { h.putEngine c { e with started := true } with
        handles := h.handles.push ⟨c, e.generation⟩ }) := by
  have hput : (h.putEngine c { e with started := true }).engines[c]? =
      some { e with started := true } := Host.engines_putEngine he
  have hmark : (do
      modifyEngine c fun e => { e with started := true }
      addHandle ⟨c, (← engine c).generation⟩ : HostM Nat) h =
      (.ok h.handles.size, { h.putEngine c { e with started := true } with
        handles := h.handles.push ⟨c, e.generation⟩ }) := by
    rw [bind_of_ok (modifyEngine_apply he _), bind_of_ok (engine_apply hput)]
    rfl
  have hrom : (do
      if (← engine c).rom.isNone then throw .noRom
      modifyEngine c fun e => { e with started := true }
      addHandle ⟨c, (← engine c).generation⟩ : HostM Nat) h =
      if e.rom.isNone then (.error .noRom, h)
      else (.ok h.handles.size, { h.putEngine c { e with started := true } with
        handles := h.handles.push ⟨c, e.generation⟩ }) := by
    rw [bind_of_ok (engine_apply he), ← hmark]
    cases e.rom.isNone <;> rfl
  rw [← hrom, startEngine, bind_of_ok (engine_apply he)]
  cases e.retired <;> rfl

theorem startEngine_of_error (he : h.engines[c]? = some e) {r : Refusal}
    (hs : e.start = .error r) : startEngine c h = (.error r, h) := by
  rw [startEngine_if he]
  rw [Engine.start] at hs
  split at hs
  · next hretired =>
    cases hs
    rw [if_pos hretired]
  · next hretired =>
    rw [if_neg hretired]
    split at hs
    · next hrom =>
      cases hs
      rw [if_pos hrom]
    · cases hs

theorem startEngine_apply (he : h.engines[c]? = some e) {e' : Engine} (hs : e.start = .ok e') :
    startEngine c h = (.ok h.handles.size,
      { h.putEngine c e' with handles := h.handles.push ⟨c, e.generation⟩ }) := by
  rw [startEngine_if he]
  rw [Engine.start] at hs
  split at hs
  · cases hs
  · next hretired =>
    rw [if_neg hretired]
    split at hs
    · cases hs
    · next hrom =>
      cases hs
      rw [if_neg hrom]

theorem startEngine_eq (c : Nat) : startEngine c = (do
    let e ← ofExcept (← engine c).start
    modifyEngine c fun _ => e
    addHandle ⟨c, e.generation⟩) := by
  funext h
  cases he : h.engines[c]? with
  | none =>
    rw [startEngine, bind_of_error (engine_of_eq_none he), bind_of_error (engine_of_eq_none he)]
  | some e =>
    rw [bind_of_ok (engine_apply he)]
    cases hs : e.start with
    | error r => rw [startEngine_of_error he hs, bind_of_error (ofExcept_apply _ _)]
    | ok e' =>
      have hgeneration : e'.generation = e.generation := by rw [Engine.start_eq_ok hs]
      rw [startEngine_apply he hs, bind_of_ok (ofExcept_apply _ _),
        bind_of_ok (modifyEngine_apply he _), hgeneration]
      rfl

end HostM

end Chip8
