import Chip8.Proofs.Engine.Bounds
import Chip8.Proofs.Host.RomFile

/-!
# The life of an engine

A host loads programs into an engine, starts it, asks for steps and retires it,
in any order and with files that may change from one call to the next.  Which
calls are refused depends on three facts about the calls before: whether one of
them has loaded a program, whether one has started the engine, and whether one
has retired it.

`Effect` is all that one call does.  A refused call leaves the engine as it was,
and once the engine has been started its image stays, and its memory changes in
steps only.

* `effect_make`: what one call does to the engine.
* `outlives_makeAll`: the flags of the engine are the three facts about the calls.
* `lifecycle_of_calls`: the next call after any history.
-/

namespace Chip8

/-- A call by which a host makes use of an engine without reaching into its machine. -/
inductive HostCall
  | loadRom (data : List UInt8) (name : String)
  | loadRomFile (path : String)
  | start
  | retire
  | step
  | key (code : Int) (down : Bool)
  | tick
  | screen
  | releaseAll

/-- A call, and the files that are there when it is made. -/
structure Occasion where
  files : Files
  call : HostCall

/-- Calls that have been made, and how each of them ended. -/
abbrev Past :=
  List (HostCall × Except Refusal Reply)

namespace HostCall

/-- The call as a request for the current engine. -/
def request : HostCall → Request
  | loadRom data name => .loadRom data name
  | loadRomFile path => .loadRomFile path
  | start => .start
  | retire => .retire
  | step => .step 1
  | key code down => .key code down
  | tick => .tick 1
  | screen => .screen
  | releaseAll => .releaseAll

def isLoad : HostCall → Bool
  | loadRom .. | loadRomFile _ => true
  | _ => false

def isStart : HostCall → Bool
  | start => true
  | _ => false

def isRetire : HostCall → Bool
  | retire => true
  | _ => false

/-- Whether a call succeeds on an engine that has or has not been started, retired and loaded
before. -/
def Allowed (started retired loaded : Bool) (files : Files) : HostCall → Prop
  | loadRom data _ => started = false ∧ 1 ≤ data.length ∧ data.length ≤ programCapacity
  | loadRomFile path => started = false ∧ files.HasRom path
  | start => retired = false ∧ loaded = true
  | step => started = true
  | key code _ => 0 ≤ code ∧ code < 16
  | retire | tick | screen | releaseAll => True

/-- The reasons for which a call may be refused. -/
def MayRefuse : HostCall → Refusal → Prop
  | loadRom .., r | loadRomFile _, r => r = .romAfterStart ∨ HostM.isLoadFailure r = true
  | start, r => r = .retired ∨ r = .noRom
  | step, r => r = .notStarted
  | key code _, r => r = .keyOutOfRange code
  | retire, _ | tick, _ | screen, _ | releaseAll, _ => False

end HostCall

namespace Past

/-- Whether one of the calls has loaded a program. -/
def loaded (past : Past) : Bool :=
  past.any fun x => x.1.isLoad && x.2.isOk

/-- Whether one of the calls has started the engine. -/
def started (past : Past) : Bool :=
  past.any fun x => x.1.isStart && x.2.isOk

/-- Whether one of the calls has retired the engine. -/
def retired (past : Past) : Bool :=
  past.any fun x => x.1.isRetire && x.2.isOk

end Past

namespace Host

def make (h : Host) (o : Occasion) : Except Refusal Reply × Host :=
  HostM.perform o.call.request { h with files := o.files }

/-- Makes calls one after the other and goes on when one is refused. -/
def makeAll (h : Host) : List Occasion → Past × Host
  | [] => ([], h)
  | o :: rest =>
    let (outcome, h) := h.make o
    let (past, h) := h.makeAll rest
    ((o.call, outcome) :: past, h)

end Host

/-! ### What one call does -/

/-- An engine that no session owns, and whose next calls depend on nothing but itself. -/
structure Engine.Standalone (e : Engine) : Prop extends e.Alone where
  owner : e.owner = none
  sound : e.machine.Sound

/-- All that a call does that has ended so, and has made one engine of another. -/
structure Effect (o : Occasion) (outcome : Except Refusal Reply) (e e' : Engine) : Prop where
  allowed : outcome.isOk = true ↔ o.call.Allowed e.started e.retired e.rom.isSome o.files
  refused : ∀ r, outcome = .error r → o.call.MayRefuse r ∧ e' = e
  started : e'.started = (o.call.isStart && outcome.isOk || e.started)
  retired : e'.retired = (o.call.isRetire && outcome.isOk || e.retired)
  loaded : e'.rom.isSome = (o.call.isLoad && outcome.isOk || e.rom.isSome)
  rom : e.started = true → e'.rom = e.rom
  memory : e.started = true → o.call ≠ .step → e'.machine.memory = e.machine.memory
  standalone : e'.Standalone

namespace Effect

variable {o : Occasion} {e : Engine}

theorem of_refused (he : e.Standalone) {r : Refusal} (hr : o.call.MayRefuse r)
    (hn : ¬o.call.Allowed e.started e.retired e.rom.isSome o.files) :
    Effect o (.error r) e e := by
  have hstays (b b' : Bool) : b' = (b && (Except.error r : Except Refusal Reply).isOk || b') := by
    cases b <;> rfl
  exact
    { allowed := ⟨(by intro h; cases h), fun h => absurd h hn⟩
      refused := by rintro _ ⟨⟩; exact ⟨hr, rfl⟩
      started := hstays _ _
      retired := hstays _ _
      loaded := hstays _ _
      rom := fun _ => rfl
      memory := fun _ _ => rfl
      standalone := he }

theorem of_moved {a : Reply} {machine : Machine} {source : RandomSource}
    {lastStatus : Option Status} (hload : o.call.isLoad = false)
    (hstart : o.call.isStart = false) (hretire : o.call.isRetire = false)
    (hallowed : o.call.Allowed e.started e.retired e.rom.isSome o.files)
    (hmemory : o.call ≠ .step → machine.memory = e.machine.memory)
    (he : { e with machine, source, lastStatus }.Standalone) :
    Effect o (.ok a) e { e with machine, source, lastStatus } where
  allowed := ⟨fun _ => hallowed, fun _ => rfl⟩
  refused _ h := by cases h
  started := by rw [hstart, Bool.false_and, Bool.false_or]
  retired := by rw [hretire, Bool.false_and, Bool.false_or]
  loaded := by rw [hload, Bool.false_and, Bool.false_or]
  rom _ := rfl
  memory _ := hmemory
  standalone := he

theorem of_loaded {a : Reply} {memory : Ram} {rom : Cartridge} (hload : o.call.isLoad = true)
    (hstart : o.call.isStart = false) (hretire : o.call.isRetire = false)
    (hallowed : o.call.Allowed e.started e.retired e.rom.isSome o.files)
    (hstarted : e.started = false) (he : e.Standalone) :
    Effect o (.ok a) e { e with machine := { e.machine with memory }, rom := some rom } where
  allowed := ⟨fun _ => hallowed, fun _ => rfl⟩
  refused _ h := by cases h
  started := by rw [hstart, Bool.false_and, Bool.false_or]
  retired := by rw [hretire, Bool.false_and, Bool.false_or]
  loaded := by rw [hload]; rfl
  rom h := absurd h (by rw [hstarted]; decide)
  memory h := absurd h (by rw [hstarted]; decide)
  standalone :=
    { free := he.free
      plain := he.plain
      owner := he.owner
      sound := he.sound.of_eq rfl rfl }

end Effect

namespace HostM

variable {h : Host} {c : Nat} {e : Engine}

theorem currentEngine_apply (hcurrent : h.current = some c) : currentEngine h = (.ok c, h) := by
  rw [currentEngine, bind_of_ok (get_apply h), hcurrent, required_some]

theorem handleReply_of_owner {n : Nat} {x : Handle} (hx : h.handles[n]? = some x)
    (he : h.engines[x.engine]? = some e) (howner : e.owner = none) :
    ∃ current, handleReply n h = (.ok (.handle n x.generation current), h) := by
  have hcurrent : ∃ current, isCurrent x h = (.ok current, h) := by
    rw [isCurrent, bind_of_ok (engine_apply he), howner]
    cases e.retired <;> exact ⟨_, rfl⟩
  obtain ⟨current, hcurrent⟩ := hcurrent
  refine ⟨current, ?_⟩
  rw [handleReply, bind_of_ok (handle_apply hx), bind_of_ok hcurrent, pure_apply]

end HostM

namespace Engine

theorem load_eq_error {e : Engine} (hfree : e.busy = false) {data : List UInt8} {name : String}
    {r : Refusal} (hl : e.load data name = .error r) :
    (e.started = true ∧ r = .romAfterStart) ∨
      ((data = [] ∨ programCapacity < data.length) ∧ HostM.isLoadFailure r = true) := by
  cases hs : e.started with
  | true =>
    rw [Engine.load, hs] at hl
    cases hl
    exact .inl ⟨rfl, rfl⟩
  | false =>
    by_cases hfits : data ≠ [] ∧ data.length ≤ programCapacity
    · obtain ⟨_, hok⟩ := load_of_fits hs hfree hfits.1 hfits.2 name
      rw [hok] at hl
      cases hl
    · right
      by_cases hempty : data = []
      · subst hempty
        rw [Engine.load, hs] at hl
        cases hl
        exact ⟨.inl rfl, rfl⟩
      · have hlong : programCapacity < data.length :=
          Nat.lt_of_not_le fun hle => hfits ⟨hempty, hle⟩
        have hcheck : Cartridge.check data =
            .error (.oversizedRom data.length programCapacity) := by
          rw [Cartridge.check, if_neg (mt List.isEmpty_iff.mp hempty), if_pos hlong]
        rw [Engine.load, hs, hcheck] at hl
        cases hl
        exact ⟨.inr hlong, rfl⟩

theorem start_eq_error {e : Engine} {r : Refusal} (hs : e.start = .error r) :
    (e.retired = true ∧ r = .retired) ∨ (e.rom.isSome = false ∧ r = .noRom) := by
  rw [Engine.start] at hs
  split at hs
  · next hretired =>
    cases hs
    exact .inl ⟨hretired, rfl⟩
  · split at hs
    · next hrom =>
      cases hs
      exact .inr ⟨by simpa using hrom, rfl⟩
    · cases hs

theorem allowed_of_start {e e' : Engine} (hs : e.start = .ok e') :
    e.retired = false ∧ e.rom.isSome = true := by
  rw [Engine.start] at hs
  split at hs
  · cases hs
  · next hretired =>
    split at hs
    · cases hs
    · next hrom => exact ⟨by simpa using hretired, by simpa [Option.isSome_iff_ne_none] using hrom⟩

end Engine

namespace Host

open HostM

variable {h : Host} {c : Nat} {e : Engine} {files : Files}

def HasEffect (o : Occasion) (c : Nat) (e : Engine) (x : Except Refusal Reply × Host) : Prop :=
  ∃ e', x.2.current = some c ∧ x.2.engines[c]? = some e' ∧ Effect o x.1 e e'

theorem effect_loadRom (hcurrent : h.current = some c) (he : h.engines[c]? = some e)
    (ha : e.Standalone) (data : List UInt8) (name : String) :
    HasEffect ⟨files, .loadRom data name⟩ c e
      ((do return .image (← loadRom c data name) : HostM Reply) h) := by
  cases hl : e.load data name with
  | error r =>
    rw [bind_of_error (loadRom_of_error he hl)]
    refine ⟨e, hcurrent, he, .of_refused ha ?_ ?_⟩
    · rcases Engine.load_eq_error ha.free hl with ⟨-, rfl⟩ | ⟨-, hr⟩
      · exact .inl rfl
      · exact .inr hr
    · rintro ⟨hstarted, hpos, hlength⟩
      rcases Engine.load_eq_error ha.free hl with ⟨hs, -⟩ | ⟨rfl | hlong, -⟩
      · exact absurd hs (by rw [hstarted]; decide)
      · exact absurd hpos (by decide)
      · exact absurd hlong (Nat.not_lt.mpr hlength)
  | ok e' =>
    obtain ⟨rom, -, hload⟩ := loadRom_of_ok he hl
    obtain ⟨hstarted, -, hdata, hlength, memory, -, rfl⟩ := Engine.load_cases hl
    rw [bind_of_ok hload, pure_apply]
    refine ⟨_, hcurrent, engines_putEngine he, .of_loaded rfl rfl rfl ?_ hstarted ha⟩
    exact ⟨hstarted, List.length_pos_iff.mpr hdata, hlength⟩

theorem effect_loadRomFile (hcurrent : h.current = some c) (he : h.engines[c]? = some e)
    (ha : e.Standalone) (path : String) :
    HasEffect ⟨h.files, .loadRomFile path⟩ c e
      ((do return .image (← loadRomFile c path) : HostM Reply) h) := by
  by_cases hrom : h.files.HasRom path
  · cases hs : e.started with
    | false =>
      obtain ⟨rom, memory, lines, hload⟩ := loadRomFile_of_hasRom he hs ha.free hrom
      rw [bind_of_ok hload, pure_apply]
      exact ⟨_, hcurrent, engines_putEngine he, .of_loaded rfl rfl rfl ⟨hs, hrom⟩ hs ha⟩
    | true =>
      obtain ⟨rom, lines, hread, -⟩ := readRomFile_of_hasRom hrom
      have hload : loadRomFile c path h = (.error .romAfterStart, h.addLines lines) := by
        have he' : (h.addLines lines).engines[c]? = some e := he
        rw [loadRomFile, bind_of_ok hread,
          bind_of_error (loadRom_of_error he' (Engine.load_of_started hs _ _))]
      rw [bind_of_error hload]
      refine ⟨e, hcurrent, he, .of_refused ha (.inl rfl) ?_⟩
      rintro ⟨hn, -⟩
      exact absurd hs (by rw [hn]; decide)
  · obtain ⟨r, lines, hload, hr⟩ := loadRomFile_of_not_hasRom c hrom
    rw [bind_of_error hload]
    exact ⟨e, hcurrent, he, .of_refused ha (.inr hr) fun hallowed => hrom hallowed.2⟩

theorem effect_start (hcurrent : h.current = some c) (he : h.engines[c]? = some e)
    (ha : e.Standalone) :
    HasEffect ⟨files, .start⟩ c e
      ((do handleReply (← startEngine c) : HostM Reply) h) := by
  cases hs : e.start with
  | error r =>
    rw [bind_of_error (startEngine_of_error he hs)]
    refine ⟨e, hcurrent, he, .of_refused ha ?_ ?_⟩
    · rcases Engine.start_eq_error hs with ⟨-, rfl⟩ | ⟨-, rfl⟩
      · exact .inl rfl
      · exact .inr rfl
    · rintro ⟨hretired, hloaded⟩
      rcases Engine.start_eq_error hs with ⟨h', -⟩ | ⟨h', -⟩
      · exact absurd h' (by rw [hretired]; decide)
      · exact absurd h' (by rw [hloaded]; decide)
  | ok e' =>
    have hallowed := Engine.allowed_of_start hs
    rw [bind_of_ok (startEngine_apply he hs)]
    obtain rfl := Engine.start_eq_ok hs
    -- The handle that has just been given is for an engine that no session owns.
    have hhandle : (h.handles.push ⟨c, e.generation⟩)[h.handles.size]? =
        some ⟨c, e.generation⟩ := Array.getElem?_push_size
    obtain ⟨current, hreply⟩ := handleReply_of_owner
      (h := { h.putEngine c { e with started := true } with
        handles := h.handles.push ⟨c, e.generation⟩ }) hhandle (engines_putEngine he) ha.owner
    rw [hreply]
    exact ⟨_, hcurrent, engines_putEngine he,
      { allowed := ⟨fun _ => hallowed, fun _ => rfl⟩
        refused := by rintro _ ⟨⟩
        started := rfl
        retired := rfl
        loaded := rfl
        rom := fun _ => rfl
        memory := fun _ _ => rfl
        standalone :=
          { free := ha.free
            plain := ha.plain
            owner := ha.owner
            sound := ha.sound } }⟩

theorem effect_step (perform : Request → HostM Reply) (hcurrent : h.current = some c)
    (he : h.engines[c]? = some e) (ha : e.Standalone) :
    HasEffect ⟨files, .step⟩ c e
      ((do return .status (← stepEngine perform c) : HostM Reply) h) := by
  cases hs : e.started with
  | false =>
    rw [bind_of_error (stepEngine_of_not_started he hs)]
    exact ⟨e, hcurrent, he, .of_refused ha rfl fun hn => absurd hs (by rw [hn]; decide)⟩
  | true =>
    obtain ⟨hsound, status, hstatus⟩ := ha.sound.step e.source.nextByte
    have houtcome : e.outcome = .ok status := by
      rw [Engine.outcome, Engine.reaction, hstatus]
      rfl
    rw [bind_of_ok ((stepEngine_apply he hs ha.free
      (Engine.undisturbed_of_isPlain ha.plain)).trans (by rw [houtcome])), pure_apply]
    obtain ⟨source, lastStatus, heq⟩ := e.stepped_eq
    have hplain := Engine.isPlain_stepped ha.plain
    rw [heq] at hplain ⊢
    refine ⟨_, hcurrent, engines_putEngine he,
      .of_moved rfl rfl rfl hs (fun hn => absurd rfl hn) ?_⟩
    exact
      { free := ha.free
        plain := hplain
        owner := ha.owner
        sound := hsound }

theorem effect_of_machine (o : Occasion) (hload : o.call.isLoad = false)
    (hstart : o.call.isStart = false) (hretire : o.call.isRetire = false)
    (hallowed : o.call.Allowed e.started e.retired e.rom.isSome o.files)
    (hcurrent : h.current = some c) (he : h.engines[c]? = some e) (ha : e.Standalone)
    {a : Reply} {machine : Machine} (hmemory : machine.memory = e.machine.memory)
    (hsound : machine.Sound) :
    HasEffect o c e (.ok a, h.putEngine c { e with machine }) :=
  ⟨_, hcurrent, engines_putEngine he,
    .of_moved hload hstart hretire hallowed (fun _ => hmemory)
      { free := ha.free
        plain := ha.plain
        owner := ha.owner
        sound := hsound }⟩

theorem effect_key (hcurrent : h.current = some c) (he : h.engines[c]? = some e)
    (ha : e.Standalone) (code : Int) (down : Bool) :
    HasEffect ⟨files, .key code down⟩ c e
      ((do setKey c code down; return .nothing : HostM Reply) h) := by
  have happly := setKey_apply he ha.free code down
  rw [Engine.keyOutcome, Engine.keyed] at happly
  by_cases hcode : 0 ≤ code ∧ code < 16
  · rw [Keypad.key?, dif_pos hcode] at happly
    rw [bind_of_ok happly, pure_apply]
    exact effect_of_machine ⟨files, .key code down⟩ rfl rfl rfl hcode hcurrent he ha rfl
      (ha.sound.of_eq rfl rfl)
  · rw [Keypad.key?, dif_neg hcode] at happly
    rw [bind_of_error happly]
    exact ⟨e, hcurrent, engines_putEngine he, .of_refused ha rfl hcode⟩

theorem effect_perform (hcurrent : h.current = some c) (he : h.engines[c]? = some e)
    (ha : e.Standalone) (call : HostCall) :
    HasEffect ⟨h.files, call⟩ c e (perform call.request h) := by
  have hcurrentEngine := currentEngine_apply hcurrent
  have hrest {f : Nat → HostM Reply} (hf : HasEffect ⟨h.files, call⟩ c e (f c h)) :
      HasEffect ⟨h.files, call⟩ c e ((currentEngine >>= f) h) := by
    rw [bind_of_ok hcurrentEngine]
    exact hf
  show HasEffect _ c e (respond (performWithin 499) call.request h)
  cases call with
  | loadRom data name => exact hrest (effect_loadRom hcurrent he ha data name)
  | loadRomFile path => exact hrest (effect_loadRomFile hcurrent he ha path)
  | start => exact hrest (effect_start hcurrent he ha)
  | step => exact hrest (effect_step _ hcurrent he ha)
  | key code down => exact hrest (effect_key hcurrent he ha code down)
  | retire =>
    refine hrest ?_
    rw [retire, bind_of_ok (modifyEngine_apply he _), pure_apply]
    exact ⟨_, hcurrent, engines_putEngine he,
      { allowed := ⟨fun _ => trivial, fun _ => rfl⟩
        refused := by rintro _ ⟨⟩
        started := rfl
        retired := rfl
        loaded := rfl
        rom := fun _ => rfl
        memory := fun _ _ => rfl
        standalone :=
          { free := ha.free
            plain := ha.plain
            owner := ha.owner
            sound := ha.sound } }⟩
  | tick =>
    refine hrest ?_
    have htick : tickTimes c (Int.toNat 1) h =
        (.ok (), h.putEngine c { e with machine := e.machine.tickTimers }) :=
      bind_of_ok (tickEngine_apply he ha.free) _
    rw [bind_of_ok htick, pure_apply]
    exact effect_of_machine ⟨h.files, .tick⟩ rfl rfl rfl trivial hcurrent he ha rfl
      (ha.sound.of_eq rfl rfl)
  | screen =>
    refine hrest ?_
    rw [bind_of_ok (readScreen_apply he ha.free), pure_apply]
    exact ⟨e, hcurrent, he, .of_moved rfl rfl rfl trivial (fun _ => rfl) ha⟩
  | releaseAll =>
    refine hrest ?_
    rw [bind_of_ok (modifyMachine_apply he _), pure_apply]
    exact effect_of_machine ⟨h.files, .releaseAll⟩ rfl rfl rfl trivial hcurrent he ha rfl
      (ha.sound.of_eq rfl rfl)

/-- **What a call does** to an engine that stands alone. -/
theorem effect_make (hcurrent : h.current = some c) (he : h.engines[c]? = some e)
    (ha : e.Standalone) (o : Occasion) : HasEffect o c e (h.make o) :=
  effect_perform (h := { h with files := o.files }) hcurrent he ha o.call

/-! ### Histories -/

/-- What calls that ended so have made of an engine. -/
structure Outlives (past : Past) (e e' : Engine) : Prop where
  started : e'.started = (past.started || e.started)
  retired : e'.retired = (past.retired || e.retired)
  loaded : e'.rom.isSome = (past.loaded || e.rom.isSome)
  rom : e.started = true → e'.rom = e.rom
  standalone : e'.Standalone

theorem Outlives.cons {o : Occasion} {outcome : Except Refusal Reply} {past : Past}
    {e e' e'' : Engine} (hfirst : Effect o outcome e e') (hrest : Outlives past e' e'') :
    Outlives ((o.call, outcome) :: past) e e'' where
  started := by
    rw [hrest.started, hfirst.started, Bool.or_left_comm, ← Bool.or_assoc]
    rfl
  retired := by
    rw [hrest.retired, hfirst.retired, Bool.or_left_comm, ← Bool.or_assoc]
    rfl
  loaded := by
    rw [hrest.loaded, hfirst.loaded, Bool.or_left_comm, ← Bool.or_assoc]
    rfl
  rom hs := by
    have hs' : e'.started = true := by rw [hfirst.started, hs, Bool.or_true]
    exact (hrest.rom hs').trans (hfirst.rom hs)
  standalone := hrest.standalone

/-- **What calls have done** can be read from how they ended. -/
theorem outlives_makeAll (hcurrent : h.current = some c) (he : h.engines[c]? = some e)
    (ha : e.Standalone) (calls : List Occasion) : ∃ e',
      (h.makeAll calls).2.current = some c ∧ (h.makeAll calls).2.engines[c]? = some e' ∧
        Outlives (h.makeAll calls).1 e e' := by
  induction calls generalizing h e with
  | nil => exact ⟨e, hcurrent, he, ⟨rfl, rfl, rfl, fun _ => rfl, ha⟩⟩
  | cons o rest ih =>
    obtain ⟨e', hcurrent', he', heffect⟩ := effect_make hcurrent he ha o
    obtain ⟨e'', hcurrent'', he'', hrest⟩ := ih hcurrent' he' heffect.standalone
    exact ⟨e'', hcurrent'', he'', hrest.cons heffect⟩

end Host

open Host

/-- **The life of an engine.**  Whether a call succeeds depends on whether the calls before have
loaded a program, started the engine or retired it.  A refused call leaves the whole engine as it
was.  After the start the image stays for good, and only a step changes the memory. -/
theorem lifecycle_of_calls {h : Host} {c : Nat} {dialect : Dialect} {draws : List (Draw Request)}
    {generation : Int} (hcurrent : h.current = some c)
    (he : h.engines[c]? = some (Engine.fresh dialect draws none generation))
    (hdraws : ∀ d ∈ draws, d.before = none) (calls : List Occasion) (next : Occasion)
    (later : List Occasion) :
    let past := (h.makeAll calls).1
    let h₁ := (h.makeAll calls).2
    let outcome := (h₁.make next).1
    let h₂ := (h₁.make next).2
    ∃ e₁ e₂ e₃, h₁.engines[c]? = some e₁ ∧ h₂.engines[c]? = some e₂ ∧
      (h₂.makeAll later).2.engines[c]? = some e₃ ∧
      (outcome.isOk = true ↔
        next.call.Allowed past.started past.retired past.loaded next.files) ∧
      (∀ r, outcome = .error r → next.call.MayRefuse r ∧ e₂ = e₁) ∧
      (past.started = true → e₂.rom = e₁.rom ∧ e₃.rom = e₁.rom ∧
        (next.call ≠ .step → e₂.machine.memory = e₁.machine.memory)) := by
  intro past h₁ outcome h₂
  have hfresh : (Engine.fresh dialect draws none generation).Standalone :=
    { free := rfl
      plain := hdraws
      owner := rfl
      sound := Machine.sound_fresh dialect }
  obtain ⟨e₁, hcurrent₁, he₁, hpast⟩ := outlives_makeAll hcurrent he hfresh calls
  obtain ⟨e₂, hcurrent₂, he₂, hnext⟩ := effect_make hcurrent₁ he₁ hpast.standalone next
  obtain ⟨e₃, -, he₃, hlater⟩ := outlives_makeAll hcurrent₂ he₂ hnext.standalone later
  have hstarted : e₁.started = past.started := hpast.started.trans (Bool.or_false _)
  have hretired : e₁.retired = past.retired := hpast.retired.trans (Bool.or_false _)
  have hloaded : e₁.rom.isSome = past.loaded := hpast.loaded.trans (Bool.or_false _)
  refine ⟨e₁, e₂, e₃, he₁, he₂, he₃, ?_, hnext.refused, fun hs => ?_⟩
  · rw [← hstarted, ← hretired, ← hloaded]
    exact hnext.allowed
  · have hs₁ : e₁.started = true := hstarted.trans hs
    have hs₂ : e₂.started = true := by rw [hnext.started, hs₁, Bool.or_true]
    exact ⟨hnext.rom hs₁, (hlater.rom hs₂).trans (hnext.rom hs₁), hnext.memory hs₁⟩

/-- A host with a new engine and a file with a program. -/
def Host.withFile : Host :=
  { Host.ofFiles ⟨[("loop.ch8", [0x12, 0x00])], []⟩ with
    engines := #[Engine.fresh Dialect.plain [⟨none, 7⟩] none 3], current := some 0 }

/-- A start before the load, a load of nothing, a load from a file, a start and a step. -/
def Host.withFileCalls : List Occasion :=
  [.start, .loadRom [] "EMPTY", .loadRomFile "loop.ch8", .start, .step].map
    (Occasion.mk Host.withFile.files)

/-- A load of an engine that has been started is refused, and the engine is then retired. -/
theorem lifecycle_of_calls_of_late_load :
    let past := (Host.withFile.makeAll Host.withFileCalls).1
    let h₁ := (Host.withFile.makeAll Host.withFileCalls).2
    let outcome := (h₁.make ⟨⟨[], []⟩, .loadRom [0x00, 0xE0] "LATE"⟩).1
    let h₂ := (h₁.make ⟨⟨[], []⟩, .loadRom [0x00, 0xE0] "LATE"⟩).2
    ∃ e₁ e₂ e₃, h₁.engines[0]? = some e₁ ∧ h₂.engines[0]? = some e₂ ∧
      (h₂.makeAll [⟨⟨[], []⟩, .retire⟩, ⟨⟨[], []⟩, .key 16 true⟩]).2.engines[0]? = some e₃ ∧
      (outcome.isOk = true ↔ HostCall.Allowed past.started past.retired past.loaded ⟨[], []⟩
        (.loadRom [0x00, 0xE0] "LATE")) ∧
      (∀ r, outcome = .error r →
        HostCall.MayRefuse (.loadRom [0x00, 0xE0] "LATE") r ∧ e₂ = e₁) ∧
      (past.started = true → e₂.rom = e₁.rom ∧ e₃.rom = e₁.rom ∧
        (HostCall.loadRom [0x00, 0xE0] "LATE" ≠ .step →
          e₂.machine.memory = e₁.machine.memory)) :=
  lifecycle_of_calls rfl rfl (by simp) _ ⟨⟨[], []⟩, .loadRom [0x00, 0xE0] "LATE"⟩ _

end Chip8
