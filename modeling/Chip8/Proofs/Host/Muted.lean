import Chip8.Proofs.Engine.Step

/-!
# Hosts without reports

An engine may report each instruction, and each byte that is read or written.
`Host.muted` is the host with all these reports off: the flags of its engines, the
lines that are in its log, and the switches in the requests that wait in random
numbers, frame callbacks and sleeps.

`Mutes` relates what is done to a host to what is done to the host without
reports.  It gives the same and leaves the same host, but for the reports.  The
two actions are written the same way, but for the reports and for what has been
read from the host.

* `Engine.isTrace_of_mem_fetchLines`, `Host.muted_addLines`: what an engine reports of
  a fetch is left out.
* `mutes_bind`, `mutes_exclusive`: actions put together.
* `mutes_engine_bind`: what is done after a look at an engine.
-/

namespace Chip8

/-! ### Requests without reports -/

/-- The line reports an instruction, or a byte that is read or written. -/
def LogLine.isTrace (line : LogLine) : Bool :=
  decide (line.level = .debug ∧ (line.source = .processor ∨ line.source = .memory))

mutual

/-- The request with all switches of the reports in it set to off. -/
def Request.muted : Request → Request
  | .newEngine names draws number => .newEngine names (Request.mutedDraws draws) number
  | .newSession names draws => .newSession names (Request.mutedDraws draws)
  | .trace _ => .trace false
  | .traceMemory _ => .traceMemory false
  | .newPacer n rate timerFrequency refresh frames clock =>
    .newPacer n rate timerFrequency refresh (Request.mutedFrames frames) clock
  | .runFor wall seconds maxBatch ⟨entries⟩ limit =>
    .runFor wall seconds maxBatch ⟨Request.mutedEntries entries⟩ limit
  | .run maxBatch ⟨entries⟩ limit => .run maxBatch ⟨Request.mutedEntries entries⟩ limit
  | r => r

def Request.mutedDraws : List (Draw Request) → List (Draw Request)
  | [] => []
  | ⟨before, value⟩ :: rest => ⟨Request.mutedBefore before, value⟩ :: Request.mutedDraws rest

def Request.mutedBefore : Option Request → Option Request
  | none => none
  | some r => some r.muted

def Request.mutedFrames : Option (Script Request) → Option (Script Request)
  | none => none
  | some ⟨entries⟩ => some ⟨Request.mutedEntries entries⟩

def Request.mutedEntries : List (Nat × List Request) → List (Nat × List Request)
  | [] => []
  | (k, requests) :: rest => (k, Request.mutedList requests) :: Request.mutedEntries rest

def Request.mutedList : List Request → List Request
  | [] => []
  | r :: rest => r.muted :: Request.mutedList rest

end

def Draw.muted (d : Draw Request) : Draw Request :=
  { d with before := d.before.map Request.muted }

def Script.muted (s : Script Request) : Script Request :=
  ⟨Request.mutedEntries s.entries⟩

theorem Request.mutedList_eq (requests : List Request) :
    mutedList requests = requests.map muted := by
  induction requests with
  | nil => rfl
  | cons r rest ih => exact congrArg (r.muted :: ·) ih

theorem Request.mutedBefore_eq (before : Option Request) :
    mutedBefore before = before.map muted := by
  cases before <;> rfl

theorem Request.mutedDraws_eq (draws : List (Draw Request)) :
    mutedDraws draws = draws.map Draw.muted := by
  induction draws with
  | nil => rfl
  | cons d rest ih =>
    rw [mutedDraws, mutedBefore_eq, ih]
    rfl

theorem Request.mutedFrames_eq (frames : Option (Script Request)) :
    mutedFrames frames = frames.map Script.muted := by
  cases frames <;> rfl

theorem Script.requests_muted (s : Script Request) (k : Nat) :
    s.muted.requests k = (s.requests k).map Request.muted := by
  obtain ⟨entries⟩ := s
  show ((Request.mutedEntries entries).lookup k).getD [] = ((entries.lookup k).getD []).map _
  induction entries with
  | nil => rfl
  | cons entry rest ih =>
    obtain ⟨k', requests⟩ := entry
    rw [Request.mutedEntries, Request.mutedList_eq, List.lookup_cons, List.lookup_cons]
    cases k == k' with
    | true => rfl
    | false => exact ih

/-! ### Hosts without reports -/

def RandomSource.muted (s : RandomSource) : RandomSource :=
  { s with draws := Request.mutedDraws s.draws }

abbrev Engine.muted (e : Engine) : Engine :=
  { e with source := e.source.muted, tracing := false, tracingMemory := false }

abbrev Session.muted (session : Session) : Session :=
  { session with draws := Request.mutedDraws session.draws }

abbrev Pacer.muted (q : Pacer) : Pacer :=
  { q with frames := q.frames.map Script.muted }

/-- The host with all reports off, and without those in its log. -/
abbrev Host.muted (h : Host) : Host :=
  { h with
    engines := h.engines.map Engine.muted
    sessions := h.sessions.map Session.muted
    pacers := h.pacers.map Pacer.muted
    log := h.log.filter fun line => !line.isTrace }

theorem RandomSource.next?_muted (s : RandomSource) :
    s.muted.next? = s.next?.map Draw.muted := by
  show (Request.mutedDraws s.draws)[s.position]? = _
  rw [Request.mutedDraws_eq, List.getElem?_map]
  rfl

theorem RandomSource.advance_muted (s : RandomSource) : s.muted.advance = s.advance.muted := by
  have hlength : (Request.mutedDraws s.draws).length = s.draws.length := by
    rw [Request.mutedDraws_eq, List.length_map]
  show RandomSource.mk _ ((s.position + 1) % (Request.mutedDraws s.draws).length) = _
  rw [hlength]
  rfl

theorem Engine.stateLine_muted (e : Engine) : e.muted.stateLine = e.stateLine := rfl

theorem Engine.muted_fresh (dialect : Dialect) (draws : List (Draw Request)) (owner : Option Nat)
    (number : Int) :
    Engine.fresh dialect (Request.mutedDraws draws) owner number =
      (Engine.fresh dialect draws owner number).muted := rfl

theorem Engine.load_muted (e : Engine) (data : List UInt8) (name : String) :
    e.muted.load data name = (e.load data name).map Engine.muted := by
  rw [load, load]
  by_cases hstarted : e.started = true
  · rw [if_pos hstarted, if_pos hstarted]
    rfl
  rw [if_neg hstarted, if_neg hstarted]
  cases Cartridge.check data with
  | error r => rfl
  | ok data =>
    show (if e.busy = true then _ else _) = Except.map _ (if e.busy = true then _ else _)
    by_cases hbusy : e.busy = true
    · rw [if_pos hbusy, if_pos hbusy]
      rfl
    rw [if_neg hbusy, if_neg hbusy]
    have hmachine : e.muted.machine = e.machine := rfl
    rw [hmachine]
    rcases hw : e.machine.memory.writeBlock programStart (data.map fun b => (b.toNat : Int)) with
      ⟨memory, o | ⟨⟩⟩
    · rw [hw]
      rfl
    · rw [hw]
      rfl

theorem Engine.start_muted (e : Engine) : e.muted.start = e.start.map Engine.muted := by
  show (if e.retired = true then _ else if e.rom.isNone = true then _ else _) = _
  rw [start]
  split
  · rfl
  · split <;> rfl

/-! ### Reports -/

theorem Engine.isTrace_of_mem_fetchLines {e : Engine} {line : LogLine}
    (hline : line ∈ e.fetchLines) : line.isTrace = true := by
  rw [fetchLines] at hline
  cases hfetch : e.machine.fetch with
  | error o =>
    rw [hfetch] at hline
    cases hline
  | ok w =>
    rw [hfetch] at hline
    rcases List.mem_append.mp hline with haccess | htrace
    · split at haccess
      · obtain ⟨a, -, rfl⟩ := List.mem_map.mp haccess
        rfl
      · cases haccess
    · split at htrace
      · rw [List.mem_singleton.mp htrace]
        rfl
      · cases htrace

theorem Engine.fetchLines_muted (e : Engine) : e.muted.fetchLines = [] := by
  rw [fetchLines]
  dsimp only
  cases e.machine.fetch <;> rfl

namespace Host

variable {h : Host}

theorem muted_addLines {lines : List LogLine} (hlines : ∀ line ∈ lines, line.isTrace = true) :
    (h.addLines lines).muted = h.muted := by
  have hnone : lines.filter (fun line => !line.isTrace) = [] := by
    rw [List.filter_eq_nil_iff]
    intro line hline
    rw [hlines line hline]
    exact Bool.false_ne_true
  refine congrArg (fun log => { h.muted with log }) (Array.ext' ?_)
  show ((h.log ++ lines).filter _).toList = (h.log.filter _).toList
  rw [Array.toList_filter, Array.toList_appendList, List.filter_append, hnone, List.append_nil,
    Array.toList_filter]

theorem muted_pushLine {line : LogLine} (hline : line.isTrace = false) :
    ({ h with log := h.log.push line } : Host).muted =
      { h.muted with log := h.muted.log.push line } := by
  refine congrArg (fun log => { h.muted with log }) (Array.ext' ?_)
  show ((h.log.push line).filter _).toList = ((h.log.filter _).push line).toList
  rw [Array.toList_filter, Array.toList_push, List.filter_append, Array.toList_push,
    Array.toList_filter, List.filter_cons_of_pos (by rw [hline]; rfl), List.filter_nil]

end Host

theorem modify_map {α : Type} (xs : Array α) (i : Nat) {f f' g : α → α}
    (hfg : ∀ a, f' (g a) = g (f a)) : (xs.map g).modify i f' = (xs.modify i f).map g := by
  apply Array.ext_getElem?
  intro j
  rw [Array.getElem?_modify, Array.getElem?_map, Array.getElem?_map, Array.getElem?_modify]
  split
  · rw [Option.map_map, Option.map_map]
    exact congrArg (xs[j]?.map ·) (funext hfg)
  · rfl

/-! ### Actions without reports -/

namespace HostM

variable {α β : Type}

/-- The second action does to the host without reports what the first one does to the host. -/
class Mutes (x y : HostM α) : Prop where
  eq : ∀ h : Host, y h.muted = ((x h).1, (x h).2.muted)

/-! ### Actions put together -/

theorem mutes_then {x y : HostM α} {g g' : α → HostM β} [hx : Mutes x y]
    (hg : ∀ a, Mutes (g a) (g' a)) : Mutes (x >>= g) (y >>= g') where
  eq h := by
    have hfirst := hx.eq h
    rcases hr : x h with ⟨r | a, h'⟩ <;> rw [hr] at hfirst
    · rw [bind_of_error hfirst, bind_of_error hr]
    · rw [bind_of_ok hfirst, bind_of_ok hr]
      exact (hg a).eq h'

instance mutes_bind {x y : HostM α} {g g' : α → HostM β} [Mutes x y]
    [hg : ∀ a, Mutes (g a) (g' a)] : Mutes (x >>= g) (y >>= g') :=
  mutes_then hg

instance mutes_ite {c : Prop} [Decidable c] {x y x' y' : HostM α} [hx : Mutes x y]
    [hx' : Mutes x' y'] : Mutes (if c then x else x') (if c then y else y') := by
  split
  · exact hx
  · exact hx'

instance mutes_pure (a : α) : Mutes (pure a) (pure a) :=
  ⟨fun _ => rfl⟩

instance mutes_throw (r : Refusal) : Mutes (throw r : HostM α) (throw r) :=
  ⟨fun _ => rfl⟩

theorem mutes_guard {c : Prop} [Decidable c] {r : Refusal} {x y : HostM α} (hx : Mutes x y) :
    Mutes (if c then (do throw r; x) else x) (if c then (do throw r; y) else y) :=
  inferInstance

instance mutes_attempt {x y : HostM α} [hx : Mutes x y] : Mutes (attempt x) (attempt y) where
  eq h := by
    rw [attempt_apply, attempt_apply, hx.eq h]

instance mutes_ofExcept (x : Except Refusal α) : Mutes (ofExcept x) (ofExcept x) where
  eq h := by rw [ofExcept_apply, ofExcept_apply]

theorem mutes_ofExcept_bind {x : Except Refusal α} {f : α → α} {g g' : α → HostM β}
    (hg : ∀ a, Mutes (g a) (g' (f a))) : Mutes (ofExcept x >>= g) (ofExcept (x.map f) >>= g') := by
  cases x with
  | error r => exact mutes_throw r
  | ok a => exact hg a

instance mutes_ofConversion (x : Except Binary64.ConversionError α) :
    Mutes (ofConversion x) (ofConversion x) :=
  mutes_ofExcept _

instance mutes_ofMemory (x : Except OutOfRange α) : Mutes (ofMemory x) (ofMemory x) :=
  mutes_ofExcept _

instance mutes_required (r : Refusal) (a? : Option α) : Mutes (required r a?) (required r a?) := by
  cases a? with
  | none => exact mutes_throw r
  | some a => exact mutes_pure a

instance mutes_forM {f : α → HostM Unit} [hf : ∀ a, Mutes (f a) (f a)] (a? : Option α) :
    Mutes (a?.forM f) (a?.forM f) := by
  cases a? with
  | none => exact mutes_pure ()
  | some a => exact hf a

/-- What is done after a look at the host. -/
instance mutes_get_bind {g g' : Host → HostM α} [hg : ∀ h, Mutes (g h) (g' h.muted)] :
    Mutes (get >>= g) (get >>= g') :=
  ⟨fun h => (hg h).eq h⟩

theorem mutes_modify {f f' : Host → Host} (hf : ∀ h : Host, f' h.muted = (f h).muted) :
    Mutes (modify f : HostM Unit) (modify f') :=
  ⟨fun h => congrArg (Prod.mk _) (hf h)⟩

theorem mutes_modifyGet {f f' : Host → α × Host} (hvalue : ∀ h : Host, (f' h.muted).1 = (f h).1)
    (hf : ∀ h : Host, (f' h.muted).2 = (f h).2.muted) :
    Mutes (modifyGet f : HostM α) (modifyGet f') :=
  ⟨fun h => Prod.ext (congrArg Except.ok (hvalue h)) (hf h)⟩

/-! ### Notes and log -/

instance mutes_note (n : Note) : Mutes (note n) (note n) :=
  mutes_modify fun _ => rfl

theorem mutes_log {line : LogLine} (hline : line.isTrace = false) : Mutes (log line) (log line) :=
  mutes_modify fun _ => (Host.muted_pushLine hline).symm

theorem mutes_logAll {lines : List LogLine} (hlines : ∀ line ∈ lines, line.isTrace = true) :
    Mutes (logAll lines) (logAll []) where
  eq h := by
    rw [logAll_apply, logAll_apply, Host.addLines_nil, Host.muted_addLines hlines]

/-! ### Engines -/

variable {c : Nat}

theorem mutes_engine_then {g g' : Engine → HostM α} (hg : ∀ e, Mutes (g e) (g' e.muted)) :
    Mutes (engine c >>= g) (engine c >>= g') where
  eq h := by
    have hmuted : h.muted.engines[c]? = h.engines[c]?.map Engine.muted := Array.getElem?_map ..
    cases he : h.engines[c]? with
    | none =>
      rw [he] at hmuted
      rw [bind_of_error (engine_of_eq_none he), bind_of_error (engine_of_eq_none hmuted)]
    | some e =>
      rw [he] at hmuted
      rw [bind_of_ok (engine_apply he), bind_of_ok (engine_apply hmuted)]
      exact (hg e).eq h

instance mutes_engine_bind {g g' : Engine → HostM α} [hg : ∀ e, Mutes (g e) (g' e.muted)] :
    Mutes (engine c >>= g) (engine c >>= g') :=
  mutes_engine_then hg

theorem mutes_modifyEngine {f f' : Engine → Engine} (hf : ∀ e : Engine, f' e.muted = (f e).muted) :
    Mutes (modifyEngine c f) (modifyEngine c f') :=
  mutes_modify fun h => congrArg (fun engines => { h.muted with engines }) (modify_map _ c hf)

instance mutes_modifyMachine (f : Machine → Machine) :
    Mutes (modifyMachine c f) (modifyMachine c f) :=
  mutes_modifyEngine fun _ => rfl

instance mutes_setMachine (m : Machine) : Mutes (setMachine c m) (setMachine c m) :=
  mutes_modifyEngine fun _ => rfl

instance mutes_retire : Mutes (retire c) (retire c) :=
  mutes_modifyEngine fun _ => rfl

instance mutes_machine : Mutes (machine c) (machine c) := by
  unfold machine
  infer_instance

theorem mutes_addEngine (e : Engine) : Mutes (addEngine e) (addEngine e.muted) :=
  mutes_modifyGet (fun _ => Array.size_map) fun h =>
    congrArg (fun engines => { h.muted with engines }) Array.map_push.symm

instance mutes_currentEngine : Mutes currentEngine currentEngine := by
  unfold currentEngine
  infer_instance

instance mutes_setCurrent : Mutes (setCurrent c) (setCurrent c) :=
  mutes_modify fun _ => rfl

instance mutes_exclusive (activity : Activity) {x y : HostM α} [Mutes x y] :
    Mutes (exclusive c activity x) (exclusive c activity y) := by
  have hmark (b : Bool) : Mutes (modifyEngine c fun e => { e with busy := b })
      (modifyEngine c fun e => { e with busy := b }) := mutes_modifyEngine fun _ => rfl
  unfold exclusive
  infer_instance

/-! ### Handles and sessions -/

instance mutes_handle (n : Nat) : Mutes (handle n) (handle n) := by
  unfold handle
  infer_instance

instance mutes_addHandle (x : Handle) : Mutes (addHandle x) (addHandle x) :=
  mutes_modifyGet (fun _ => rfl) fun _ => rfl

instance mutes_currentSession : Mutes currentSession currentSession := by
  unfold currentSession
  infer_instance

theorem mutes_sessionAt_then {s : Nat} {g g' : Session → HostM α}
    (hg : ∀ session, Mutes (g session) (g' session.muted)) :
    Mutes (sessionAt s >>= g) (sessionAt s >>= g') where
  eq h := by
    have hmuted : h.muted.sessions[s]? = h.sessions[s]?.map Session.muted := Array.getElem?_map ..
    rw [bind_apply, bind_apply, sessionAt_apply, sessionAt_apply, hmuted]
    cases h.sessions[s]? with
    | none => rfl
    | some session => exact (hg session).eq h

instance mutes_sessionAt_bind {s : Nat} {g g' : Session → HostM α}
    [hg : ∀ session, Mutes (g session) (g' session.muted)] :
    Mutes (sessionAt s >>= g) (sessionAt s >>= g') :=
  mutes_sessionAt_then hg

theorem mutes_modifySession (s : Nat) {f : Session → Session}
    (hf : ∀ session : Session, f session.muted = (f session).muted) :
    Mutes (modifySession s f) (modifySession s f) :=
  mutes_modify fun h => congrArg (fun sessions => { h.muted with sessions }) (modify_map _ s hf)

instance mutes_isCurrent (x : Handle) : Mutes (isCurrent x) (isCurrent x) := by
  unfold isCurrent
  refine mutes_engine_then fun e => ?_
  dsimp only
  cases e.owner <;> dsimp only <;> infer_instance

end HostM

end Chip8
