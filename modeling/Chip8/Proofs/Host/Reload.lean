import Chip8.Host.Perform
import Chip8.Proofs.Engine.Step
import Chip8.Proofs.Host.Follows

/-!
# Reloads

A reload of a session, from bytes or from a file, either puts a new engine in the
place of the session's engine or, where it is refused, changes nothing but the
log.  The lemmas `reload_cases`, `reloadFile_cases` and `reloadOrReport_cases`
say everything that such a call can do, and nothing else about reloads needs to
be known.

* `Follows.reload`: a reload, together with the note of its answer, keeps what
  every action keeps.
-/

namespace Chip8

/-- Whether the request is one to reload the session. -/
def Request.isReload : Request → Bool
  | .reload .. | .reloadFile _ | .reloadOrReport _ => true
  | _ => false

namespace Host

variable {h h' h'' : Host} {s : Nat}

theorem SameHoldings.refl (h : Host) : h.SameHoldings h :=
  ⟨rfl, rfl, rfl, rfl, rfl⟩

theorem SameHoldings.trans (h₁ : h.SameHoldings h') (h₂ : h'.SameHoldings h'') :
    h.SameHoldings h'' where
  engines_eq := h₂.engines_eq.trans h₁.engines_eq
  pacers_eq := h₂.pacers_eq.trans h₁.pacers_eq
  sessions_eq := h₂.sessions_eq.trans h₁.sessions_eq
  handles_eq := h₂.handles_eq.trans h₁.handles_eq
  notes_eq := h₂.notes_eq.trans h₁.notes_eq

/-- The second host is the first one with a new engine, free and of the next generation, in the
place of the one that the session holds. -/
def Reloaded (h : Host) (s : Nat) (h' : Host) : Prop :=
  ∃ (session : Session) (e : Engine), h.sessions[s]? = some session ∧ e.busy = false ∧
    e.owner = some s ∧ e.generation = session.generation + 1 ∧
    (h.replaceEngine s session e).SameHoldings h'

namespace Reloaded

theorem trans_same (hr : h.Reloaded s h') (hs : h'.SameHoldings h'') : h.Reloaded s h'' := by
  obtain ⟨session, e, hsession, hfree, howner, hgeneration, hsame⟩ := hr
  exact ⟨session, e, hsession, hfree, howner, hgeneration, hsame.trans hs⟩

theorem same_trans (hs : h.SameHoldings h') (hr : h'.Reloaded s h'') : h.Reloaded s h'' := by
  obtain ⟨session, e, hsession, hfree, howner, hgeneration, hsame⟩ := hr
  rw [hs.sessions_eq] at hsession
  refine ⟨session, e, hsession, hfree, howner, hgeneration, .trans ?_ hsame⟩
  rw [replaceEngine, replaceEngine, hs.engines_eq, hs.sessions_eq]
  exact ⟨rfl, hs.pacers_eq, rfl, hs.handles_eq, hs.notes_eq⟩

theorem exists_session (hr : h.Reloaded s h') :
    ∃ session : Session, h'.sessions[s]? = some session := by
  obtain ⟨session, e, hsession, -, -, -, hsame⟩ := hr
  obtain ⟨hs, -⟩ := Array.getElem?_eq_some_iff.mp hsession
  rw [hsame.sessions_eq]
  exact ⟨_, Array.getElem?_setIfInBounds_self_of_lt hs⟩

theorem setRom (hr : h.Reloaded s h') (rom : Cartridge) :
    h.Reloaded s { h' with
      engines := h'.engines.modify h.engines.size fun e => { e with rom := some rom } } := by
  obtain ⟨session, e, hsession, hfree, howner, hgeneration, hsame⟩ := hr
  refine ⟨session, { e with rom := some rom }, hsession, hfree, howner, hgeneration, ?_,
    hsame.pacers_eq, hsame.sessions_eq, hsame.handles_eq, hsame.notes_eq⟩
  have hsize : (retirePrevious h.engines session.engine).size = h.engines.size :=
    size_retirePrevious _ _
  refine Array.ext_getElem? fun c => ?_
  dsimp only
  rw [hsame.engines_eq]
  rw [Array.getElem?_modify, replaceEngine, replaceEngine, Array.getElem?_push,
    Array.getElem?_push, hsize]
  by_cases hc : c = h.engines.size
  · rw [if_pos hc.symm, if_pos hc, if_pos hc]
    rfl
  · rw [if_neg (Ne.symm hc), if_neg hc, if_neg hc]

theorem engines_follow (hr : h.Reloaded s h') : EnginesFollow h.engines h'.engines := by
  obtain ⟨session, e, -, hfree, -, -, hsame⟩ := hr
  rw [hsame.engines_eq]
  refine .trans ?_ (.push hfree)
  rw [retirePrevious]
  cases session.engine with
  | none => exact .refl _
  | some c =>
    cases he : h.engines[c]? with
    | none =>
      rw [Option.elim_some, modify_of_eq_none he]
      exact .refl _
    | some e =>
      rw [Option.elim_some, modify_eq_setIfInBounds he]
      exact .put he { Engine.Follows.refl e with retired := fun _ => rfl }

/-- **A reload adds its engine to the lineage.** -/
theorem lineage (hr : h.Reloaded s h') {cs : List Nat} (hl : h.Lineage cs) :
    h'.Lineage (cs ++ [h.engines.size]) := by
  obtain ⟨session, e, hsession, -, howner, hgeneration, hsame⟩ := hr
  refine (hl.reload hsession howner hgeneration).of_kept ?_ hsame.sessions_eq hsame.handles_eq
  rw [hsame.engines_eq]
  exact .refl _

end Reloaded

/-- **A reload, together with a note of it,** keeps what every action keeps. -/
theorem Follows.reload (hr : h.Reloaded s h') {n : Note} (hn : n.reloaded? = some h.engines.size) :
    Follows h { h' with notes := h'.notes.push n } where
  engines := hr.engines_follow
  pacers := by
    obtain ⟨session, e, -, -, -, -, hsame⟩ := hr
    show PacersFollow h.pacers h'.pacers
    rw [hsame.pacers_eq]
    exact .refl _
  lineage earlier hl := by
    have hnotes : h'.notes = h.notes := by
      obtain ⟨session, e, -, -, -, -, hsame⟩ := hr
      exact hsame.notes_eq
    have hreloads : reloads { h' with notes := h'.notes.push n } =
        h.reloads ++ [h.engines.size] := by
      rw [reloads, Array.toList_push, List.filterMap_append, List.filterMap_cons_some hn,
        List.filterMap_nil, hnotes, reloads]
    rw [hreloads, ← List.append_assoc]
    exact (hr.lineage hl).of_kept (.refl _) rfl rfl

end Host

namespace HostM

variable {α β : Type}

/-! ### A reload from bytes -/

theorem forM_retire_apply (previous : Option Nat) (h : Host) :
    previous.forM retire h = (.ok (), { h with engines := retirePrevious h.engines previous }) := by
  cases previous <;> rfl

/-- The engine that a reload builds for the next generation of a session. -/
def nextEngine (s : Nat) (session : Session) : Engine :=
  Engine.fresh session.dialect session.draws (some s) ((session.generation + 1 : Nat) : Int)

theorem reload_apply {s : Nat} {data : List UInt8} {name : String} {h : Host} {session : Session}
    {e : Engine} (hs : h.sessions[s]? = some session)
    (hload : (nextEngine s session).load data name = .ok e) : ∃ h',
      reload s data name h = (.ok h.engines.size, h') ∧
        (h.replaceEngine s session e).SameHoldings h' := by
  have hsize : (retirePrevious h.engines session.engine).size = h.engines.size :=
    size_retirePrevious _ _
  have hsessions := modify_eq_setIfInBounds hs fun session' =>
    { session' with
      generation := session.generation + 1
      engine := some (retirePrevious h.engines session.engine).size }
  rw [reload_eq, bind_apply, sessionAt_apply, hs]
  dsimp only [Option.elim_some]
  rw [nextEngine] at hload
  rw [hload, bind_of_ok (ofExcept_apply _ _), bind_of_ok (log_apply _ _),
    bind_of_ok (forM_retire_apply _ _)]
  refine ⟨_, Prod.ext (congrArg Except.ok hsize) rfl, rfl, rfl, hsessions.trans ?_, rfl, rfl⟩
  rw [hsize]
  rfl

/-- **How a reload ends**: it is refused with nothing changed, or it puts a new engine in the place
of the session's. -/
theorem reload_ends (s : Nat) (data : List UInt8) (name : String) (h : Host) :
    (∃ r, reload s data name h = (.error r, h)) ∨
      ∃ session e h', h.sessions[s]? = some session ∧
        (nextEngine s session).load data name = .ok e ∧
        reload s data name h = (.ok h.engines.size, h') ∧
        (h.replaceEngine s session e).SameHoldings h' := by
  cases hs : h.sessions[s]? with
  | none =>
    left
    rw [reload_eq, bind_apply, sessionAt_apply, hs]
    exact ⟨_, rfl⟩
  | some session =>
    cases hload : (nextEngine s session).load data name with
    | error r =>
      left
      rw [reload_eq, bind_apply, sessionAt_apply, hs]
      dsimp only [Option.elim_some]
      rw [nextEngine] at hload
      exact ⟨r, by rw [hload, bind_of_error (ofExcept_apply _ _)]⟩
    | ok e =>
      obtain ⟨h', hreload, hsame⟩ := reload_apply hs hload
      exact .inr ⟨session, e, h', rfl, hload, hreload, hsame⟩

theorem reload_cases (s : Nat) (data : List UInt8) (name : String) (h : Host) :
    (∃ r, reload s data name h = (.error r, h)) ∨
      ∃ h', reload s data name h = (.ok h.engines.size, h') ∧ h.Reloaded s h' := by
  rcases reload_ends s data name h with hrefused | ⟨session, e, h', hs, hload, hreload, hsame⟩
  · exact .inl hrefused
  · obtain ⟨memory, he⟩ := Engine.load_eq_ok hload
    exact .inr ⟨h', hreload, session, e, hs, by rw [he]; rfl, by rw [he]; rfl, by rw [he]; rfl,
      hsame⟩

/-! ### Reloads from a file -/

theorem sameHoldings_bind {x : HostM α} {f : α → HostM β} {h : Host}
    (hx : h.SameHoldings (x h).2) (hf : ∀ a (h' : Host), h'.SameHoldings (f a h').2) :
    h.SameHoldings ((x >>= f) h).2 := by
  rw [bind_apply]
  rcases hr : x h with ⟨_ | a, h'⟩ <;> rw [hr] at hx
  · exact hx
  · exact hx.trans (hf a h')

theorem sameHoldings_ofExcept (x : Except Refusal α) (h : Host) :
    h.SameHoldings (ofExcept x h).2 := by
  rw [ofExcept_apply]
  exact .refl h

theorem sameHoldings_log (line : LogLine) (h : Host) : h.SameHoldings (log line h).2 :=
  ⟨rfl, rfl, rfl, rfl, rfl⟩

theorem sameHoldings_readRomFile (path : String) (h : Host) :
    h.SameHoldings (readRomFile path h).2 := by
  rw [readRomFile]
  refine sameHoldings_bind (.refl h) fun host h => ?_
  refine sameHoldings_bind ?_ fun data h => ?_
  · cases host.files.find? (Text.normalPath path) <;> exact .refl h
  have hrest (h : Host) (line : List UInt8 → LogLine) (rom : List UInt8 → Cartridge) :
      h.SameHoldings ((do
        let data ← ofExcept (Cartridge.check data)
        log (line data)
        return rom data : HostM Cartridge) h).2 :=
    sameHoldings_bind (sameHoldings_ofExcept _ h) fun data h =>
      sameHoldings_bind (sameHoldings_log _ h) fun _ h => .refl h
  dsimp only
  split
  · exact sameHoldings_bind (sameHoldings_log _ h) fun _ h => hrest h _ _
  · exact hrest h _ _

theorem reloadFile_cases (s : Nat) (path : String) (h : Host) :
    (∃ r h', reloadFile s path h = (.error r, h') ∧ h.SameHoldings h') ∨
      ∃ rom h', reloadFile s path h = (.ok (h.engines.size, rom), h') ∧ h.Reloaded s h' := by
  have hread := sameHoldings_readRomFile path h
  rw [reloadFile, bind_apply]
  rcases hr : readRomFile path h with ⟨r | rom, h₁⟩ <;> rw [hr] at hread
  · exact .inl ⟨r, h₁, rfl, hread⟩
  dsimp only
  rcases reload_cases s rom.data rom.name h₁ with ⟨r, hreload⟩ | ⟨h₂, hreload, hreloaded⟩
  · exact .inl ⟨r, h₁, bind_of_error hreload _, hread⟩
  · refine .inr ⟨rom, _, ?_, (Host.Reloaded.same_trans hread hreloaded).setRom rom⟩
    rw [bind_of_ok hreload, hread.engines_eq]
    rfl

/-- A reload that reports its failure has an engine for its answer, or has changed nothing. -/
theorem reloadOrReport_cases (s : Nat) (path : String) (h : Host) :
    (∃ outcome h', reloadOrReport s path h = (outcome, h') ∧ (∀ c, outcome ≠ .ok (some c)) ∧
        h.SameHoldings h') ∨
      ∃ h', reloadOrReport s path h = (.ok (some h.engines.size), h') ∧ h.Reloaded s h' := by
  rw [reloadOrReport, bind_of_ok (attempt_apply _ _)]
  rcases reloadFile_cases s path h with ⟨r, h', hfile, hsame⟩ | ⟨rom, h', hfile, hreloaded⟩
  · left
    rw [hfile]
    dsimp only
    by_cases hfailure : isLoadFailure r = true
    · rw [if_pos hfailure]
      exact ⟨_, _, rfl, by rintro _ ⟨⟩, hsame.trans (sameHoldings_log _ h')⟩
    · rw [if_neg hfailure]
      exact ⟨_, _, rfl, by rintro _ ⟨⟩, hsame⟩
  · right
    rw [hfile]
    exact ⟨h', rfl, hreloaded⟩

/-! ### Requests to reload -/

theorem sessionAt_of_some {h : Host} {s : Nat} {session : Session}
    (hs : h.sessions[s]? = some session) : sessionAt s h = (.ok session, h) := by
  rw [sessionAt_apply, hs]
  rfl

theorem answer_of_reloaded {h h' : Host} {s : Nat} (hr : h.Reloaded s h') (c : Nat)
    (answer : Session → Reply) : ∃ session,
      (do
        setCurrent c
        return answer (← sessionAt s) : HostM Reply) h' =
          (.ok (answer session), { h' with current := some c }) := by
  obtain ⟨session, hsession⟩ := hr.exists_session
  have hcurrent : Host.sessions { h' with current := some c } = h'.sessions := rfl
  rw [← hcurrent] at hsession
  exact ⟨session, (bind_of_ok (modify_apply _ h') _).trans
    (bind_of_ok (sessionAt_of_some hsession) _)⟩

variable (perform : Request → HostM Reply)

/-- The result of a request to reload: either it has changed nothing but the log and its answer
names no engine, or its answer names the new engine that is in the place of the session's. -/
def IsReloadResult (h : Host) (result : Except Refusal Reply × Host) : Prop :=
  (∀ a, result.1 = .ok a → a.reloaded? = none) ∧ h.SameHoldings result.2 ∨
    ∃ s a, result.1 = .ok a ∧ a.reloaded? = some h.engines.size ∧ h.Reloaded s result.2

theorem isReloadResult_of_error {h h' : Host} (hs : h.SameHoldings h') (r : Refusal) :
    IsReloadResult h (.error r, h') :=
  .inl ⟨by rintro _ ⟨⟩, hs⟩

theorem isReloadResult_of_reloaded {h h' : Host} {s : Nat} (hr : h.Reloaded s h')
    {answer : Session → Reply}
    (ha : ∀ session, (answer session).reloaded? = some h.engines.size) :
    IsReloadResult h ((do
      setCurrent h.engines.size
      return answer (← sessionAt s) : HostM Reply) h') := by
  obtain ⟨session, hanswer⟩ := answer_of_reloaded hr h.engines.size answer
  rw [hanswer]
  exact .inr ⟨s, answer session, rfl, ha session, hr.trans_same ⟨rfl, rfl, rfl, rfl, rfl⟩⟩

/-- **Everything that a request to reload can do.** -/
theorem isReloadResult_respond {r : Request} (hr : r.isReload = true) (h : Host) :
    IsReloadResult h (respond perform r h) := by
  have hsession {f : Nat → HostM Reply} (hf : ∀ s, IsReloadResult h (f s h)) :
      IsReloadResult h ((currentSession >>= f) h) := by
    rw [currentSession, bind_assoc, bind_of_ok (get_apply h)]
    cases h.session with
    | none => exact isReloadResult_of_error (.refl h) _
    | some s => exact hf s
  cases r with
  | reload data name =>
    refine hsession fun s => ?_
    rcases reload_cases s data name h with ⟨r, hreload⟩ | ⟨h', hreload, hreloaded⟩
    · rw [bind_of_error hreload]
      exact isReloadResult_of_error (.refl h) r
    · rw [bind_of_ok hreload]
      exact isReloadResult_of_reloaded hreloaded fun _ => rfl
  | reloadFile path =>
    refine hsession fun s => ?_
    rcases reloadFile_cases s path h with ⟨r, h', hfile, hsame⟩ | ⟨rom, h', hfile, hreloaded⟩
    · rw [bind_of_error hfile]
      exact isReloadResult_of_error hsame r
    · rw [bind_of_ok hfile]
      exact isReloadResult_of_reloaded hreloaded fun _ => rfl
  | reloadOrReport path =>
    refine hsession fun s => ?_
    rcases reloadOrReport_cases s path h with ⟨outcome, h', hreport, hnone, hsame⟩ |
      ⟨h', hreport, hreloaded⟩
    · rcases outcome with r | _ | c
      · rw [bind_of_error hreport]
        exact isReloadResult_of_error hsame r
      · rw [bind_of_ok hreport]
        show IsReloadResult h ((sessionAt s >>= fun session => pure _) h')
        rw [bind_apply, sessionAt_apply]
        cases h'.sessions[s]? with
        | none => exact isReloadResult_of_error hsame _
        | some session => exact .inl ⟨fun a ha => by cases ha; rfl, hsame⟩
      · exact absurd rfl (hnone c)
    · rw [bind_of_ok hreport]
      exact isReloadResult_of_reloaded hreloaded fun _ => rfl
  | _ => cases hr

/-- **A request to reload**, together with the note of its answer, keeps what every action keeps. -/
theorem keeps_noted_reload {r : Request} (hr : r.isReload = true) :
    Keeps (noted (respond perform r)) where
  follows h := by
    have hresult := isReloadResult_respond perform hr h
    rw [noted, bind_apply]
    rcases hrespond : respond perform r h with ⟨refusal | a, h'⟩ <;> rw [hrespond] at hresult
    · rcases hresult with ⟨-, hsame⟩ | ⟨s, a, ha, -⟩
      · exact .of_sameHoldings hsame
      · cases ha
    · rcases hresult with ⟨hnone, hsame⟩ | ⟨s, a, ha, hengine, hreloaded⟩
      · exact (Host.Follows.of_sameHoldings hsame).trans (.pushNote (hnone a rfl))
      · cases ha
        exact .reload hreloaded hengine

end HostM

end Chip8
