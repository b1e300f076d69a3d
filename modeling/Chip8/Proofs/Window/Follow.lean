import Chip8.Proofs.Host.Reload
import Chip8.Proofs.Machine.Picture
import Chip8.Proofs.Pacer.Launch

/-!
# The engine that a window follows

When a program is loaded the session gets a new engine.  It has not been started,
its generation is the one that the session has come to, and its display is fresh.
The window starts it and puts a new pacer over its handle, which from then on
tracks the plain run that begins with this engine.

* `reloadFile_eq_ok`, `reloadOrReport_eq_ok`: what a reload that is not refused has
  done.
* `follow_host`: the new pacer.
-/

namespace Chip8

/-! ### New engines of a session -/

/-- The random numbers of the session's engines come without requests. -/
def Session.IsPlain (session : Session) : Prop :=
  ∀ d ∈ session.draws, d.before = none

/-- The engine is as a reload has made it for a session. -/
structure Engine.Renewed (e : Engine) (s : Nat) (session : Session) : Prop where
  free : e.busy = false
  active : e.retired = false
  owner_eq : e.owner = some s
  generation_eq : e.generation = (session.generation : Int)
  draws_eq : e.source.draws = session.draws
  display_eq : e.display = Display.fresh

/-- The second host holds a new engine of the session. -/
def Host.Renews (h : Host) (s c : Nat) (h' : Host) : Prop :=
  ∃ (session session' : Session) (e : Engine), h.sessions[s]? = some session ∧
    h'.sessions[s]? = some session' ∧ session'.draws = session.draws ∧
    session'.engine = some c ∧ h'.engines[c]? = some e ∧ e.Renewed s session'

namespace HostM

variable {h h' : Host} {s c : Nat} {path : String} {rom : Cartridge}

theorem renewed_of_load {session : Session} {data : List UInt8} {name : String} {e : Engine}
    (hload : (nextEngine s session).load data name = .ok e) (rom : Option Cartridge)
    (engine : Option Nat) : Engine.Renewed { e with rom } s
      { session with generation := session.generation + 1, engine } := by
  obtain ⟨memory, rfl⟩ := Engine.load_eq_ok hload
  exact ⟨rfl, rfl, rfl, rfl, rfl, rfl⟩

/-- **A reload from a file that is not refused** puts a new engine in the place of the
session's. -/
theorem reloadFile_eq_ok (hr : reloadFile s path h = (.ok (c, rom), h')) :
    h.Renews s c h' := by
  rw [reloadFile] at hr
  obtain ⟨rom', h₁, hread, hr⟩ := bind_eq_ok hr
  obtain ⟨c', h₂, hreload, hr⟩ := bind_eq_ok hr
  obtain ⟨_, h₃, hmodify, hpure⟩ := bind_eq_ok hr
  have hsame := sameHoldings_readRomFile path h
  rw [hread] at hsame
  rcases reload_ends s rom'.data rom'.name h₁ with ⟨r, herror⟩ |
    ⟨session, e, h₂', hs, hload, hok, hsame'⟩
  · rw [herror] at hreload
    cases hreload
  · rw [hok] at hreload
    cases hreload
    cases hmodify
    cases hpure
    obtain ⟨hlt, -⟩ := Array.getElem?_eq_some_iff.mp hs
    have hsize := size_retirePrevious h₁.engines session.engine
    have hsessions : h₂.sessions[s]? = some
        { session with
          generation := session.generation + 1
          engine := some h₁.engines.size } := by
      rw [hsame'.sessions_eq]
      exact Array.getElem?_setIfInBounds_self_of_lt hlt
    have hengine : h₂.engines[h₁.engines.size]? = some e := by
      rw [hsame'.engines_eq, ← hsize]
      exact Array.getElem?_push_size
    have hnew := renewed_of_load hload (some rom) (some h₁.engines.size)
    refine ⟨session, _, { e with rom := some rom }, ?_, hsessions, rfl, rfl, ?_, hnew⟩
    · rw [← hsame.sessions_eq]
      exact hs
    · show (h₂.engines.modify h₁.engines.size _)[h₁.engines.size]? = _
      rw [Array.getElem?_modify, if_pos rfl, hengine]
      rfl

/-- A reload that reports its failure has failed and changed nothing but the log, or it has
succeeded. -/
theorem reloadOrReport_eq_ok {c? : Option Nat}
    (hr : reloadOrReport s path h = (.ok c?, h')) :
    c? = none ∧ h.SameHoldings h' ∨ ∃ c, c? = some c ∧ h.Renews s c h' := by
  rw [reloadOrReport, bind_of_ok (attempt_apply _ _)] at hr
  rcases hfile : reloadFile s path h with ⟨r | ⟨c, rom⟩, h₁⟩
  · left
    have hsame : h.SameHoldings h₁ := by
      rcases reloadFile_cases s path h with ⟨r', h₁', hfile', hsame⟩ | ⟨rom, h₁', hfile', -⟩
      · rw [hfile'] at hfile
        cases hfile
        exact hsame
      · rw [hfile'] at hfile
        cases hfile
    rw [hfile] at hr
    dsimp only at hr
    by_cases hfailure : isLoadFailure r = true
    · rw [if_pos hfailure] at hr
      cases hr
      exact ⟨rfl, hsame.trans (sameHoldings_log _ h₁)⟩
    · rw [if_neg hfailure] at hr
      cases hr
  · right
    rw [hfile] at hr
    cases hr
    exact ⟨c, rfl, reloadFile_eq_ok hfile⟩

theorem isCurrent_of_renewed {e : Engine} {session : Session}
    (hsession : h.sessions[s]? = some session) (he : h.engines[c]? = some e)
    (hnew : e.Renewed s session) : (isCurrent ⟨c, e.generation⟩ h).1 = .ok true := by
  rw [isCurrent, bind_of_ok (engine_apply he), hnew.active, hnew.owner_eq]
  show ((sessionAt s >>= fun session => pure (e.generation == (session.generation : Int)))
    h).1 = _
  rw [bind_of_ok (sessionAt_of_some hsession), hnew.generation_eq, beq_self_eq_true]
  rfl

theorem startSession_eq_ok {e : Engine} {session : Session} {n : Nat}
    (hsession : h.sessions[s]? = some session) (hc : session.engine = some c)
    (he : h.engines[c]? = some e) (hs : startSession s h = (.ok n, h')) :
    n = h.handles.size ∧ h' =
      { h.putEngine c { e with started := true } with
        handles := h.handles.push ⟨c, e.generation⟩ } := by
  rw [startSession, bind_of_ok (sessionAt_of_some hsession), hc,
    bind_of_ok (required_some _ _ _)] at hs
  cases hstart : e.start with
  | error r =>
    rw [startEngine_of_error he hstart] at hs
    cases hs
  | ok e' =>
    rw [startEngine_apply he hstart, Engine.start_eq_ok hstart] at hs
    cases hs
    exact ⟨rfl, rfl⟩

/-- **A new pacer** over the engine of a session, which is started for it. -/
theorem follow_host {e : Engine} {session : Session} {rate : Float} {k p : Nat} {h₃ : Host}
    (hsession : h.sessions[s]? = some session) (hc : session.engine = some c)
    (he : h.engines[c]? = some e) (hnew : e.Renewed s session) (hplain : session.IsPlain)
    (hf : (do
      let x ← handle (← startSession s)
      newPacer x rate Pace.timerFrequency Pace.refreshPeriod none k : HostM Nat) h = (.ok p, h₃))
    (hon : powerOn p h₃ = (.ok (), h')) :
    h'.sessions = h.sessions ∧ ∃ x T run, x.engine = c ∧ 0 < T ∧ h'.Tracks x p T 0 run ∧
      run.engine.display = Display.fresh := by
  obtain ⟨n, h₁, hstart, hf⟩ := bind_eq_ok hf
  obtain ⟨x, h₂, hhandle, hmake⟩ := bind_eq_ok hf
  obtain ⟨rfl, hh₁⟩ := startSession_eq_ok hsession hc he hstart
  have hissued : h₁.handles[h.handles.size]? = some ⟨c, e.generation⟩ := by
    rw [hh₁]
    exact Array.getElem?_push_size
  rw [handle_apply hissued] at hhandle
  cases hhandle
  have hengine : h₁.engines[c]? = some { e with started := true } := by
    rw [hh₁]
    exact Host.engines_putEngine he
  have hsession₁ : h₁.sessions[s]? = some session := by
    rw [hh₁]
    exact hsession
  have hnew' : Engine.Renewed { e with started := true } s session :=
    ⟨hnew.free, hnew.active, hnew.owner_eq, hnew.generation_eq, hnew.draws_eq, hnew.display_eq⟩
  have hdraws : e.source.IsPlain := by
    rw [RandomSource.IsPlain, hnew.draws_eq]
    exact hplain
  have hcurrent := isCurrent_of_renewed hsession₁ hengine hnew'
  obtain ⟨hsessions, T, hT, htracks⟩ :=
    tracks_launched (x := ⟨c, e.generation⟩) hengine rfl hnew.free hdraws hcurrent hmake hon
  refine ⟨?_, _, T, _, rfl, hT, htracks, hnew.display_eq⟩
  rw [hsessions, hh₁]
  rfl

end HostM

end Chip8
