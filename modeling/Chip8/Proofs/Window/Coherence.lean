import Chip8.Proofs.Window.Follow
import Chip8.Window.Loop

/-!
# What belongs together in a window

A window passes keys on to one engine, steps one with its pacer and looks at the
display of one.  They belong together if all three are the engine that the window's
session holds and the pacer tracks a plain run over it; and what is on the screen is
what the display shows, unless the display is dirty.  `Window.Coherent` says so, and
everything that a window does keeps it so.  Only a window that has followed a new
engine still looks at the display of the one before, until it turns to the new one.

* `Coherent.make`: steps, pauses and keys.
* `follow_eq_ok`: a window that has followed a new engine of its session and turns to
  its display.
* `coherent_handle`: one case for each event.
-/

namespace Chip8

def ScreenCall.blitted? : ScreenCall → Option Surface
  | .blit f => some f
  | _ => none

namespace HostM

variable {h h' : Host}

theorem advanceClock_eq_ok {ns : Int} (ha : advanceClock ns h = (.ok (), h')) :
    ∃ clocks, h' = { h with clocks } := by
  rw [advanceClock] at ha
  obtain ⟨k, h₁, hk, hmodify⟩ := bind_eq_ok ha
  rw [currentClock, bind_of_ok (get_apply h)] at hk
  obtain ⟨-, rfl⟩ := required_eq_ok hk
  cases hmodify
  exact ⟨_, rfl⟩

end HostM

namespace Window

open HostM (bind_of_ok bind_eq_ok get_apply)

variable {s : Settings} {scale : Int} {path : String} {w w' : Window}

/-! ### The host of a window -/

theorem onHost_apply {α : Type} {x : HostM α} {r : Except Refusal α} {h : Host}
    (hx : x w.host = (r, h)) : onHost x w = (r, { w with host := h }) := by
  rw [onHost, hx]

theorem onHost_eq_ok {α : Type} {x : HostM α} {a : α} (hx : onHost x w = (.ok a, w')) :
    ∃ h, x w.host = (.ok a, h) ∧ w' = { w with host := h } := by
  rcases hr : x w.host with ⟨r, h⟩
  rw [onHost_apply hr] at hx
  cases hx
  exact ⟨h, rfl, rfl⟩

/-! ### The screen -/

def lastBlit (w : Window) : Option Surface :=
  (w.calls.toList.filterMap ScreenCall.blitted?).getLast?

def asked (w : Window) (c : ScreenCall) : Window :=
  { w with calls := w.calls.push c }

theorem call_apply (c : ScreenCall) (w : Window) : call c w = (.ok (), w.asked c) := rfl

theorem lastBlit_asked {c : ScreenCall} (hc : c.blitted? = none) :
    (w.asked c).lastBlit = w.lastBlit := by
  rw [lastBlit, asked, Array.toList_push, List.filterMap_append, List.filterMap_cons_none hc,
    List.filterMap_nil, List.append_nil, lastBlit]

theorem lastBlit_blit (w : Window) (f : Surface) : (w.asked (.blit f)).lastBlit = some f := by
  have hf : (ScreenCall.blit f).blitted? = some f := rfl
  rw [lastBlit, asked, Array.toList_push, List.filterMap_append, List.filterMap_cons_some hf,
    List.filterMap_nil, List.getLast?_concat]

/-! ### The invariant -/

/-- Session, engine, display, pacer and screen of a window belong together. -/
structure Coherent (scale : Int) (w : Window) : Prop where
  display_eq : w.display = w.engine
  session : ∃ session, w.host.sessions[w.session]? = some session ∧
    session.engine = some w.engine ∧ session.IsPlain
  run : ∃ x T run, x.engine = w.engine ∧ 0 < T ∧ w.host.Tracks x w.pacer T 0 run ∧
    (run.engine.display.dirty = true ∨ w.lastBlit = some (run.engine.display.surface scale))

namespace Coherent

/-! ### Changes of the host -/

/-- The host may change as long as the pacer goes on tracking, and a display that has changed is
dirty. -/
theorem of_host {h' : Host} (hw : w.Coherent scale) (hsessions : h'.sessions = w.host.sessions)
    (hnext : ∀ x T run, x.engine = w.engine → 0 < T → w.host.Tracks x w.pacer T 0 run →
      ∃ run', h'.Tracks x w.pacer T 0 run' ∧ run.engine.display.Marks run'.engine.display) :
    { w with host := h' }.Coherent scale where
  display_eq := hw.display_eq
  session := by
    obtain ⟨session, hsession, hrest⟩ := hw.session
    rw [← hsessions] at hsession
    exact ⟨session, hsession, hrest⟩
  run := by
    obtain ⟨x, T, run, hx, hT, ht, hpicture⟩ := hw.run
    obtain ⟨run', ht', hmarks⟩ := hnext x T run hx hT ht
    refine ⟨x, T, run', hx, hT, ht', ?_⟩
    rcases hmarks with hsame | hdirty
    · rw [hsame]
      exact hpicture
    · exact .inl hdirty

theorem of_eq {h' : Host} (hw : w.Coherent scale) (hengines : h'.engines = w.host.engines)
    (hpacers : h'.pacers = w.host.pacers) (hsessions : h'.sessions = w.host.sessions) :
    { w with host := h' }.Coherent scale := by
  refine hw.of_host hsessions fun x T run _ _ ht => ⟨run, ?_, .refl _⟩
  refine HostM.tracks_of_eq ht ?_ ⟨rfl, rfl, rfl, rfl, rfl⟩ ht.plain hsessions ?_
  · rw [hengines]
    exact ht.engine
  · rw [hpacers]
    exact ht.pacer

/-- **Steps, pauses and keys** keep a window coherent. -/
theorem make (hw : w.Coherent scale) (call : PacerCall) :
    { w with host := (call.make HostM.perform w.pacer w.engine w.host).2 }.Coherent scale := by
  obtain ⟨x, T, run, hx, hT, ht, -⟩ := hw.run
  have hsessions := (HostM.tracks_make HostM.perform hT ht call).2.2
  rw [hx] at hsessions
  refine hw.of_host hsessions fun x T run hx hT ht => ?_
  have htracks := (HostM.tracks_make HostM.perform hT ht call).2.1
  rw [hx] at htracks
  exact ⟨_, htracks, run.marks_answer call⟩

theorem ask (hw : w.Coherent scale) {c : ScreenCall} (hc : c.blitted? = none) :
    (w.asked c).Coherent scale where
  display_eq := hw.display_eq
  session := hw.session
  run := by
    obtain ⟨x, T, run, hx, hT, ht, hpicture⟩ := hw.run
    refine ⟨x, T, run, hx, hT, ht, ?_⟩
    rw [lastBlit_asked hc]
    exact hpicture

theorem stop (hw : w.Coherent scale) : { w with running := false }.Coherent scale :=
  ⟨hw.display_eq, hw.session, hw.run⟩

end Coherent

/-! ### A new engine -/

/-- The window when it has turned to the display of its engine. -/
def looking (w : Window) : Window :=
  { w with display := w.engine }

theorem lookAtEngine_apply (w : Window) : lookAtEngine w = (.ok (), w.looking) := rfl

/-- **A window that has followed a new engine** of its session and turns to its display is coherent,
since the display is dirty. -/
theorem follow_eq_ok {session : Session} {e : Engine} {c : Nat}
    (hsession : w.host.sessions[w.session]? = some session) (hc : session.engine = some c)
    (he : w.host.engines[c]? = some e) (hnew : e.Renewed w.session session)
    (hplain : session.IsPlain) (hf : follow s c w = (.ok (), w')) :
    w'.looking.Coherent scale := by
  obtain ⟨_, _, hengine, hf⟩ := bind_eq_ok hf
  cases hengine
  rw [bind_of_ok (get_apply _)] at hf
  obtain ⟨p, w₁, hpacer, hf⟩ := bind_eq_ok hf
  obtain ⟨h₀, hmade, rfl⟩ := onHost_eq_ok hpacer
  obtain ⟨_, _, hpacer, hpower⟩ := bind_eq_ok hf
  cases hpacer
  obtain ⟨h₁, hon, rfl⟩ := onHost_eq_ok hpower
  obtain ⟨hsessions, x, T, run, hx, hT, ht, hfresh⟩ :=
    HostM.follow_host hsession hc he hnew hplain hmade hon
  refine ⟨rfl, ⟨session, ?_, hc, hplain⟩, x, T, run, hx, hT, ht, .inl ?_⟩
  · show h₁.sessions[w.session]? = some session
    rw [hsessions]
    exact hsession
  · rw [hfresh]
    rfl

theorem follow_of_renews {h : Host} {c : Nat} (hf : follow s c w = (.ok (), w'))
    (hr : h.Renews w.session c w.host)
    (hplain : ∀ session, h.sessions[w.session]? = some session → session.IsPlain) :
    w'.looking.Coherent scale := by
  obtain ⟨session, session', e, hsession, hsession', hdraws, hc, he, hnew⟩ := hr
  refine follow_eq_ok hsession' hc he hnew ?_ hf
  rw [Session.IsPlain, hdraws]
  exact hplain session hsession

/-- **The window is opened** with the first engine of a new session. -/
theorem openRom_eq_ok {files : Files} (ho : openRom s path (ofFiles files) = (.ok (), w')) :
    w'.looking.Coherent scale := by
  rw [openRom] at ho
  obtain ⟨n, w₁, hsession, ho⟩ := bind_eq_ok ho
  cases hsession
  obtain ⟨_, w₂, hmodify, ho⟩ := bind_eq_ok ho
  cases hmodify
  obtain ⟨⟨c, rom⟩, w₃, hreload, hf⟩ := bind_eq_ok ho
  obtain ⟨h₁, hhost, rfl⟩ := onHost_eq_ok hreload
  -- The session has just been added, without random numbers.
  refine follow_of_renews hf (HostM.reloadFile_eq_ok hhost) fun session hs => ?_
  cases hs
  exact fun d hd => absurd hd List.not_mem_nil

/-! ### Events -/

theorem coherent_outside (hw : w.Coherent scale) {f : Frame}
    (ho : outside f w = (.ok (), w')) : w'.Coherent scale := by
  obtain ⟨h₁, hhost, rfl⟩ := onHost_eq_ok ho
  obtain ⟨_, h₂, hmodify, hadvance⟩ := HostM.bind_eq_ok hhost
  cases hmodify
  obtain ⟨clocks, rfl⟩ := HostM.advanceClock_eq_ok hadvance
  exact hw.of_eq rfl rfl rfl

theorem coherent_togglePause (hw : w.Coherent scale) (ht : togglePause w = (.ok (), w')) :
    w'.Coherent scale := by
  rw [togglePause, bind_of_ok (get_apply w)] at ht
  obtain ⟨h₁, hhost, rfl⟩ := onHost_eq_ok ht
  obtain ⟨q, h₂, hq, hhost⟩ := HostM.bind_eq_ok hhost
  obtain ⟨-, rfl⟩ := HostM.pacerAt_eq_ok hq
  split at hhost
  · have hresumed := hw.make .resume
    rwa [PacerCall.make, hhost] at hresumed
  · have hpaused := hw.make .pause
    rwa [PacerCall.make, hhost] at hpaused

theorem coherent_passKey (hw : w.Coherent scale) {key : Int} {down : Bool}
    (hp : passKey key down w = (.ok (), w')) : w'.Coherent scale := by
  rw [passKey] at hp
  cases hk : Keyboard.key? key with
  | none =>
    rw [hk] at hp
    cases hp
    exact hw
  | some k =>
    rw [hk] at hp
    dsimp only at hp
    rw [bind_of_ok (get_apply w)] at hp
    obtain ⟨h₁, hhost, rfl⟩ := onHost_eq_ok hp
    have hkeyed := hw.make (.key k.val down)
    rwa [PacerCall.make, hhost] at hkeyed

/-- **A reload** leaves the window as it is, or the window follows the new engine. -/
theorem coherent_reload (hw : w.Coherent scale) (hr : reload s path w = (.ok (), w')) :
    w'.Coherent scale := by
  rw [reload, bind_of_ok (get_apply w)] at hr
  obtain ⟨c?, w₁, hreport, hf⟩ := bind_eq_ok hr
  obtain ⟨h₁, hhost, rfl⟩ := onHost_eq_ok hreport
  rcases HostM.reloadOrReport_eq_ok hhost with ⟨rfl, hsame⟩ | ⟨c, rfl, hrenews⟩
  · cases hf
    exact hw.of_eq hsame.engines_eq hsame.pacers_eq hsame.sessions_eq
  · obtain ⟨_, w₂, hfollow, hlook⟩ := bind_eq_ok hf
    rw [lookAtEngine_apply] at hlook
    cases hlook
    refine follow_of_renews hfollow hrenews fun session hs => ?_
    obtain ⟨session', hsession, -, hplain⟩ := hw.session
    obtain rfl : session' = session := Option.some.inj (hsession.symm.trans hs)
    exact hplain

/-- **An event** keeps a window coherent. -/
theorem coherent_handle (hw : w.Coherent scale) (event : WindowEvent)
    (hh : handle s path event w = (.ok (), w')) : w'.Coherent scale := by
  cases event with
  | quit =>
    cases hh
    exact hw.stop
  | keyDown key =>
    rw [handle] at hh
    split at hh
    · cases hh
      exact hw.stop
    · split at hh
      · exact coherent_reload hw hh
      · split at hh
        · exact coherent_togglePause hw hh
        · exact coherent_passKey hw hh
  | keyUp key => exact coherent_passKey hw hh
  | other =>
    cases hh
    exact hw

end Window

end Chip8
