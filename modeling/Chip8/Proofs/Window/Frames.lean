import Chip8.Proofs.Host.RomFile
import Chip8.Proofs.Window.Coherence

/-!
# Windows at the end of a frame

At the end of a frame the instructions that are due are executed, and the display
is shown if it is dirty.  So a window that was coherent before is coherent still,
and its display is not dirty: session, window and pacer have one engine, the window
looks at its display, and the screen shows it.  `Window.InStep` says so.

Between two such ends anything may happen, in any order: files come and go, time
goes by, the engine draws other random bytes, and there are events.  A list of
`Window.Moment`s is such a history; the frames of the loop are some of them.

* `coherent_pass`: one case for each moment.
* `inStep_finish`: the end of a frame.
* `frames_eq_ok`: the loop goes through frames one after the other.
* `every_frame_ends_in_step`: from the opening of the window on, every frame that
  is not refused ends in step.
-/

namespace Chip8

def Engine.shown (e : Engine) : Engine :=
  { e with machine := { e.machine with display := { e.display with dirty := false } } }

namespace HostM

variable {h h' : Host}

theorem machine_eq_ok {c : Nat} {m : Machine} (hm : machine c h = (.ok m, h')) :
    ∃ e, h.engines[c]? = some e ∧ m = e.machine ∧ h' = h := by
  obtain ⟨e, h₁, he, hpure⟩ := bind_eq_ok hm
  obtain ⟨he, rfl⟩ := engine_eq_ok he
  cases hpure
  exact ⟨e, he, rfl, rfl⟩

theorem instructionsDue_eq_ok {p : Nat} {due : Int} (hd : instructionsDue p h = (.ok due, h')) :
    ∃ clocks, h' = { h with clocks } := by
  rw [instructionsDue] at hd
  obtain ⟨q, h₁, hq, hd⟩ := bind_eq_ok hd
  obtain ⟨now, h₂, hread, hconversion⟩ := bind_eq_ok hd
  obtain ⟨-, rfl⟩ := ofConversion_eq_ok hconversion
  obtain ⟨-, rfl⟩ := pacerAt_eq_ok hq
  exact ⟨_, readClock_eq_ok hread⟩

end HostM

namespace Window

open HostM (bind_of_ok bind_eq_ok get_apply exists_of_ok)

variable {s : Settings} {scale : Int} {path : String} {w w' : Window}

/-! ### Clean windows -/

/-- What the window shows is not dirty. -/
def IsClean (w : Window) : Prop :=
  ∀ e, w.host.engines[w.engine]? = some e → e.display.dirty = false

/-- Window, session and pacer have one engine, for which the pacer's handle is current; the window
looks at its display, which is not dirty, and what was blitted last shows it. -/
structure InStep (scale : Int) (w : Window) : Prop where
  display_eq : w.display = w.engine
  session : ∃ session, w.host.sessions[w.session]? = some session ∧ session.engine = some w.engine
  pacer : ∃ q, w.host.pacers[w.pacer]? = some q ∧ q.handle.engine = w.engine ∧
    (HostM.isCurrent q.handle w.host).1 = .ok true
  picture : ∃ e f, w.host.engines[w.engine]? = some e ∧ e.display.dirty = false ∧
    w.lastBlit = some f ∧ f.Shows scale e.display

theorem Coherent.inStep (hw : w.Coherent scale) (hscale : 0 < scale) (hclean : w.IsClean) :
    w.InStep scale := by
  obtain ⟨session, hsession, hengine, -⟩ := hw.session
  obtain ⟨x, T, run, hx, hT, ht, hpicture⟩ := hw.run
  obtain ⟨q, hq, hpaces⟩ := ht.pacer
  have he : w.host.engines[w.engine]? = some run.engine := hx ▸ ht.engine
  have hdirty : run.engine.display.dirty = false := hclean _ he
  refine ⟨hw.display_eq, ⟨session, hsession, hengine⟩, ⟨q, hq, ?_, ?_⟩, run.engine, _, he, hdirty,
    ?_,
    run.engine.display.shows_surface hscale⟩
  · rw [hpaces.handle_eq, hx]
  · rw [hpaces.handle_eq]
    exact ht.current
  · rw [hdirty] at hpicture
    exact hpicture.resolve_left Bool.false_ne_true

/-! ### The end of a frame -/

/-- **The instructions that are due** keep a window coherent. -/
theorem coherent_executeDue (hw : w.Coherent scale) (he : executeDue w = (.ok (), w')) :
    w'.Coherent scale := by
  rw [executeDue, bind_of_ok (get_apply w)] at he
  obtain ⟨h₁, hhost, rfl⟩ := onHost_eq_ok he
  obtain ⟨q, h₂, hq, hhost⟩ := HostM.bind_eq_ok hhost
  obtain ⟨-, rfl⟩ := HostM.pacerAt_eq_ok hq
  split at hhost
  · obtain ⟨due, h₃, hdue, hhost⟩ := HostM.bind_eq_ok hhost
    obtain ⟨clocks, rfl⟩ := HostM.instructionsDue_eq_ok hdue
    -- To ask what is due has read the pacer's clock, even if nothing is.
    have hread : { w with host := { w.host with clocks } }.Coherent scale :=
      hw.of_eq rfl rfl rfl
    split at hhost
    · obtain ⟨last, h₄, hrun, hpure⟩ := HostM.bind_eq_ok hhost
      cases hpure
      have hexecuted := hread.make (.run due)
      dsimp only [PacerCall.make] at hexecuted
      rwa [hrun] at hexecuted
    · cases hhost
      exact hread
  · cases hhost
    exact hw

theorem coherent_shown {e : Engine} (hw : w.Coherent scale)
    (he : w.host.engines[w.engine]? = some e) :
    ({ w with host := w.host.putEngine w.engine e.shown }.asked
      (.blit (e.display.surface scale))).Coherent scale where
  display_eq := hw.display_eq
  session := hw.session
  run := by
    obtain ⟨x, T, run, hx, hT, ht, -⟩ := hw.run
    obtain ⟨q, hq, hpaces⟩ := ht.pacer
    have hrun := ht.engine
    rw [hx] at hrun
    obtain rfl : run.engine = e := Option.some.inj (hrun.symm.trans he)
    refine ⟨x, T, { run with engine := run.engine.shown }, hx, hT, ?_, .inr (lastBlit_blit _ _)⟩
    refine HostM.tracks_of_eq ht ?_ ⟨rfl, rfl, rfl, rfl, rfl⟩ ht.plain rfl
      ⟨q, hq, hpaces.setEngine _⟩
    rw [hx]
    exact Host.engines_putEngine he

/-- **To show the display** keeps a window coherent and makes it clean. -/
theorem showDisplay_eq_ok (hw : w.Coherent s.scale) (hs : showDisplay s w = (.ok (), w')) :
    w'.Coherent s.scale ∧ w'.IsClean := by
  rw [showDisplay, bind_of_ok (get_apply w), hw.display_eq] at hs
  obtain ⟨m, w₁, hmachine, hs⟩ := bind_eq_ok hs
  obtain ⟨h₁, hhost, rfl⟩ := onHost_eq_ok hmachine
  obtain ⟨e, he, rfl, rfl⟩ := HostM.machine_eq_ok hhost
  split at hs
  · cases hsurface : e.machine.display.surface? s.scale with
    | error r =>
      rw [hsurface] at hs
      cases hs
    | ok shown =>
      obtain rfl := Display.surface?_eq_ok hsurface
      rw [hsurface] at hs
      dsimp only at hs
      rw [bind_of_ok (onHost_apply (HostM.setMachine_apply he _)), bind_of_ok (call_apply _ _),
        call_apply] at hs
      cases hs
      refine ⟨(coherent_shown hw he).ask rfl, fun e' he' => ?_⟩
      cases (Host.engines_putEngine he).symm.trans he'
      rfl
  · next hclean =>
    cases hs
    refine ⟨hw, fun e' he' => ?_⟩
    cases he.symm.trans he'
    exact Bool.eq_false_iff.mpr hclean

theorem showCaption_eq_ok (hs : showCaption w = (.ok (), w')) :
    ∃ text, w' = w.asked (.caption text) := by
  rw [showCaption, bind_of_ok (get_apply w)] at hs
  obtain ⟨q, w₁, hpacer, hs⟩ := bind_eq_ok hs
  obtain ⟨e, w₂, hengine, hs⟩ := bind_eq_ok hs
  obtain ⟨h₁, hq, rfl⟩ := onHost_eq_ok hpacer
  obtain ⟨h₂, he, rfl⟩ := onHost_eq_ok hengine
  obtain ⟨-, rfl⟩ := HostM.engine_eq_ok he
  obtain ⟨-, rfl⟩ := HostM.pacerAt_eq_ok hq
  cases hs
  exact ⟨_, rfl⟩

def finish (s : Settings) : WindowM Unit := do
  executeDue
  showDisplay s
  showCaption
  call (.tick s.fps)

/-- **A frame ends** with a window that is coherent and clean. -/
theorem finish_eq_ok (hw : w.Coherent s.scale) (hf : finish s w = (.ok (), w')) :
    w'.Coherent s.scale ∧ w'.IsClean := by
  rw [finish] at hf
  obtain ⟨_, w₁, hexecute, hf⟩ := bind_eq_ok hf
  obtain ⟨_, w₂, hshow, hf⟩ := bind_eq_ok hf
  obtain ⟨_, w₃, hcaption, hf⟩ := bind_eq_ok hf
  obtain ⟨hshown, hclean⟩ := showDisplay_eq_ok (coherent_executeDue hw hexecute) hshow
  obtain ⟨text, rfl⟩ := showCaption_eq_ok hcaption
  cases hf
  exact ⟨(hshown.ask rfl).ask rfl, hclean⟩

theorem inStep_finish (hscale : 0 < s.scale) (hw : w.Coherent s.scale)
    (hf : finish s w = (.ok (), w')) : w'.InStep s.scale := by
  obtain ⟨hcoherent, hclean⟩ := finish_eq_ok hw hf
  exact hcoherent.inStep hscale hclean

/-! ### Moments -/

/-- What may happen around a window and to it. -/
inductive Moment
  /-- Files come and go, and time goes by. -/
  | outside (f : Frame)
  /-- The engine that is shown draws these random bytes from now on. -/
  | chance (bytes : List UInt8)
  | event (event : WindowEvent)
  /-- A frame ends. -/
  | finish

/-- Lets the engine that is shown draw these random bytes. -/
def drawFrom (bytes : List UInt8) : WindowM Unit := do
  let c := (← get).engine
  onHost (HostM.modifyEngine c fun e =>
    { e with source := .ofDraws (bytes.map fun b => ⟨none, b.toNat⟩) })

def pass (s : Settings) (path : String) : Moment → WindowM Unit
  | .outside f => outside f
  | .chance bytes => drawFrom bytes
  | .event event => handle s path event
  | .finish => finish s

theorem coherent_drawFrom (hw : w.Coherent scale) {bytes : List UInt8}
    (hd : drawFrom bytes w = (.ok (), w')) : w'.Coherent scale := by
  rw [drawFrom, bind_of_ok (get_apply w)] at hd
  obtain ⟨h₁, hhost, rfl⟩ := onHost_eq_ok hd
  have hsessions : h₁.sessions = w.host.sessions := by
    cases hhost
    rfl
  refine hw.of_host hsessions fun x T run hx _ ht => ?_
  have he := ht.engine
  rw [hx] at he
  rw [HostM.modifyEngine_apply he] at hhost
  cases hhost
  obtain ⟨q, hq, hpaces⟩ := ht.pacer
  refine ⟨{ run with engine := { run.engine with
    source := .ofDraws (bytes.map fun b => ⟨none, b.toNat⟩) } }, ?_, .refl _⟩
  refine HostM.tracks_of_eq ht ?_ ⟨rfl, rfl, rfl, rfl, rfl⟩ ?_ rfl ⟨q, hq, hpaces.setEngine _⟩
  · rw [hx]
    exact Host.engines_putEngine he
  · intro d hd
    obtain ⟨b, -, rfl⟩ := List.mem_map.mp hd
    rfl

/-- **A moment** keeps a window coherent. -/
theorem coherent_pass (hw : w.Coherent s.scale) (moment : Moment)
    (hp : pass s path moment w = (.ok (), w')) : w'.Coherent s.scale := by
  cases moment with
  | outside f => exact coherent_outside hw hp
  | chance bytes => exact coherent_drawFrom hw hp
  | event event => exact coherent_handle hw event hp
  | finish => exact (finish_eq_ok hw hp).1

/-! ### Histories -/

section Histories

variable {α : Type} {x : α → WindowM Unit}

theorem forM_keeps {P : Window → Prop}
    (hx : ∀ a w w', P w → x a w = (.ok (), w') → P w') (as : List α) (hw : P w)
    (hr : as.forM x w = (.ok (), w')) : P w' := by
  induction as generalizing w with
  | nil =>
    cases hr
    exact hw
  | cons a as ih =>
    obtain ⟨_, w₁, ha, hrest⟩ := bind_eq_ok hr
    exact ih (hx a w w₁ hw ha) hrest

theorem forM_concat_eq_ok {as : List α} {a : α} (hr : (as ++ [a]).forM x w = (.ok (), w')) :
    ∃ w₁, as.forM x w = (.ok (), w₁) ∧ x a w₁ = (.ok (), w') := by
  induction as generalizing w with
  | nil =>
    obtain ⟨_, w₁, ha, hnil⟩ := bind_eq_ok hr
    cases hnil
    exact ⟨w, rfl, ha⟩
  | cons b as ih =>
    obtain ⟨_, w₁, hb, hrest⟩ := bind_eq_ok hr
    obtain ⟨w₂, has, ha⟩ := ih hrest
    exact ⟨w₂, (bind_of_ok hb _).trans has, ha⟩

end Histories

/-- **A frame** is what happens outside, its events, and its end. -/
theorem frame_eq_ok {f : Frame} (hf : frame s path f w = (.ok (), w')) : ∃ w₁ w₂,
    outside f w = (.ok (), w₁) ∧ f.events.forM (handle s path) w₁ = (.ok (), w₂) ∧
      finish s w₂ = (.ok (), w') := by
  obtain ⟨_, w₁, houtside, hf⟩ := bind_eq_ok hf
  obtain ⟨_, w₂, hevents, hfinish⟩ := bind_eq_ok hf
  exact ⟨w₁, w₂, houtside, hevents, hfinish⟩

theorem coherent_frame {f : Frame} (hw : w.Coherent s.scale)
    (hf : frame s path f w = (.ok (), w')) : w'.Coherent s.scale ∧ w'.IsClean := by
  obtain ⟨w₁, w₂, houtside, hevents, hfinish⟩ := frame_eq_ok hf
  have hhandled := forM_keeps (fun event _ _ hw => coherent_handle hw event) _
    (coherent_outside hw houtside) hevents
  exact finish_eq_ok hhandled hfinish

/-- **The loop** goes through some of its frames, and possibly the one that closes the window. -/
theorem frames_eq_ok {fs : List Frame} (hf : frames s path fs w = (.ok (), w')) : ∃ gone f,
    (gone ++ [f]) <+: (fs ++ [Frame.closing]) ∧
      (gone ++ [f]).forM (frame s path) w = (.ok (), w') := by
  induction fs generalizing w with
  | nil => exact ⟨[], Frame.closing, List.prefix_rfl, (bind_of_ok hf _).trans rfl⟩
  | cons f fs ih =>
    obtain ⟨_, w₁, hframe, hrest⟩ := bind_eq_ok hf
    rw [bind_of_ok (get_apply w₁)] at hrest
    split at hrest
    · obtain ⟨gone, last, hprefix, hforM⟩ := ih hrest
      exact ⟨f :: gone, last, List.cons_prefix_cons.mpr ⟨rfl, hprefix⟩,
        (bind_of_ok hframe _).trans hforM⟩
    · cases hrest
      exact ⟨[], f, List.cons_prefix_cons.mpr ⟨rfl, List.nil_prefix⟩,
        (bind_of_ok hframe _).trans rfl⟩

theorem coherent_opened {files : Files}
    (ho : (do openRom s path; setUp s) (ofFiles files) = (.ok (), w)) : w.Coherent scale := by
  obtain ⟨_, w₁, hopen, hsetUp⟩ := bind_eq_ok ho
  rw [setUp, bind_of_ok (call_apply _ _), bind_of_ok (lookAtEngine_apply _),
    bind_of_ok (call_apply _ _)] at hsetUp
  obtain ⟨text, rfl⟩ := showCaption_eq_ok hsetUp
  exact (((openRom_eq_ok hopen).ask rfl).ask rfl).ask rfl

/-- A reload without a program does nothing but write to the log. -/
theorem handle_reload_of_not_hasRom (hrom : ¬w.host.files.HasRom path) : ∃ lines,
    handle s path (.keyDown Keyboard.reload) w =
      (.ok (), { w with host := w.host.addLines lines }) := by
  obtain ⟨lines, hreport⟩ := HostM.reloadOrReport_of_not_hasRom w.session hrom
  have hkey : Keyboard.reload ≠ Keyboard.escape := by decide
  refine ⟨lines, ?_⟩
  rw [handle, if_neg hkey, if_pos rfl, reload, bind_of_ok (get_apply w),
    bind_of_ok (onHost_apply hreport)]
  rfl

/-- **Every frame ends in step.**  Whatever happens to a window that has been opened, in any order,
and whatever its frames are: at the end of each frame that is not refused its session, its pacer and
the window itself have one engine, the pacer's handle is current, the window looks at the display of
this engine, the display is not dirty, and the surface that was blitted last shows it.  The key that
reloads does nothing but write to the log where there is no program to load. -/
theorem every_frame_ends_in_step {files : Files} {w₀ : Window} (hscale : 0 < s.scale)
    (hopen : (do openRom s path; setUp s) (ofFiles files) = (.ok (), w₀)) :
    (∀ moments w, (moments ++ [.finish]).forM (pass s path) w₀ = (.ok (), w) →
      w.InStep s.scale) ∧
    (∀ fs f w, (fs ++ [f]).forM (frame s path) w₀ = (.ok (), w) → w.InStep s.scale) ∧
    (∀ fs w, frames s path fs w₀ = (.ok (), w) → w.InStep s.scale) ∧
    ∀ w : Window, ¬w.host.files.HasRom path → ∃ lines,
      handle s path (.keyDown Keyboard.reload) w =
        (.ok (), { w with host := w.host.addLines lines }) := by
  have hw₀ : w₀.Coherent s.scale := coherent_opened hopen
  have hframes (fs : List Frame) (f : Frame) (w : Window)
      (hr : (fs ++ [f]).forM (frame s path) w₀ = (.ok (), w)) : w.InStep s.scale := by
    obtain ⟨w₁, hearlier, hlast⟩ := forM_concat_eq_ok hr
    have hw₁ := forM_keeps (fun f _ _ hw hf => (coherent_frame (f := f) hw hf).1) _ hw₀ hearlier
    obtain ⟨hcoherent, hclean⟩ := coherent_frame hw₁ hlast
    exact hcoherent.inStep hscale hclean
  refine ⟨fun moments w hr => ?_, hframes, fun fs w hr => ?_, fun w hrom =>
    handle_reload_of_not_hasRom hrom⟩
  · obtain ⟨w₁, hearlier, hfinish⟩ := forM_concat_eq_ok hr
    have hw₁ := forM_keeps (fun moment _ _ hw => coherent_pass hw moment) _ hw₀ hearlier
    exact inStep_finish hscale hw₁ hfinish
  · obtain ⟨gone, f, -, hforM⟩ := frames_eq_ok hr
    exact hframes gone f w hforM

/-- A program that lights one pixel and then jumps on the spot. -/
def pixelRom : List UInt8 :=
  [0xA2, 0x06, 0xD0, 0x01, 0x12, 0x04, 0x80]

def pixelFiles : Files :=
  ⟨[("pixel.ch8", pixelRom)], []⟩

/-- Two reloads, the first of them without a file, and a pause. -/
def reloadingFrames : List Frame := [
  ⟨[], ["pixel.ch8"], 10000000, [.keyDown Keyboard.reload, .keyUp 'q'.toNat]⟩,
  ⟨[("pixel.ch8", pixelRom)], [], 10000000, [.keyDown Keyboard.reload, .other]⟩,
  ⟨[], [], 10000000, [.keyDown Keyboard.pause]⟩]

/-- The window that is closed after the reloads and the pause is in step. -/
theorem every_frame_ends_in_step_of_reload : ∃ w₀ w,
    (do openRom .initial "pixel.ch8"; setUp .initial) (ofFiles pixelFiles) = (.ok (), w₀) ∧
      frames .initial "pixel.ch8" reloadingFrames w₀ = (.ok (), w) ∧ w.InStep 10 := by
  have hrun : (run .initial "pixel.ch8" reloadingFrames (ofFiles pixelFiles)).1 = .ok () :=
    eq_ok_of_toOption (by decide +kernel)
  obtain ⟨w', hrun⟩ := exists_of_ok hrun
  obtain ⟨_, w₁, hopenRom, hrun⟩ := bind_eq_ok hrun
  obtain ⟨_, w₀, hsetUp, hrun⟩ := bind_eq_ok hrun
  obtain ⟨_, w, hframes, -⟩ := bind_eq_ok hrun
  have hscale : 0 < Settings.initial.scale := by decide
  have hopen : (do openRom .initial "pixel.ch8"; setUp .initial) (ofFiles pixelFiles) =
      (.ok (), w₀) := (bind_of_ok hopenRom _).trans hsetUp
  obtain ⟨-, -, hloop, -⟩ := every_frame_ends_in_step hscale hopen
  exact ⟨w₀, w, hopen, hframes, hloop reloadingFrames w hframes⟩

end Window

end Chip8
