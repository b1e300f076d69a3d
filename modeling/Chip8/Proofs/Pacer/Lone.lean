import Chip8.Proofs.Engine.Calls
import Chip8.Proofs.Pacer.Regular
import Chip8.Proofs.Pacer.SingleSteps
import Chip8.Proofs.Pacer.Stale

/-!
# Pacers without a frame callback

The batches of a pacer that has no frame callback, over an engine whose source is
plain, concern these two only.  A step and the ticks after it are a function of
the pacer and the engine, `Duo.next`, whatever the rest of the host is like.  So
they do not look at clocks, and they never ask the host for anything.

* `batch_one_of_shows`: a batch of one step.
* `oneStep_sameButTime`: hosts that differ in their clocks and notes only still do
  so after a step.
* `exists_iterate_of_batch`: a batch that is not refused is as many single steps as
  the count has gone up by, and these are at most as many as it was asked for.
-/

namespace Chip8

/-- A pacer and the engine of its handle. -/
structure Duo where
  pacer : Pacer
  engine : Engine

namespace Duo

/-- After a cue for the timers has happened. -/
def ticked (s : Duo) : Duo :=
  if s.pacer.timerActive = true ∧ s.pacer.power ≠ .stopped then
    ⟨s.pacer.enqueue .tickTimers s.pacer.timerInterval, s.engine.ticked⟩
  else s

/-- After as many cues for the timers as are due. -/
def settled (s : Duo) : Duo :=
  ticked^[s.pacer.due.length] ⟨s.pacer.takeDue, s.engine⟩

/-- After a step that has reported a status. -/
def counted (s : Duo) (status : Status) : Duo :=
  if status.isHalted then ⟨(s.pacer.countStep status).stopNow, s.engine⟩
  else settled ⟨s.pacer.countStep status, s.engine⟩

/-- Whether a step is made. -/
def Goes (s : Duo) : Prop :=
  s.pacer.power = .running ∧ s.engine.started = true

instance (s : Duo) : Decidable s.Goes :=
  inferInstanceAs (Decidable (_ ∧ _))

def next (s : Duo) : Duo :=
  if s.Goes then
    match s.engine.outcome with
    | .error _ => ⟨s.pacer, s.engine.stepped⟩
    | .ok status => counted ⟨s.pacer, s.engine.stepped⟩ status
  else s

def answer (s : Duo) : Except Refusal Unit :=
  if s.pacer.power = .running then
    if s.engine.started = true then s.engine.outcome.map fun _ => () else .error .notStarted
  else .ok ()

def lines (s : Duo) : List LogLine :=
  if s.Goes then s.engine.stepLines else []

/-- Nothing but ticks of the timers is on the schedule, and the engine's next calls depend on
nothing but itself. -/
structure Plain (s : Duo) : Prop extends s.engine.Alone where
  ticks : ∀ ev ∈ s.pacer.schedule.events, ev.item = .tickTimers

/-- The pacer follows the same handle, and the engine has the same standing. -/
structure SameRole (s s' : Duo) : Prop where
  handle_eq : s'.pacer.handle = s.pacer.handle
  engine : s.engine.SameRole s'.engine

theorem sameRole_of_handle_eq {s : Duo} {q : Pacer} (hq : q.handle = s.pacer.handle) :
    s.SameRole ⟨q, s.engine⟩ :=
  ⟨hq, ⟨rfl, rfl, rfl, rfl, rfl⟩⟩

theorem SameRole.refl (s : Duo) : s.SameRole s :=
  sameRole_of_handle_eq rfl

theorem SameRole.trans {s s' s'' : Duo} (h : s.SameRole s') (h' : s'.SameRole s'') :
    s.SameRole s'' :=
  ⟨h'.handle_eq.trans h.handle_eq, h.engine.trans h'.engine⟩

/-! ### What is kept -/

variable {s : Duo}

theorem sameRole_ticked (s : Duo) : s.SameRole s.ticked := by
  rw [ticked]
  split
  · exact ⟨rfl, s.engine.sameRole_ticked⟩
  · exact .refl s

theorem sameRole_iterate_ticked (s : Duo) (n : Nat) : s.SameRole (ticked^[n] s) := by
  induction n with
  | zero => exact .refl s
  | succ n ih =>
    rw [Function.iterate_succ_apply']
    exact ih.trans (sameRole_ticked _)

theorem sameRole_settled (s : Duo) : s.SameRole s.settled := by
  have htake : s.SameRole ⟨s.pacer.takeDue, s.engine⟩ := sameRole_of_handle_eq rfl
  rw [settled]
  exact htake.trans (sameRole_iterate_ticked _ _)

theorem sameRole_counted (s : Duo) (status : Status) : s.SameRole (s.counted status) := by
  have hcount : s.SameRole ⟨s.pacer.countStep status, s.engine⟩ := sameRole_of_handle_eq rfl
  rw [counted]
  split
  · exact sameRole_of_handle_eq rfl
  · exact hcount.trans (sameRole_settled _)

theorem sameRole_next (s : Duo) : s.SameRole s.next := by
  have hstep : s.SameRole ⟨s.pacer, s.engine.stepped⟩ := ⟨rfl, s.engine.sameRole_stepped⟩
  rw [next]
  split
  · split
    · exact hstep
    · exact hstep.trans (sameRole_counted _ _)
  · exact .refl s

theorem Plain.ticked (hs : s.Plain) : s.ticked.Plain := by
  rw [Duo.ticked]
  split
  · refine ⟨⟨hs.free, hs.plain⟩, fun ev hev => ?_⟩
    rcases Schedule.mem_insert.mp hev with rfl | hev
    · rfl
    · exact hs.ticks ev hev
  · exact hs

theorem Plain.iterate_ticked (hs : s.Plain) (n : Nat) : (Duo.ticked^[n] s).Plain := by
  induction n with
  | zero => exact hs
  | succ n ih =>
    rw [Function.iterate_succ_apply']
    exact ih.ticked

theorem Plain.takeDue (hs : s.Plain) : (Duo.mk s.pacer.takeDue s.engine).Plain := by
  refine ⟨⟨hs.free, hs.plain⟩, fun ev hev => hs.ticks ev ?_⟩
  exact (List.dropWhile_sublist _).subset hev

theorem Plain.counted (hs : s.Plain) (status : Status) : (s.counted status).Plain := by
  have hcount : (Duo.mk (s.pacer.countStep status) s.engine).Plain :=
    ⟨⟨hs.free, hs.plain⟩, hs.ticks⟩
  rw [Duo.counted]
  split
  · exact ⟨⟨hs.free, hs.plain⟩, fun ev hev => absurd hev List.not_mem_nil⟩
  · exact hcount.takeDue.iterate_ticked _

theorem Plain.next (hs : s.Plain) : s.next.Plain := by
  have hstep : (Duo.mk s.pacer s.engine.stepped).Plain :=
    ⟨⟨s.engine.sameRole_stepped.busy_eq.trans hs.free, Engine.isPlain_stepped hs.plain⟩, hs.ticks⟩
  rw [Duo.next]
  split
  · split
    · exact hstep
    · exact hstep.counted _
  · exact hs

/-! ### How far the count goes -/

theorem count_iterate_ticked (s : Duo) (n : Nat) :
    (ticked^[n] s).pacer.count = s.pacer.count := by
  induction n with
  | zero => rfl
  | succ n ih =>
    rw [Function.iterate_succ_apply', ← ih, ticked]
    split <;> rfl

theorem count_counted (s : Duo) (status : Status) :
    (s.counted status).pacer.count = s.pacer.count + 1 := by
  rw [counted]
  split
  · rfl
  · rw [settled, count_iterate_ticked]
    rfl

theorem count_next (hrun : s.pacer.power = .running) (hanswer : s.answer = .ok ()) :
    s.next.pacer.count = s.pacer.count + 1 := by
  rw [answer, if_pos hrun] at hanswer
  split at hanswer
  · next hstarted =>
    rw [next, if_pos ⟨hrun, hstarted⟩]
    cases ho : s.engine.outcome with
    | error r =>
      rw [ho] at hanswer
      cases hanswer
    | ok status => exact count_counted _ _
  · cases hanswer

end Duo

/-! ### What the host does -/

namespace Host

/-- The host with a pacer and its engine in their places, and with more lines in its log. -/
def putDuo (h : Host) (p : Nat) (s : Duo) (lines : List LogLine) : Host :=
  ((h.putEngine s.pacer.handle.engine s.engine).putPacer p s.pacer).addLines lines

/-- The host has this pacer and the engine of its handle, and the handle is current. -/
structure Shows (h : Host) (p : Nat) (s : Duo) : Prop where
  pacer : h.pacers[p]? = some s.pacer
  engine : h.engines[s.pacer.handle.engine]? = some s.engine
  current : (HostM.isCurrent s.pacer.handle h).1 = .ok true

variable {h : Host} {p : Nat} {s s' : Duo}

theorem putDuo_self (hs : h.Shows p s) : h.putDuo p s [] = h := by
  rw [putDuo, addLines_nil, putEngine_eq_self hs.engine, putPacer_eq_self hs.pacer]

theorem putDuo_putDuo (hsame : s.SameRole s') (lines lines' : List LogLine) :
    (h.putDuo p s lines).putDuo p s' lines' = h.putDuo p s' (lines ++ lines') := by
  rw [putDuo, putDuo, putDuo, addLines_append, hsame.handle_eq]
  simp only [putEngine, putPacer, addLines, Array.setIfInBounds_setIfInBounds]

theorem Shows.putDuo (hs : h.Shows p s) (hsame : s.SameRole s') (lines : List LogLine) :
    (h.putDuo p s' lines).Shows p s' where
  pacer := pacers_putPacer (h := h.putEngine _ _) hs.pacer
  engine := by
    have he : h.engines[s'.pacer.handle.engine]? = some s.engine := by
      rw [hsame.handle_eq]
      exact hs.engine
    exact engines_putEngine he
  current := by
    have he : h.engines[s'.pacer.handle.engine]? = some s.engine := by
      rw [hsame.handle_eq]
      exact hs.engine
    have hcurrent : (HostM.isCurrent s'.pacer.handle (h.putDuo p s' lines)).1 =
        (HostM.isCurrent s'.pacer.handle h).1 :=
      HostM.isCurrent_congr he (engines_putEngine he) hsame.engine.retired_eq
        hsame.engine.owner_eq hsame.engine.generation_eq rfl
    rw [hcurrent, hsame.handle_eq]
    exact hs.current

end Host

namespace HostM

open Host

variable (perform : Request → HostM Reply) {p : Nat} {h : Host} {s : Duo}

/-- **A tick of the timers** concerns the pacer and its engine only. -/
theorem fire_tickTimers_of_shows (hs : h.Shows p s) (hplain : s.Plain) :
    fire perform p .tickTimers h = (.ok (), h.putDuo p s.ticked []) := by
  by_cases hwanted : s.pacer.timerActive = true ∧ s.pacer.power ≠ .stopped
  · rw [fire_tickTimers_apply perform hs.pacer hwanted.1 hwanted.2 hs.engine hplain.free
      hs.current, Duo.ticked, if_pos hwanted, putDuo, addLines_nil]
    rfl
  · have hunwanted : ¬(s.pacer.timerActive && s.pacer.power ≠ .stopped) = true := by
      simpa using hwanted
    rw [fire, bind_of_ok (pacerAt_apply hs.pacer), if_neg hunwanted, Duo.ticked, if_neg hwanted,
      putDuo_self hs]
    rfl

theorem fireAll_of_shows {events : List (Event Cue)} (hticks : ∀ ev ∈ events, ev.item = .tickTimers)
    (hs : h.Shows p s) (hplain : s.Plain) :
    fireAll perform p events h = (.ok (), h.putDuo p (Duo.ticked^[events.length] s) []) := by
  induction events generalizing h s with
  | nil => exact congrArg (Prod.mk _) (putDuo_self hs).symm
  | cons ev rest ih =>
    have hsame := s.sameRole_ticked
    rw [fireAll, hticks ev List.mem_cons_self,
      bind_of_ok (fire_tickTimers_of_shows perform hs hplain),
      ih (fun ev' hev' => hticks ev' (List.mem_cons_of_mem _ hev')) (hs.putDuo hsame [])
        hplain.ticked, putDuo_putDuo (Duo.sameRole_iterate_ticked _ _)]
    rfl

/-- **What is due happens** to the pacer and its engine only. -/
theorem settle_of_shows (hs : h.Shows p s) (hplain : s.Plain) :
    settle perform p h = (.ok (), h.putDuo p s.settled []) := by
  have htake : s.SameRole ⟨s.pacer.takeDue, s.engine⟩ := Duo.sameRole_of_handle_eq rfl
  have hput : h.putPacer p s.pacer.takeDue = h.putDuo p ⟨s.pacer.takeDue, s.engine⟩ [] := by
    rw [putDuo, addLines_nil]
    exact congrArg (Host.putPacer · p _) (putEngine_eq_self hs.engine).symm
  have hticks : ∀ ev ∈ s.pacer.due, ev.item = .tickTimers := fun ev hev =>
    hplain.ticks ev ((List.takeWhile_sublist _).subset hev)
  rw [settle, bind_of_ok (pacerAt_apply hs.pacer), bind_of_ok (modifyPacer_apply hs.pacer _), hput,
    fireAll_of_shows perform hticks (hs.putDuo htake []) hplain.takeDue,
    putDuo_putDuo (Duo.sameRole_iterate_ticked _ _)]
  rfl

theorem round_of_current {q : Pacer} (hq : h.pacers[p]? = some q) (hahead : q.Ahead)
    (hrun : q.power = .running) (hcurrent : (isCurrent q.handle h).1 = .ok true) :
    round perform p h = (do
      let status ← stepEngine perform q.handle.engine
      modifyPacer p (·.countStep status)
      if status.isHalted then
        modifyPacer p Pacer.stopNow
        return false
      return true) h := by
  have hx : isCurrent q.handle h = (.ok true, h) :=
    Prod.ext hcurrent (isCurrent_unchanged q.handle h)
  rw [round, bind_of_ok (settle_of_ahead perform hq hahead), bind_of_ok (pacerAt_apply hq),
    if_neg (not_not_intro hrun), bind_of_ok hx]
  show (stepHandle perform q.handle >>= fun _ => _) h = _
  rw [bind_apply, bind_apply, stepHandle_of_current hx]

theorem step_of_shows (hs : h.Shows p s) (hplain : s.Plain) (hstarted : s.engine.started = true) :
    stepEngine perform s.pacer.handle.engine h =
      (s.engine.outcome, h.putDuo p ⟨s.pacer, s.engine.stepped⟩ s.engine.stepLines) := by
  have hq : (h.putEngine s.pacer.handle.engine s.engine.stepped).pacers[p]? = some s.pacer :=
    hs.pacer
  rw [stepEngine_apply hs.engine hstarted hplain.free (Engine.undisturbed_of_isPlain hplain.plain),
    putDuo, putPacer_eq_self hq]

theorem modifyPacer_putDuo {q : Pacer} (hq : h.pacers[p]? = some q) (lines : List LogLine)
    {f : Pacer → Pacer} (hf : (f s.pacer).handle = s.pacer.handle) :
    modifyPacer p f (h.putDuo p s lines) =
      (.ok (), h.putDuo p ⟨f s.pacer, s.engine⟩ lines) := by
  have hput : (h.putDuo p s lines).pacers[p]? = some s.pacer :=
    pacers_putPacer (h := h.putEngine _ _) hq
  rw [modifyPacer_apply hput, putDuo, putDuo, hf]
  simp only [putEngine, putPacer, addLines, Array.setIfInBounds_setIfInBounds]

theorem count_of_shows {lines : List LogLine} (hs : (h.putDuo p s lines).Shows p s)
    (hplain : s.Plain) {q : Pacer} (hq : h.pacers[p]? = some q) (status : Status) :
    ((do
      modifyPacer p (·.countStep status)
      if status.isHalted then
        modifyPacer p Pacer.stopNow
        return false
      return true : HostM Bool) >>= fun go =>
        if go then batch perform p 0 else settle perform p) (h.putDuo p s lines) =
      (.ok (), h.putDuo p (s.counted status) lines) := by
  have hcount := modifyPacer_putDuo (s := s) hq lines (f := (·.countStep status)) rfl
  cases hhalted : status.isHalted with
  | true =>
    have hstop := modifyPacer_putDuo (s := ⟨s.pacer.countStep status, s.engine⟩) hq lines
      (f := Pacer.stopNow) rfl
    have hstopped : (h.putDuo p ⟨(s.pacer.countStep status).stopNow, s.engine⟩ lines).pacers[p]? =
        some (s.pacer.countStep status).stopNow := pacers_putPacer (h := h.putEngine _ _) hq
    rw [bind_assoc, bind_of_ok hcount]
    show ((modifyPacer p Pacer.stopNow >>= fun _ => pure false) >>= _) _ = _
    rw [bind_assoc, bind_of_ok hstop, Duo.counted, if_pos hhalted]
    exact settle_of_ahead perform hstopped (ahead_stopNow _)
  | false =>
    have hsame : s.SameRole ⟨s.pacer.countStep status, s.engine⟩ := Duo.sameRole_of_handle_eq rfl
    have hs' : (h.putDuo p ⟨s.pacer.countStep status, s.engine⟩ lines).Shows p
        ⟨s.pacer.countStep status, s.engine⟩ := by
      have hput := hs.putDuo hsame []
      rw [putDuo_putDuo hsame, List.append_nil] at hput
      exact hput
    rw [bind_assoc, bind_of_ok hcount]
    show settle perform p _ = _
    rw [settle_of_shows perform hs' ⟨⟨hplain.free, hplain.plain⟩, hplain.ticks⟩,
      putDuo_putDuo (Duo.sameRole_settled _), List.append_nil, Duo.counted,
      if_neg (by simp [hhalted])]

/-- **A batch of one step** is `Duo.next`, and looks at nothing but the pacer and its engine. -/
theorem batch_one_of_shows (hs : h.Shows p s) (hplain : s.Plain) (horder : PacersInOrder h.pacers) :
    batch perform p 1 h = (s.answer, h.putDuo p s.next s.lines) := by
  by_cases hrest : s.pacer.power ≠ .running
  · have hstays : ¬s.Goes := fun hgoes => hrest hgoes.1
    rw [batch_of_rests perform ⟨s.pacer, hs.pacer, hrest⟩ horder, Duo.answer, if_neg hrest,
      Duo.next, if_neg hstays, Duo.lines, if_neg hstays, putDuo_self hs]
  have hrun : s.pacer.power = .running := Classical.not_not.mp hrest
  have hahead := (horder p s.pacer hs.pacer).ahead
  rw [batch_succ, bind_apply, round_of_current perform hs.pacer hahead hrun hs.current,
    ← bind_apply, bind_assoc, Duo.answer, if_pos hrun]
  cases hstarted : s.engine.started with
  | false =>
    have hstays : ¬s.Goes := fun hgoes => absurd hgoes.2 (by rw [hstarted]; decide)
    rw [bind_of_error (stepEngine_of_not_started hs.engine hstarted), if_neg Bool.false_ne_true,
      Duo.next, if_neg hstays, Duo.lines, if_neg hstays, putDuo_self hs]
  | true =>
    have hgoes : s.Goes := ⟨hrun, hstarted⟩
    have hstep := step_of_shows perform hs hplain hstarted
    have hsame : s.SameRole ⟨s.pacer, s.engine.stepped⟩ := ⟨rfl, s.engine.sameRole_stepped⟩
    have hplain' : (Duo.mk s.pacer s.engine.stepped).Plain :=
      ⟨⟨hsame.engine.busy_eq.trans hplain.free, Engine.isPlain_stepped hplain.plain⟩, hplain.ticks⟩
    rw [if_pos rfl, Duo.next, if_pos hgoes, Duo.lines, if_pos hgoes]
    cases ho : s.engine.outcome with
    | error r =>
      rw [ho] at hstep
      exact bind_of_error hstep _
    | ok status =>
      rw [ho] at hstep
      rw [bind_of_ok hstep]
      exact count_of_shows perform (hs.putDuo hsame _) hplain' hs.pacer status

end HostM

/-! ### Single steps -/

namespace Host

open HostM

/-- The hosts differ in the instants of their clocks and in their notes only. -/
def SameButTime (h h' : Host) : Prop :=
  ∃ clocks notes, h' = { h with clocks, notes }

variable {h h' : Host} {p : Nat} {s : Duo}

theorem SameButTime.refl (h : Host) : h.SameButTime h :=
  ⟨h.clocks, h.notes, rfl⟩

theorem SameButTime.trans {h'' : Host} (hs : h.SameButTime h') (hs' : h'.SameButTime h'') :
    h.SameButTime h'' := by
  obtain ⟨_, _, rfl⟩ := hs
  obtain ⟨clocks, notes, rfl⟩ := hs'
  exact ⟨clocks, notes, rfl⟩

/-- The host has a pacer that plans nothing but ticks of the timers, its handle is current, and its
engine makes its steps alone. -/
structure Paced (h : Host) (p : Nat) (s : Duo) : Prop extends h.Shows p s where
  plain : s.Plain
  order : PacersInOrder h.pacers

theorem Paced.of_sameButTime (hs : h.Paced p s) (hsame : h.SameButTime h') : h'.Paced p s := by
  obtain ⟨clocks, notes, rfl⟩ := hsame
  exact
    { pacer := hs.pacer
      engine := hs.engine
      current := by
        have hcurrent : (isCurrent s.pacer.handle { h with clocks, notes }).1 =
            (isCurrent s.pacer.handle h).1 := isCurrent_of_eq rfl rfl
        exact hcurrent.trans hs.current
      plain := hs.plain
      order := hs.order }

end Host

namespace HostM

open Host

variable (perform : Request → HostM Reply) {p : Nat} {h h' : Host} {s : Duo}

theorem oneStep_eq (p : Nat) (h : Host) : oneStep perform p h = (batch perform p 1 h).2 := by
  have hone : Int.toNat 1 = 1 := rfl
  rw [oneStep, runSteps_eq, hone, bind_apply]
  rcases batch perform p 1 h with ⟨r | _, h'⟩
  · rfl
  · dsimp only
    rw [report]
    cases hq : h'.pacers[p]? with
    | none => rw [bind_of_error (pacerAt_of_eq_none hq)]
    | some q => rw [bind_of_ok (pacerAt_apply hq), pure_apply]

/-- **One step** of the host is one of the pacer and its engine. -/
theorem oneStep_of_paced (hs : h.Paced p s) :
    oneStep perform p h = h.putDuo p s.next s.lines := by
  rw [oneStep_eq, batch_one_of_shows perform hs.toShows hs.plain hs.order]

/-- **A step does not look at clocks.** -/
theorem oneStep_sameButTime (hs : h.Paced p s) (hsame : h.SameButTime h') :
    (oneStep perform p h).SameButTime (oneStep perform p h') := by
  rw [oneStep_of_paced perform hs, oneStep_of_paced perform (hs.of_sameButTime hsame)]
  obtain ⟨clocks, notes, rfl⟩ := hsame
  exact ⟨clocks, notes, rfl⟩

variable [KeepsRequests perform]

theorem paced_oneStep (hs : h.Paced p s) : (oneStep perform p h).Paced p s.next := by
  have horder := inOrder_batch perform (p := p) hs.order 1
  rw [← oneStep_eq] at horder
  have hshows := hs.toShows.putDuo s.sameRole_next s.lines
  rw [← oneStep_of_paced perform hs] at hshows
  exact
    { toShows := hshows
      plain := hs.plain.next
      order := horder }

theorem paced_iterate (hs : h.Paced p s) (n : Nat) :
    ((oneStep perform p)^[n] h).Paced p (Duo.next^[n] s) := by
  induction n with
  | zero => exact hs
  | succ n ih =>
    rw [Function.iterate_succ_apply', Function.iterate_succ_apply']
    exact paced_oneStep perform ih

theorem iterate_sameButTime (hs : h.Paced p s) (hsame : h.SameButTime h') (n : Nat) :
    ((oneStep perform p)^[n] h).SameButTime ((oneStep perform p)^[n] h') := by
  induction n with
  | zero => exact hsame
  | succ n ih =>
    rw [Function.iterate_succ_apply', Function.iterate_succ_apply']
    exact oneStep_sameButTime perform (paced_iterate perform hs n) ih

theorem runSteps_one_of_paced (hs : h.Paced p s) (hanswer : s.answer = .ok ()) :
    runSteps perform p 1 h = (.ok s.next.pacer.lastStatus, oneStep perform p h) := by
  have hbatch := batch_one_of_shows perform hs.toShows hs.plain hs.order
  rw [hanswer, ← oneStep_of_paced perform hs] at hbatch
  have hone : Int.toNat 1 = 1 := rfl
  rw [runSteps_eq, hone, bind_of_ok hbatch, report,
    bind_of_ok (pacerAt_apply (paced_oneStep perform hs).pacer), pure_apply]

/-- **A batch that is not refused** is as many single steps as the count has gone up by. -/
theorem exists_iterate_of_batch {n : Nat} (hs : h.Paced p s)
    (hb : batch perform p n h = (.ok (), h')) :
    ∃ i ≤ n, h' = (oneStep perform p)^[i] h ∧
      (Duo.next^[i] s).pacer.count = s.pacer.count + i ∧
        ∀ m < i, (Duo.next^[m] s).answer = .ok () := by
  induction n generalizing h s with
  | zero =>
    have hnone := settle_of_ahead perform hs.pacer (hs.order p _ hs.pacer).ahead
    rw [show batch perform p 0 h = (.ok (), h) from hnone] at hb
    cases hb
    exact ⟨0, Nat.le_refl 0, rfl, rfl, fun m hm => absurd hm (Nat.not_lt_zero m)⟩
  | succ n ih =>
    by_cases hrun : s.pacer.power = .running
    · have hnear : PacersInOrder (h.takeDue p).pacers :=
        (h.follows_takeDue p).pacers.inOrder hs.order
      have hone := batch_one_of_shows perform hs.toShows hs.plain hs.order
      rw [← oneStep_of_paced perform hs] at hone
      rw [Nat.add_comm, batch_add perform hnear, bind_apply, hone] at hb
      cases hanswer : s.answer with
      | error r =>
        rw [hanswer] at hb
        cases hb
      | ok u =>
        rw [hanswer] at hb
        obtain ⟨i, hi, hh', hcount, hanswers⟩ := ih (paced_oneStep perform hs) hb
        refine ⟨i + 1, by omega, hh', ?_, fun m hm => ?_⟩
        · rw [Function.iterate_succ_apply, hcount, Duo.count_next hrun hanswer]
          omega
        · cases m with
          | zero => exact hanswer
          | succ m => exact hanswers m (by omega)
    · rw [batch_of_rests perform ⟨s.pacer, hs.pacer, hrun⟩ hs.order] at hb
      cases hb
      exact ⟨0, Nat.zero_le _, rfl, rfl, fun m hm => absurd hm (Nat.not_lt_zero m)⟩

end HostM

end Chip8
