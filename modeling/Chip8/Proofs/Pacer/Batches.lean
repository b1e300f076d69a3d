import Chip8.Proofs.Host.Reachable

/-!
# The size of a batch

To cut a batch of steps in two makes no difference.  The cut lets the cues
happen once more, but after those of the last step nothing is due any more, so
that the cues of the next round have nothing to do.

* `settle_settle`: what is due happens once.
* `runSteps_add`: a batch of `a + b` steps is a batch of `a` steps and one of
  `b` steps, with the same outcome and the same host after it.
* `resting_pacer_is_inert`: a pacer that has paused or stopped has no batches.
-/

namespace Chip8

namespace HostM

variable (perform : Request → HostM Reply) {p : Nat} {h h' : Host}

/-! ### Where nothing is due -/

theorem settle_of_ahead {q : Pacer} (hq : h.pacers[p]? = some q) (hahead : q.Ahead) :
    settle perform p h = (.ok (), h) := by
  rw [settle, bind_of_ok (pacerAt_apply hq), hahead.due_eq_nil,
    bind_of_ok (modifyPacer_apply hq _), hahead.takeDue_eq_self, Host.putPacer_eq_self hq]
  rfl

theorem cueNow_of_ahead {q : Pacer} (hq : h.pacers[p]? = some q) (hahead : q.Ahead) (cue : Cue) :
    cueNow perform p cue h =
      fire perform p cue (h.putPacer p { q with nextOrder := q.nextOrder + 1 }) := by
  have hq' : (h.putPacer p (q.enqueue cue 0)).pacers[p]? = some (q.enqueue cue 0) :=
    Host.pacers_putPacer hq
  rw [cueNow, bind_of_ok (modifyPacer_apply hq _), settle, bind_of_ok (pacerAt_apply hq'),
    hahead.due_enqueue, bind_of_ok (modifyPacer_apply hq' _), hahead.takeDue_enqueue,
    Host.putPacer_putPacer, fireAll, fireAll, bind_pure_unit]

theorem settle_of_eq_none (hn : h.pacers[p]? = none) :
    settle perform p h = (.error .noPacer, h) := by
  rw [settle, bind_of_error (pacerAt_of_eq_none hn)]

theorem stepsUpTo_of_rests (hrest : Rests p h) (horder : PacersInOrder h.pacers) (n : Nat) :
    stepsUpTo perform p n h = (.ok (), h) := by
  obtain ⟨q, hq, hrun⟩ := hrest
  cases n with
  | zero => rfl
  | succ n =>
    rw [stepsUpTo, bind_of_ok (settle_of_ahead perform hq (horder p q hq).ahead),
      bind_of_ok (pacerAt_apply hq), if_pos hrun]
    rfl

/-! ### Batches -/

/-- Steps, and then the cues of the last one. -/
def batch (p : Nat) (n : Nat) : HostM Unit := do
  stepsUpTo perform p n
  settle perform p

def report (p : Nat) : HostM (Option Status) := do
  return (← pacerAt p).lastStatus

theorem runSteps_eq (count : Int) :
    runSteps perform p count = (batch perform p count.toNat >>= fun _ => report p) := by
  rw [runSteps, batch, bind_assoc]
  rfl

theorem batch_succ (n : Nat) :
    batch perform p (n + 1) =
      (round perform p >>= fun go => if go then batch perform p n else settle perform p) := by
  rw [batch, stepsUpTo_succ, bind_assoc]
  refine bind_congr fun go => ?_
  cases go <;> rfl

theorem batch_of_eq_none (hn : h.pacers[p]? = none) (n : Nat) :
    batch perform p n h = (.error .noPacer, h) := by
  have hsettle := settle_of_eq_none perform hn
  cases n with
  | zero => exact hsettle
  | succ n =>
    rw [batch_succ, round, bind_assoc, bind_of_error hsettle]

theorem batch_of_rests (hrest : Rests p h) (horder : PacersInOrder h.pacers) (n : Nat) :
    batch perform p n h = (.ok (), h) := by
  have hsteps := stepsUpTo_of_rests perform hrest horder n
  obtain ⟨q, hq, -⟩ := hrest
  rw [batch, bind_of_ok hsteps, settle_of_ahead perform hq (horder p q hq).ahead]

theorem runSteps_of_rests {q : Pacer} (hq : h.pacers[p]? = some q) (horder : PacersInOrder h.pacers)
    (hrest : q.power ≠ .running) (n : Int) :
    runSteps perform p n h = (.ok q.lastStatus, h) := by
  rw [runSteps_eq, bind_of_ok (batch_of_rests perform ⟨q, hq, hrest⟩ horder _), report,
    bind_of_ok (pacerAt_apply hq), pure_apply]

theorem settle_of_follows {q : Pacer} (hq : h.pacers[p]? = some q)
    (hnear : PacersInOrder (h.takeDue p).pacers) (hf : Host.Follows (h.takeDue p) h') :
    settle perform p h' = (.ok (), h') := by
  obtain ⟨q', hq', -⟩ := hf.pacers.same_setup (Host.pacers_takeDue hq)
  exact settle_of_ahead perform hq' (hf.pacers.inOrder hnear p q' hq').ahead

variable [KeepsRequests perform]

/-- **What is due happens once.** -/
theorem settle_settle (hnear : PacersInOrder (h.takeDue p).pacers) :
    (settle perform p >>= fun _ => settle perform p) h = settle perform p h := by
  cases hq : h.pacers[p]? with
  | none => rw [bind_of_error (settle_of_eq_none perform hq), settle_of_eq_none perform hq]
  | some q =>
    have hfollows := follows_settle perform p h
    rw [bind_apply]
    rcases hs : settle perform p h with ⟨_ | _, h'⟩
    · rfl
    · rw [hs] at hfollows
      exact settle_of_follows perform hq hnear hfollows

/-- The cues that a batch begins with may as well happen before it. -/
theorem settle_batch (hnear : PacersInOrder (h.takeDue p).pacers) (n : Nat) :
    (settle perform p >>= fun _ => batch perform p n) h = batch perform p n h := by
  cases n with
  | zero => exact settle_settle perform hnear
  | succ n =>
    rw [batch_succ, round, bind_assoc, ← bind_assoc, bind_apply, settle_settle perform hnear,
      ← bind_apply]

/-- **A batch may be cut in two.** -/
theorem batch_add (hnear : PacersInOrder (h.takeDue p).pacers) (a b : Nat) :
    batch perform p (a + b) h = (batch perform p a >>= fun _ => batch perform p b) h := by
  induction a generalizing h with
  | zero =>
    rw [Nat.zero_add]
    exact (settle_batch perform hnear b).symm
  | succ a ih =>
    have hround := follows_round perform p h
    rw [Nat.succ_add, batch_succ, batch_succ, bind_assoc, bind_apply, bind_apply]
    rcases hr : round perform p h with ⟨r | go, h'⟩
    · rfl
    rw [hr] at hround
    cases go with
    | false =>
      obtain ⟨hf, hrest⟩ := hround
      have horder : PacersInOrder h'.pacers := hf.pacers.inOrder hnear
      have hsettle : settle perform p h' = (.ok (), h') := batch_of_rests perform hrest horder 0
      show settle perform p h' = (settle perform p >>= fun _ => batch perform p b) h'
      rw [bind_of_ok hsettle, hsettle, batch_of_rests perform hrest horder]
    | true => exact ih (hround.pacers.inOrder hnear)

theorem batch_add_report (hnear : PacersInOrder (h.takeDue p).pacers) (a b : Nat) :
    (batch perform p (a + b) >>= fun _ => report p) h =
      ((batch perform p a >>= fun _ => report p) >>= fun _ =>
        batch perform p b >>= fun _ => report p) h := by
  rw [bind_apply, batch_add perform hnear a b, ← bind_apply, bind_assoc, bind_assoc, bind_apply,
    bind_apply]
  rcases hr : batch perform p a h with ⟨r | _, h'⟩
  · rfl
  cases hq : h.pacers[p]? with
  | none =>
    rw [batch_of_eq_none perform hq] at hr
    cases hr
  | some q =>
    -- The report between the two batches changes nothing, and the pacer that it wants is there.
    have hfollows := follows_batch perform p a h
    rw [← batch, hr] at hfollows
    obtain ⟨q', hq', -⟩ := hfollows.pacers.same_setup (Host.pacers_takeDue hq)
    have hreport : report p h' = (.ok q'.lastStatus, h') := by
      rw [report, bind_of_ok (pacerAt_apply hq'), pure_apply]
    dsimp only
    rw [bind_of_ok hreport]

end HostM

/-- **A batch may be cut anywhere.** -/
theorem runSteps_add {h : Host} (hr : h.Reachable) (depth p : Nat) {a b : Int} (ha : 0 ≤ a)
    (hb : 0 ≤ b) :
    HostM.runSteps (HostM.performWithin depth) p (a + b) h =
      (do
        let _ ← HostM.runSteps (HostM.performWithin depth) p a
        HostM.runSteps (HostM.performWithin depth) p b) h := by
  have hnear : PacersInOrder (h.takeDue p).pacers :=
    (h.follows_takeDue p).pacers.inOrder hr.inOrder
  have hcount : (a + b).toNat = a.toNat + b.toNat := Int.toNat_add ha hb
  rw [HostM.runSteps_eq, HostM.runSteps_eq, HostM.runSteps_eq, hcount]
  exact HostM.batch_add_report _ hnear a.toNat b.toNat

/-- A host whose frame callback executes two steps more, pauses and goes on, and changes the rate
when it is called again. -/
def reentrantHost : Host :=
  jumpingHost 120 (1 / 60) (some ⟨[(1, [.runSteps 2, .pause, .resume]), (2, [.setRate 240])]⟩)
    (.steady 0 0) [.powerOn]

/-- The callback is called in both batches. -/
theorem runSteps_add_of_reentrant :
    HostM.runSteps (HostM.performWithin 9) 0 (3 + 5) reentrantHost =
        (do
          let _ ← HostM.runSteps (HostM.performWithin 9) 0 3
          HostM.runSteps (HostM.performWithin 9) 0 5) reentrantHost ∧
      (HostM.runSteps (HostM.performWithin 9) 0 (3 + 5) reentrantHost).2.frames = 4 := by
  have hreachable : reentrantHost.Reachable := reachable_jumpingHost _ _ _ _ _
  exact ⟨runSteps_add hreachable 9 0 (by decide) (by decide), by decide +kernel⟩

/-! ### Pacers that do not run -/

/-- **A pacer that does not run is inert.**  In every host that requests lead to, whatever they have
been and however they have ended, all that is on the schedule of a pacer lies ahead of its
count.  So if the pacer has paused or stopped, a batch of any size reports the last status and
leaves the whole host as it is. -/
theorem resting_pacer_is_inert {h : Host} (hr : h.Reachable) {p : Nat} {q : Pacer}
    (hq : h.pacers[p]? = some q) :
    (∀ e ∈ q.schedule.events, (q.count : Int) < e.clock) ∧
      (q.power = .paused ∨ q.power = .stopped →
        ∀ (perform : Request → HostM Reply) (n : Int),
          HostM.runSteps perform p n h = (.ok q.lastStatus, h)) := by
  refine ⟨(hr.inOrder p q hq).ahead, fun hrest perform n => ?_⟩
  refine HostM.runSteps_of_rests perform hq hr.inOrder ?_ n
  rcases hrest with hpaused | hstopped
  · rw [hpaused]
    decide
  · rw [hstopped]
    decide

/-- A host whose frame callback makes a step and changes the rate, which plans it twice.  The next
time it is refused, so that its batch ends and the other one is lost; then the pacer pauses. -/
def interruptedHost : Host :=
  jumpingHost 120 (1 / 60) (some ⟨[(1, [.runSteps 1, .setRate 240]), (2, [.key 16 true])]⟩)
    (.steady 0 0) [.powerOn, .runSteps 20, .pause]

def interruptedPacer : Pacer :=
  interruptedHost.pacers[0]?.get (by decide +kernel)

/-- What is still planned stays ahead of the pacer that has paused, and no batch comes to it. -/
theorem resting_pacer_is_inert_of_interrupted :
    interruptedPacer.schedule.size = 1 ∧
      (∀ e ∈ interruptedPacer.schedule.events, (interruptedPacer.count : Int) < e.clock) ∧
      HostM.runSteps HostM.perform 0 50 interruptedHost =
        (.ok interruptedPacer.lastStatus, interruptedHost) := by
  have hr : interruptedHost.Reachable := reachable_jumpingHost _ _ _ _ _
  have hq : interruptedHost.pacers[0]? = some interruptedPacer := (Option.some_get _).symm
  have hfacts : interruptedPacer.schedule.size = 1 ∧ interruptedPacer.power = .paused := by
    decide +kernel
  obtain ⟨hsize, hpaused⟩ := hfacts
  obtain ⟨hahead, hinert⟩ := resting_pacer_is_inert hr hq
  exact ⟨hsize, hahead, hinert (.inl hpaused) HostM.perform 50⟩

end Chip8
