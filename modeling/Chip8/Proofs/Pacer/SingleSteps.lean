import Chip8.Proofs.Machine.Sound
import Chip8.Proofs.Pacer.Refinement
import Mathlib.Data.Nat.Find
import Mathlib.Logic.Function.Iterate

/-!
# Single steps

A batch is as many batches of one step each.  A pacer that has been powered on
over a sound machine runs until the program halts, and no step of it is refused,
so that the host after a batch is found by iterating a single step.

* `PlainRun.Live`: the run goes on until a halt is reported.
* `tracks_oneStep`: the host after so many single steps tracks the plain run
  after as many.
* `batch_eq_iterate`: a batch is its single steps.
* `exists_halt`: a run that has stopped has done so at one of its steps.
-/

namespace Chip8

/-! ### The plain run -/

namespace PlainRun

def next (T : Nat) (s : PlainRun) : PlainRun :=
  (s.run T 1).2

/-- The machine is sound, and the run goes on until a step reports a halt. -/
structure Live (s : PlainRun) : Prop where
  sound : s.engine.machine.Sound
  power_cases : (s.power = .running ∧ ∀ reason, s.lastStatus ≠ some (.halted reason)) ∨
    (s.power = .stopped ∧ ∃ reason, s.lastStatus = some (.halted reason))

variable {T : Nat} {s : PlainRun}

namespace Live

theorem running_iff (hs : s.Live) :
    s.power = .running ↔ ∀ reason, s.lastStatus ≠ some (.halted reason) := by
  rcases hs.power_cases with ⟨hrun, hstatus⟩ | ⟨hstopped, reason, hstatus⟩
  · exact ⟨fun _ => hstatus, fun _ => hrun⟩
  · simp [hstopped, hstatus]

theorem exists_outcome (hs : s.Live) : ∃ status, s.engine.outcome = .ok status := by
  obtain ⟨-, status, hstatus⟩ := hs.sound.step s.engine.source.nextByte
  exact ⟨status, by rw [Engine.outcome, Engine.reaction, hstatus]; rfl⟩

theorem sound_stepped (hs : s.Live) : s.engine.stepped.machine.Sound := by
  obtain ⟨source, lastStatus, heq⟩ := s.engine.stepped_eq
  rw [heq]
  exact (hs.sound.step _).1

theorem step_cases (hs : s.Live) (hrun : s.power = .running) :
    (s.step T).1 = .ok () ∧ (s.step T).2.Live ∧ (s.step T).2.steps = s.steps + 1 := by
  obtain ⟨status, ho⟩ := hs.exists_outcome
  have hsound := hs.sound_stepped
  cases status with
  | halted reason =>
    rw [step_of_halted ho]
    exact ⟨rfl, ⟨hsound, .inr ⟨rfl, reason, rfl⟩⟩, rfl⟩
  | «continue» | awaitingKey =>
    rw [step_of_passed ho rfl]
    refine ⟨rfl, ⟨?_, .inl ⟨hrun, by simp⟩⟩, rfl⟩
    dsimp only
    split
    · exact hsound.of_eq rfl rfl
    · exact hsound

theorem run_one_of_running (hs : s.Live) (hrun : s.power = .running) :
    s.run T 1 = (.ok (), (s.step T).2) := by
  obtain ⟨hanswer, -⟩ := hs.step_cases (T := T) hrun
  rw [run, if_pos hrun]
  rcases hstep : s.step T with ⟨answer, s'⟩
  rw [hstep] at hanswer
  obtain rfl : answer = .ok () := hanswer
  rfl

theorem run_one (hs : s.Live) : s.run T 1 = (.ok (), s.next T) := by
  by_cases hrun : s.power = .running
  · rw [next, hs.run_one_of_running hrun]
  · rw [next, run_of_rests hrun]

theorem next (hs : s.Live) : (s.next T).Live := by
  by_cases hrun : s.power = .running
  · rw [PlainRun.next, hs.run_one_of_running hrun]
    exact (hs.step_cases hrun).2.1
  · rw [PlainRun.next, run_of_rests hrun]
    exact hs

theorem steps_next (hs : s.Live) (hrun : s.power = .running) :
    (s.next T).steps = s.steps + 1 := by
  rw [PlainRun.next, hs.run_one_of_running hrun]
  exact (hs.step_cases hrun).2.2

theorem iterate (hs : s.Live) (n : Nat) : ((PlainRun.next T)^[n] s).Live := by
  induction n with
  | zero => exact hs
  | succ n ih =>
    rw [Function.iterate_succ_apply']
    exact ih.next

end Live

theorem next_of_rests (hrest : s.power ≠ .running) : s.next T = s := by
  rw [next, run_of_rests hrest]

theorem running_of_iterate {m n : Nat} (hmn : m ≤ n)
    (hrun : ((next T)^[n] s).power = .running) : ((next T)^[m] s).power = .running := by
  by_contra hrest
  rw [← Nat.sub_add_cancel hmn, Function.iterate_add_apply,
    Function.iterate_fixed (next_of_rests hrest)] at hrun
  exact hrest hrun

theorem steps_iterate (hs : s.Live) {n : Nat}
    (hrun : ∀ m < n, ((next T)^[m] s).power = .running) :
    ((next T)^[n] s).steps = s.steps + n := by
  induction n with
  | zero => rfl
  | succ n ih =>
    rw [Function.iterate_succ_apply', (hs.iterate n).steps_next (hrun n n.lt_succ_self),
      ih fun m hm => hrun m (Nat.lt_succ_of_lt hm)]
    rfl

end PlainRun

/-! ### The host -/

namespace HostM

variable (perform : Request → HostM Reply)

/-- The host after a batch of one step. -/
def oneStep (p : Nat) (h : Host) : Host :=
  (runSteps perform p 1 h).2

variable {x : Handle} {p T start : Nat} {s : PlainRun} {h : Host}

theorem runSteps_apply {n : Nat} {h' : Host} (hb : batch perform p n h = (.ok (), h'))
    (ht' : h'.Tracks x p T start s) : runSteps perform p n h = (.ok s.lastStatus, h') := by
  obtain ⟨q, hq, hpaces⟩ := ht'.pacer
  rw [runSteps_eq, Int.toNat_natCast, bind_of_ok hb, report, bind_of_ok (pacerAt_apply hq),
    hpaces.lastStatus_eq]
  rfl

theorem oneStep_of_batch {h' : Host} (hb : batch perform p 1 h = (.ok (), h'))
    (ht' : h'.Tracks x p T start s) : oneStep perform p h = h' := by
  rw [oneStep, show (1 : Int) = ((1 : Nat) : Int) from rfl, runSteps_apply perform hb ht']

/-- **One step** of the host is one of the plain run, and it is not refused. -/
theorem tracks_oneStep (hT : 0 < T) (ht : h.Tracks x p T start s) (hs : s.Live) :
    batch perform p 1 h = (.ok (), oneStep perform p h) ∧
      (oneStep perform p h).Tracks x p T start (s.next T) ∧
      h.SameSurroundings (oneStep perform p h) := by
  obtain ⟨hanswer, ht', hsame⟩ := tracks_batch perform hT 1 ht
  rw [hs.run_one] at hanswer ht'
  rcases hb : batch perform p 1 h with ⟨answer, h'⟩
  rw [hb] at hanswer ht' hsame
  obtain rfl : answer = .ok () := hanswer
  rw [oneStep_of_batch perform hb ht']
  exact ⟨rfl, ht', hsame⟩

theorem tracks_iterate (hT : 0 < T) (ht : h.Tracks x p T start s) (hs : s.Live) (n : Nat) :
    ((oneStep perform p)^[n] h).Tracks x p T start ((PlainRun.next T)^[n] s) ∧
      h.SameSurroundings ((oneStep perform p)^[n] h) := by
  induction n with
  | zero => exact ⟨ht, .refl h⟩
  | succ n ih =>
    rw [Function.iterate_succ_apply', Function.iterate_succ_apply']
    obtain ⟨-, ht', hsame⟩ := tracks_oneStep perform hT ih.1 (hs.iterate n)
    exact ⟨ht', ih.2.trans hsame⟩

theorem oneStep_of_rests (hT : 0 < T) (ht : h.Tracks x p T start s) (hrest : s.power ≠ .running) :
    oneStep perform p h = h := by
  have hround := round_of_tracks_rests perform hT ht hrest
  have hb : batch perform p 1 h = (.ok (), h) := by
    rw [batch_succ, bind_of_ok hround]
    exact settle_of_tracks perform hT ht
  exact oneStep_of_batch perform hb ht

/-- **A run that has stopped** has done so at one of its steps, and is where this has left it. -/
theorem exists_halt (hT : 0 < T) (ht : h.Tracks x p T start s) (hs : s.Live) {n : Nat}
    (hrun : s.power = .running) (hstop : ((PlainRun.next T)^[n] s).power ≠ .running) :
    ∃ k, 0 < k ∧ k ≤ n ∧ ((PlainRun.next T)^[k] s).power ≠ .running ∧
      (∀ m < k, ((PlainRun.next T)^[m] s).power = .running) ∧
      (oneStep perform p)^[n] h = (oneStep perform p)^[k] h ∧
      (PlainRun.next T)^[n] s = (PlainRun.next T)^[k] s := by
  have hex : ∃ k, ((PlainRun.next T)^[k] s).power ≠ .running := ⟨n, hstop⟩
  obtain ⟨k, hk, hmin⟩ : ∃ k, ((PlainRun.next T)^[k] s).power ≠ .running ∧
      ∀ m < k, ((PlainRun.next T)^[m] s).power = .running :=
    ⟨Nat.find hex, Nat.find_spec hex, fun m hm => Classical.not_not.mp (Nat.find_min hex hm)⟩
  have hle : k ≤ n := by
    by_contra hlt
    exact hstop (hmin n (by omega))
  have hpos : 0 < k := by
    by_contra hzero
    obtain rfl : k = 0 := by omega
    exact hk hrun
  have htracks := (tracks_iterate perform hT ht hs k).1
  refine ⟨k, hpos, hle, hk, hmin, ?_, ?_⟩
  · rw [← Nat.sub_add_cancel hle, Function.iterate_add_apply,
      Function.iterate_fixed (oneStep_of_rests perform hT htracks hk)]
  · rw [← Nat.sub_add_cancel hle, Function.iterate_add_apply,
      Function.iterate_fixed (PlainRun.next_of_rests hk)]

variable [KeepsRequests perform]

theorem inOrder_batch (horder : PacersInOrder h.pacers) (n : Nat) :
    PacersInOrder (batch perform p n h).2.pacers := by
  have hfollows := (h.follows_takeDue p).trans (follows_batch perform p n h)
  exact hfollows.pacers.inOrder horder

/-- **A batch is its single steps**, and none of them is refused. -/
theorem batch_eq_iterate (hT : 0 < T) (n : Nat) {s : PlainRun} {h : Host}
    (ht : h.Tracks x p T start s) (hs : s.Live) (horder : PacersInOrder h.pacers) :
    batch perform p n h = (.ok (), (oneStep perform p)^[n] h) := by
  induction n generalizing s h with
  | zero => exact settle_of_tracks perform hT ht
  | succ n ih =>
    obtain ⟨hone, ht', -⟩ := tracks_oneStep perform hT ht hs
    have hnear : PacersInOrder (h.takeDue p).pacers :=
      (h.follows_takeDue p).pacers.inOrder horder
    have horder' := inOrder_batch perform (p := p) horder 1
    rw [hone] at horder'
    rw [Nat.add_comm, batch_add perform hnear, bind_of_ok hone, Nat.add_comm]
    exact ih ht' hs.next horder'

theorem inOrder_iterate (hT : 0 < T) (ht : h.Tracks x p T start s) (hs : s.Live)
    (horder : PacersInOrder h.pacers) (n : Nat) :
    PacersInOrder ((oneStep perform p)^[n] h).pacers := by
  have hbatch := inOrder_batch perform (p := p) horder n
  rwa [batch_eq_iterate perform hT n ht hs horder] at hbatch

/-- **A batch of steps**, with its report. -/
theorem runSteps_eq_iterate (hT : 0 < T) (ht : h.Tracks x p T start s) (hs : s.Live)
    (horder : PacersInOrder h.pacers) (n : Nat) :
    runSteps perform p n h =
      (.ok ((PlainRun.next T)^[n] s).lastStatus, (oneStep perform p)^[n] h) :=
  runSteps_apply perform (batch_eq_iterate perform hT n ht hs horder)
    (tracks_iterate perform hT ht hs n).1

end HostM

end Chip8
