import Chip8.Pacer
import Chip8.Proofs.Schedule

/-!
# Pacers in order

A pacer is in order if its schedule is ordered and everything on it lies ahead,
if its intervals are positive, and if a stopped pacer without a frame callback
has nothing left to do.  A step that is counted, and a cue for now, may put
something behind the clock; the pacer is in order again when this has been taken
off.

* `Ahead.takeDue_eq_self`: there is nothing to take off a pacer whose schedule
  lies ahead.
* `InOrder.takeDue_countStep`, `InOrder.takeDue_enqueue`: what is left is in
  order after a step and after a cue for now.
-/

namespace Chip8.Pacer

variable {q : Pacer}

/-! ### Nothing is due -/

/-- Everything on the schedule lies ahead of the count. -/
def Ahead (q : Pacer) : Prop :=
  ∀ e ∈ q.schedule.events, (q.count : Int) < e.clock

theorem Ahead.due_eq_nil (h : q.Ahead) : q.due = [] :=
  Schedule.due_eq_nil h

theorem Ahead.takeDue_eq_self (h : q.Ahead) : q.takeDue = q :=
  congrArg (fun schedule => { q with schedule }) (Schedule.rest_eq_self h)

theorem Ahead.due_enqueue (h : q.Ahead) (cue : Cue) :
    (q.enqueue cue 0).due = [⟨q.count + (0 : Nat), q.nextOrder, cue⟩] := by
  have hnow : (q.count : Int) + (0 : Nat) = q.count := Int.add_zero _
  show (q.schedule.insert ⟨q.count + (0 : Nat), q.nextOrder, cue⟩).due q.count = _
  rw [hnow, Schedule.insert_of_ahead (e := ⟨q.count, q.nextOrder, cue⟩) h,
    Schedule.due_cons _ (Int.le_refl _)]
  exact congrArg (List.cons _) (Schedule.due_eq_nil h)

theorem Ahead.takeDue_enqueue (h : q.Ahead) (cue : Cue) :
    (q.enqueue cue 0).takeDue = { q with nextOrder := q.nextOrder + 1 } := by
  have hnow : (q.count : Int) + (0 : Nat) = q.count := Int.add_zero _
  have hrest : (q.schedule.insert ⟨q.count + (0 : Nat), q.nextOrder, cue⟩).rest q.count =
      q.schedule := by
    rw [hnow, Schedule.insert_of_ahead (e := ⟨q.count, q.nextOrder, cue⟩) h,
      Schedule.rest_cons _ (Int.le_refl _)]
    exact Schedule.rest_eq_self h
  exact congrArg (fun schedule => { q with schedule, nextOrder := q.nextOrder + 1 }) hrest

/-! ### Order -/

/-- The schedule lies ahead in order, and a pacer without frame callback that has stopped is
idle. -/
structure InOrder (q : Pacer) : Prop where
  ordered : q.schedule.Ordered
  ahead : q.Ahead
  timer_pos : 0 < q.timerInterval
  frame_pos : 0 < q.frameInterval
  silent : q.frames = none → q.frameActive = false
  idle : q.frames = none → q.power = .stopped → q.schedule = .empty ∧ q.timerActive = false

/-! ### Changes that keep a pacer in order -/

theorem InOrder.enqueue (h : q.InOrder) (cue : Cue) {delay : Nat} (hdelay : 0 < delay)
    (hpower : q.frames = none → q.power ≠ .stopped) : (q.enqueue cue delay).InOrder where
  ordered := h.ordered.insert _
  ahead := by
    intro e he
    rcases Schedule.mem_insert.mp he with rfl | he
    · show (q.count : Int) < q.count + delay
      omega
    · exact h.ahead e he
  timer_pos := h.timer_pos
  frame_pos := h.frame_pos
  silent := h.silent
  idle hf hp := absurd hp (hpower hf)

theorem InOrder.takeDue_enqueue (h : q.InOrder) (cue : Cue) :
    (q.enqueue cue 0).takeDue.InOrder where
  ordered := (h.ordered.insert _).rest _
  ahead _ he := Schedule.clock_lt_of_mem_rest (h.ordered.insert _) he
  timer_pos := h.timer_pos
  frame_pos := h.frame_pos
  silent := h.silent
  idle hf hp := by
    obtain ⟨hempty, hactive⟩ := h.idle hf hp
    refine ⟨?_, hactive⟩
    show (q.schedule.insert _).rest q.count = _
    rw [hempty]
    show Schedule.mk ([_].dropWhile _) = ⟨[]⟩
    rw [List.dropWhile_cons, if_pos (decide_eq_true (by show (q.count : Int) + 0 ≤ q.count; omega))]
    rfl

theorem InOrder.takeDue_countStep (h : q.InOrder) (status : Status) :
    (q.countStep status).takeDue.InOrder where
  ordered := h.ordered.rest _
  ahead _ he := Schedule.clock_lt_of_mem_rest h.ordered he
  timer_pos := h.timer_pos
  frame_pos := h.frame_pos
  silent := h.silent
  idle hf hp := by
    obtain ⟨hempty, hactive⟩ := h.idle hf hp
    refine ⟨?_, hactive⟩
    show q.schedule.rest _ = _
    rw [hempty]
    rfl

theorem InOrder.clear (h : q.InOrder) {power : Power} :
    { q with power, schedule := .empty, timerActive := false, frameActive := false }.InOrder where
  ordered := Schedule.ordered_empty
  ahead _ he := absurd he List.not_mem_nil
  timer_pos := h.timer_pos
  frame_pos := h.frame_pos
  silent _ := rfl
  idle _ _ := ⟨rfl, rfl⟩

theorem InOrder.stopNow (h : q.InOrder) : q.stopNow.InOrder :=
  h.clear

/-- A pacer that stops after a step has nothing left that could lie behind. -/
theorem InOrder.stopNow_countStep (h : q.InOrder) (status : Status) :
    (q.countStep status).stopNow.InOrder :=
  { h.stopNow with ahead := fun _ he => absurd he List.not_mem_nil }

theorem InOrder.setPower (h : q.InOrder) {power : Power} (hp : power ≠ .stopped) :
    { q with power }.InOrder :=
  { h with idle := fun _ hs => absurd hs hp }

theorem InOrder.pauseNow (h : q.InOrder) : q.pauseNow.InOrder := by
  rw [Pacer.pauseNow]
  split
  · exact h.setPower (by decide)
  · exact h

theorem InOrder.startTimers (h : q.InOrder) (hp : q.power ≠ .stopped) : q.startTimers.InOrder := by
  rw [Pacer.startTimers]
  split
  · exact h
  · have hwanted : { q with timerActive := true }.InOrder :=
      { h with idle := fun _ hs => absurd hs hp }
    exact hwanted.enqueue .tickTimers h.timer_pos fun _ => hp

theorem InOrder.startFrames (h : q.InOrder) : q.startFrames.InOrder := by
  rw [Pacer.startFrames]
  split
  · exact h
  · next hno =>
    have hsome : q.frames ≠ none := by
      intro hf
      rw [hf, Option.isNone_none, Bool.or_true] at hno
      exact hno rfl
    have hwanted : { q with frameActive := true }.InOrder :=
      { h with silent := fun hf => absurd hf hsome }
    exact hwanted.enqueue .showFrame h.frame_pos fun hf => absurd hf hsome

theorem InOrder.startPeriodic (h : q.InOrder) : q.startPeriodic.InOrder := by
  rw [Pacer.startPeriodic]
  split
  · next hrun =>
    have hp : q.power ≠ .stopped := by
      rw [hrun]
      decide
    exact (h.startTimers hp).startFrames
  · exact h

theorem InOrder.restartPeriodic (h : q.InOrder) :
    q.stopPeriodic.clearSchedule.startPeriodic.InOrder :=
  h.clear.startPeriodic

/-! ### What a pacer is created with -/

/-- Both pacers are over the same handle and have the same frame callback. -/
structure SameSetup (q q' : Pacer) : Prop where
  handle_eq : q'.handle = q.handle
  frames_eq : q'.frames = q.frames

namespace SameSetup

variable {q' q'' : Pacer}

theorem refl (q : Pacer) : SameSetup q q :=
  ⟨rfl, rfl⟩

theorem trans (h : SameSetup q q') (h' : SameSetup q' q'') : SameSetup q q'' :=
  ⟨h'.handle_eq.trans h.handle_eq, h'.frames_eq.trans h.frames_eq⟩

theorem pauseNow (q : Pacer) : SameSetup q q.pauseNow := by
  rw [Pacer.pauseNow]
  split <;> exact ⟨rfl, rfl⟩

theorem startTimers (q : Pacer) : SameSetup q q.startTimers := by
  rw [Pacer.startTimers]
  split <;> exact ⟨rfl, rfl⟩

theorem startFrames (q : Pacer) : SameSetup q q.startFrames := by
  rw [Pacer.startFrames]
  split <;> exact ⟨rfl, rfl⟩

theorem startPeriodic (q : Pacer) : SameSetup q q.startPeriodic := by
  rw [Pacer.startPeriodic]
  split
  · exact (startTimers q).trans (startFrames q.startTimers)
  · exact .refl q

theorem restartPeriodic (q : Pacer) :
    SameSetup q q.stopPeriodic.clearSchedule.startPeriodic := by
  have hcleared : SameSetup q q.stopPeriodic.clearSchedule := ⟨rfl, rfl⟩
  exact hcleared.trans (startPeriodic _)

end SameSetup

end Chip8.Pacer
