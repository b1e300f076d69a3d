import Chip8.Pacer

/-!
# Plans of pacers

Each regular cue of a pacer, the tick of the timers and the showing of the
display, is meant to be planned once.  While the cues of a batch happen those
that have not happened yet are on no schedule any more, but they will come back.
`Planned` takes them into account: a regular cue that is wanted waits at most
once, on the schedule or in the rest of the batch, and one that is not wanted is
not on the schedule.

* `Planned.takeDue`: cues are taken off the schedule into a batch.
* `Planned.comeBack`: a regular cue of the batch is put on the schedule again.
* `Planned.startPeriodic`, `Planned.restartPeriodic`: what powering on and a change
  of the rate plan.
-/

namespace Chip8

namespace Event

/-- How often a cue is among events. -/
def occurrences (cue : Cue) (events : List (Event Cue)) : Nat :=
  events.countP fun e => e.item = cue

variable {cue : Cue}

@[simp] theorem occurrences_nil : occurrences cue [] = 0 := rfl

theorem occurrences_cons (e : Event Cue) (events : List (Event Cue)) :
    occurrences cue (e :: events) = occurrences cue events + if e.item = cue then 1 else 0 := by
  rw [occurrences, List.countP_cons, occurrences]
  by_cases he : e.item = cue
  · rw [if_pos he, if_pos (decide_eq_true he)]
  · rw [if_neg he, if_neg (by rw [decide_eq_false he]; decide)]

theorem occurrences_append (l₁ l₂ : List (Event Cue)) :
    occurrences cue (l₁ ++ l₂) = occurrences cue l₁ + occurrences cue l₂ :=
  List.countP_append

theorem occurrences_insert (s : Schedule Cue) (e : Event Cue) :
    occurrences cue (s.insert e).events =
      occurrences cue s.events + if e.item = cue then 1 else 0 := by
  rw [← occurrences_cons]
  exact (s.insert_perm e).countP_eq _

end Event

namespace Pacer

open Event (occurrences occurrences_nil occurrences_cons occurrences_append occurrences_insert)

/-- How often a cue is on the schedule. -/
def pending (q : Pacer) (cue : Cue) : Nat :=
  occurrences cue q.schedule.events

theorem occurrences_due (q : Pacer) (cue : Cue) :
    q.pending cue = occurrences cue q.due + q.takeDue.pending cue := by
  show occurrences cue q.schedule.events =
    occurrences cue (q.schedule.due q.count) + occurrences cue (q.schedule.rest q.count).events
  rw [← occurrences_append, Schedule.due_append_rest]

theorem pending_enqueue (q : Pacer) (cue cue' : Cue) (delay : Nat) :
    (q.enqueue cue delay).pending cue' = q.pending cue' + if cue = cue' then 1 else 0 :=
  occurrences_insert _ _

/-- Whether a cue is wanted again and again. -/
def wants (q : Pacer) : Cue → Bool
  | .tickTimers => q.timerActive
  | .showFrame => q.frameActive
  | _ => false

def IsRegular (cue : Cue) : Prop :=
  cue = .tickTimers ∨ cue = .showFrame

theorem isRegular_of_wants {q : Pacer} {cue : Cue} (hw : q.wants cue = true) : IsRegular cue := by
  cases cue with
  | tickTimers => exact .inl rfl
  | showFrame => exact .inr rfl
  | powerOff | pause | resume => cases hw

/-- With the rest of a batch that is happening: only regular cues are on the schedule, one that is
wanted waits at most once, one that is not wanted is not on the schedule, the showing is wanted only
together with the ticks, and a pacer that has stopped plans nothing. -/
structure Planned (q : Pacer) (batch : List (Event Cue)) : Prop where
  regular : ∀ e ∈ q.schedule.events, IsRegular e.item
  once : ∀ cue, IsRegular cue → q.wants cue = true →
    q.pending cue + occurrences cue batch ≤ 1
  none_unwanted : ∀ cue, IsRegular cue → q.wants cue = false → q.pending cue = 0
  paired : q.frameActive = true → q.timerActive = true
  idle : q.power = .stopped →
    q.schedule = .empty ∧ q.timerActive = false ∧ q.frameActive = false

theorem timerActive_startTimers (q : Pacer) : q.startTimers.timerActive = true := by
  rw [startTimers]
  split
  · next hactive => exact hactive
  · rfl

namespace Planned

variable {q : Pacer} {batch : List (Event Cue)}

/-- Outside a batch every regular cue is planned at most once. -/
theorem pending_le_one (h : q.Planned batch) {cue : Cue} (hcue : IsRegular cue) :
    q.pending cue ≤ 1 := by
  cases hw : q.wants cue with
  | false =>
    have hnone := h.none_unwanted cue hcue hw
    omega
  | true =>
    have honce := h.once cue hcue hw
    omega

theorem of_occurrences_le {batch' : List (Event Cue)} (h : q.Planned batch)
    (hle : ∀ cue, occurrences cue batch' ≤ occurrences cue batch) : q.Planned batch' :=
  { h with
    once := fun cue hcue hw => by
      have honce := h.once cue hcue hw
      have hle := hle cue
      omega }

theorem tail {e : Event Cue} (h : q.Planned (e :: batch)) : q.Planned batch :=
  h.of_occurrences_le fun cue => by
    rw [occurrences_cons]
    omega

theorem cons {e : Event Cue} (h : q.Planned batch) (he : ¬IsRegular e.item) :
    q.Planned (e :: batch) :=
  { h with
    once := fun cue hcue hw => by
      have hne : e.item ≠ cue := by
        rintro rfl
        exact he hcue
      have honce := h.once cue hcue hw
      rw [occurrences_cons, if_neg hne]
      exact honce }

theorem drop (h : q.Planned batch) : q.Planned [] :=
  h.of_occurrences_le fun cue => by
    rw [occurrences_nil]
    omega

theorem takeDue (h : q.Planned []) : q.takeDue.Planned q.due where
  regular e he := h.regular e ((List.dropWhile_sublist _).subset he)
  once cue hcue hw := by
    have honce := h.once cue hcue hw
    have hparts := q.occurrences_due cue
    show q.takeDue.pending cue + occurrences cue q.due ≤ 1
    omega
  none_unwanted cue hcue hw := by
    have hnone := h.none_unwanted cue hcue hw
    have hparts := q.occurrences_due cue
    show q.takeDue.pending cue = 0
    omega
  paired := h.paired
  idle hp := by
    obtain ⟨hempty, hflags⟩ := h.idle hp
    refine ⟨?_, hflags⟩
    show q.schedule.rest q.count = .empty
    rw [hempty]
    rfl

theorem comeBack {e : Event Cue} (h : q.Planned (e :: batch)) (hw : q.wants e.item = true)
    (hp : q.power ≠ .stopped) (delay : Nat) : (q.enqueue e.item delay).Planned batch where
  regular f hf := by
    rcases List.mem_cons.mp ((q.schedule.insert_perm _).mem_iff.mp hf) with rfl | hf
    · exact isRegular_of_wants hw
    · exact h.regular f hf
  once cue hcue hw' := by
    have honce := h.once cue hcue hw'
    rw [occurrences_cons] at honce
    rw [pending_enqueue]
    omega
  none_unwanted cue hcue hw' := by
    have hne : e.item ≠ cue := by
      rintro rfl
      have hsame : (q.enqueue e.item delay).wants e.item = q.wants e.item := by
        cases e.item <;> rfl
      rw [hsame, hw] at hw'
      cases hw'
    have hnone := h.none_unwanted cue hcue (by cases cue <;> exact hw')
    rw [pending_enqueue, if_neg hne]
    exact hnone
  paired := h.paired
  idle hp' := absurd hp' hp

/-! ### Control -/

theorem of_idle (hschedule : q.schedule = .empty) (htimers : q.timerActive = false)
    (hframes : q.frameActive = false) (batch : List (Event Cue)) : q.Planned batch where
  regular := by
    rw [hschedule]
    exact fun _ he => absurd he List.not_mem_nil
  once cue _ hw := by
    cases cue with
    | tickTimers => cases htimers.symm.trans hw
    | showFrame => cases hframes.symm.trans hw
    | powerOff | pause | resume => cases hw
  none_unwanted cue _ _ := by
    rw [pending, hschedule]
    rfl
  paired hw := by cases hframes.symm.trans hw
  idle _ := ⟨hschedule, htimers, hframes⟩

theorem stopNow (q : Pacer) (batch : List (Event Cue)) : q.stopNow.Planned batch :=
  of_idle rfl rfl rfl batch

/-- The schedule does not ask whether the pacer runs or pauses. -/
theorem setPower (h : q.Planned batch) {power : Power} (hp : power ≠ .stopped) :
    { q with power }.Planned batch where
  regular := h.regular
  once cue hcue hw := h.once cue hcue (by cases cue <;> exact hw)
  none_unwanted cue hcue hw := h.none_unwanted cue hcue (by cases cue <;> exact hw)
  paired := h.paired
  idle hp' := absurd hp' hp

theorem pauseNow (h : q.Planned batch) : q.pauseNow.Planned batch := by
  rw [Pacer.pauseNow]
  split
  · exact h.setPower (by decide)
  · exact h

/-- A regular cue that is wanted from now on is planned as if it came back from a batch of its
own. -/
theorem want {q' : Pacer} {cue : Cue} (h : q.Planned []) (hw : q.wants cue = false)
    (hregular : IsRegular cue) (hothers : ∀ cue', cue' ≠ cue → q'.wants cue' = q.wants cue')
    (hpaired : q'.frameActive = true → q'.timerActive = true)
    (hschedule : q'.schedule = q.schedule) (hp : q'.power ≠ .stopped) :
    q'.Planned [⟨0, 0, cue⟩] := by
  have hpending (cue' : Cue) : q'.pending cue' = q.pending cue' := by
    rw [pending, hschedule, pending]
  have hnone := h.none_unwanted cue hregular hw
  refine ⟨?_, fun cue' hcue' hw' => ?_, fun cue' hcue' hw' => ?_, hpaired,
    fun hp' => absurd hp' hp⟩
  · rw [hschedule]
    exact h.regular
  · rw [hpending, occurrences_cons, occurrences_nil]
    by_cases hcue : cue' = cue
    · subst hcue
      rw [if_pos rfl]
      omega
    · rw [if_neg (Ne.symm hcue)]
      exact h.once cue' hcue' ((hothers cue' hcue).symm.trans hw')
  · rw [hpending]
    by_cases hcue : cue' = cue
    · rw [hcue, hnone]
    · exact h.none_unwanted cue' hcue' ((hothers cue' hcue).symm.trans hw')

theorem startTimers (h : q.Planned []) (hp : q.power ≠ .stopped) : q.startTimers.Planned [] := by
  rw [Pacer.startTimers]
  cases hactive : q.timerActive with
  | true => exact h
  | false =>
    have hothers (cue : Cue) (hcue : cue ≠ .tickTimers) :
        { q with timerActive := true }.wants cue = q.wants cue := by
      cases cue with
      | tickTimers => exact absurd rfl hcue
      | _ => rfl
    have hwanted : { q with timerActive := true }.Planned [⟨0, 0, .tickTimers⟩] :=
      h.want hactive (.inl rfl) hothers (fun _ => rfl) rfl hp
    exact hwanted.comeBack rfl hp q.timerInterval

theorem startFrames (h : q.Planned []) (hp : q.power ≠ .stopped)
    (htimers : q.timerActive = true) : q.startFrames.Planned [] := by
  rw [Pacer.startFrames]
  cases hactive : q.frameActive with
  | true => exact h
  | false =>
    split
    · exact h
    · have hothers (cue : Cue) (hcue : cue ≠ .showFrame) :
          { q with frameActive := true }.wants cue = q.wants cue := by
        cases cue with
        | showFrame => exact absurd rfl hcue
        | _ => rfl
      have hwanted : { q with frameActive := true }.Planned [⟨0, 0, .showFrame⟩] :=
        h.want hactive (.inr rfl) hothers (fun _ => htimers) rfl hp
      exact hwanted.comeBack rfl hp q.frameInterval

theorem startPeriodic (h : q.Planned []) : q.startPeriodic.Planned [] := by
  rw [Pacer.startPeriodic]
  split
  · next hrun =>
    have hp : q.power ≠ .stopped := by
      rw [hrun]
      decide
    have hp' : q.startTimers.power ≠ .stopped := by
      rw [Pacer.startTimers]
      split <;> exact hp
    exact (h.startTimers hp).startFrames hp' q.timerActive_startTimers
  · exact h

theorem restartPeriodic (q : Pacer) : q.stopPeriodic.clearSchedule.startPeriodic.Planned [] :=
  startPeriodic (of_idle rfl rfl rfl [])

end Planned

end Pacer

end Chip8
