import Chip8.Schedule

/-!
# The order of a schedule

The events of a schedule stand in the order in which they fire, and an insertion
keeps it so.  What is due then stands in front, and all that stays lies ahead of
the clock.

* `Ordered.insert`, `Ordered.rest`: both operations keep the order.
* `clock_lt_of_mem_rest`: what stays has not come yet.
-/

namespace Chip8

namespace Event

variable {α : Type} {e f g : Event α}

theorem before_iff :
    e.before f = true ↔ e.clock < f.clock ∨ e.clock = f.clock ∧ e.order < f.order := by
  simp [before]

theorem before_trans (hef : e.before f) (hfg : f.before g) : e.before g := by
  rw [before_iff] at hef hfg ⊢
  omega

theorem not_before_of_before (h : e.before f) : ¬f.before e := by
  rw [before_iff] at h ⊢
  omega

theorem clock_le_of_not_before (h : ¬f.before e) : e.clock ≤ f.clock := by
  rw [before_iff] at h
  omega

end Event

namespace Schedule

variable {α : Type} {s : Schedule α} {e f : Event α} {clock : Int}

/-- No event fires before one that stands in front of it. -/
def Ordered (s : Schedule α) : Prop :=
  s.events.Pairwise fun e f => ¬f.before e

theorem ordered_empty : (empty : Schedule α).Ordered :=
  List.Pairwise.nil

theorem mem_insertEvent {l : List (Event α)} : f ∈ insertEvent e l ↔ f = e ∨ f ∈ l := by
  rw [(insertEvent_perm e l).mem_iff, List.mem_cons]

theorem mem_insert : f ∈ (s.insert e).events ↔ f = e ∨ f ∈ s.events :=
  mem_insertEvent

theorem pairwise_insertEvent {l : List (Event α)} (h : l.Pairwise fun e f => ¬f.before e) :
    (insertEvent e l).Pairwise fun e f => ¬f.before e := by
  induction l with
  | nil => exact List.pairwise_singleton _ _
  | cons f r ih =>
    obtain ⟨hf, hr⟩ := List.pairwise_cons.mp h
    rw [insertEvent]
    by_cases hef : e.before f
    · rw [if_pos hef]
      refine List.pairwise_cons.mpr ⟨fun g hg hge => ?_, h⟩
      rcases List.mem_cons.mp hg with rfl | hg
      · exact Event.not_before_of_before hef hge
      · exact hf g hg (Event.before_trans hge hef)
    · rw [if_neg hef]
      refine List.pairwise_cons.mpr ⟨fun g hg => ?_, ih hr⟩
      rcases mem_insertEvent.mp hg with rfl | hg
      · exact hef
      · exact hf g hg

theorem Ordered.insert (h : s.Ordered) (e : Event α) : (s.insert e).Ordered :=
  pairwise_insertEvent h

theorem Ordered.rest (h : s.Ordered) (clock : Int) : (s.rest clock).Ordered :=
  List.Pairwise.sublist (List.dropWhile_sublist _) h

theorem clock_lt_of_mem_dropWhile {l : List (Event α)} (h : l.Pairwise fun e f => ¬f.before e)
    (he : e ∈ l.dropWhile fun e => e.clock ≤ clock) : clock < e.clock := by
  induction l with
  | nil => cases he
  | cons f r ih =>
    obtain ⟨hf, hr⟩ := List.pairwise_cons.mp h
    rw [List.dropWhile_cons] at he
    by_cases hc : f.clock ≤ clock
    · rw [if_pos (decide_eq_true hc)] at he
      exact ih hr he
    · rw [if_neg (by rwa [decide_eq_true_eq])] at he
      rcases List.mem_cons.mp he with rfl | he
      · omega
      · have hle : f.clock ≤ e.clock := Event.clock_le_of_not_before (hf e he)
        omega

theorem clock_lt_of_mem_rest (h : s.Ordered) (he : e ∈ (s.rest clock).events) :
    clock < e.clock :=
  clock_lt_of_mem_dropWhile h he

theorem due_eq_nil (h : ∀ e ∈ s.events, clock < e.clock) : s.due clock = [] := by
  obtain ⟨events⟩ := s
  cases events with
  | nil => rfl
  | cons f r =>
    have hf : ¬f.clock ≤ clock := by
      have := h f List.mem_cons_self
      omega
    rw [due, List.takeWhile_cons, if_neg (by rwa [decide_eq_true_eq])]

theorem rest_eq_self (h : ∀ e ∈ s.events, clock < e.clock) : s.rest clock = s := by
  have hevents := s.due_append_rest clock
  rw [due_eq_nil h, List.nil_append] at hevents
  exact congrArg Schedule.mk hevents

theorem insert_of_ahead (h : ∀ f ∈ s.events, e.clock < f.clock) : s.insert e = ⟨e :: s.events⟩ := by
  obtain ⟨events⟩ := s
  cases events with
  | nil => rfl
  | cons f r =>
    have hbefore : e.before f = true := Event.before_iff.mpr (.inl (h f List.mem_cons_self))
    rw [insert, insertEvent, if_pos hbefore]

theorem due_cons (events : List (Event α)) (he : e.clock ≤ clock) :
    due ⟨e :: events⟩ clock = e :: due ⟨events⟩ clock :=
  List.takeWhile_cons_of_pos (decide_eq_true he)

theorem rest_cons (events : List (Event α)) (he : e.clock ≤ clock) :
    rest ⟨e :: events⟩ clock = rest ⟨events⟩ clock :=
  congrArg Schedule.mk (List.dropWhile_cons_of_pos (decide_eq_true he))

end Schedule

end Chip8
