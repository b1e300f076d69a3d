import Chip8.Proofs.Schedule
import Mathlib.Data.List.DropRight

/-!
# Schedules and their history

A call on a schedule adds an event, takes off the events whose clock has come, or throws
everything away.  What a schedule holds can be read off the history of the calls on it:
the events that have been added since everything was thrown away last, without those that
have been returned already.  An event is known by its clock and its number, and no two
events that are added have both in common.  The clocks that are asked for need not ascend.

Events come in any order, so the list of a schedule is a rearrangement of what the history
leaves pending.  There is only one in which each event fires before those behind it.

* `pending_concat_add`, `pending_concat_take`, `pending_concat_clear`: what is pending
  after one more call.
* `Schedule.Records`: a schedule holds what its history leaves pending.
* `Records.concat`: and so does the schedule after one more call.
* `Schedule.returns_what_is_due`: what a schedule returns after every history.
-/

namespace Chip8

inductive ScheduleCall (α : Type)
  | add (e : Event α)
  /-- Takes off the events whose clock has come. -/
  | take (clock : Int)
  | clear

namespace Event

variable {α : Type} {e f : Event α}

/-- What an event is known by. -/
def key (e : Event α) : Int × Int :=
  (e.clock, e.order)

theorem clock_eq_of_key_eq (h : e.key = f.key) : e.clock = f.clock :=
  congrArg Prod.fst h

theorem before_of_not_before (hkey : e.key ≠ f.key) (h : ¬f.before e) : e.before f := by
  have hne : ¬(e.clock = f.clock ∧ e.order = f.order) := by
    rintro ⟨hclock, horder⟩
    exact hkey (Prod.ext hclock horder)
  rw [before_iff] at h ⊢
  omega

end Event

namespace ScheduleCall

variable {α : Type}

/-! ### What calls do -/

/-- The events that a schedule returns to a call, and the schedule after it. -/
def respond (s : Schedule α) : ScheduleCall α → List (Event α) × Schedule α
  | add e => ([], s.insert e)
  | take clock => (s.due clock, s.rest clock)
  | clear => ([], .empty)

def after (s : Schedule α) (call : ScheduleCall α) : Schedule α :=
  (call.respond s).2

def afterAll (t : List (ScheduleCall α)) : Schedule α :=
  t.foldl after .empty

/-- All that a schedule returns to calls, in the order of the calls. -/
def returnedFrom (s : Schedule α) : List (ScheduleCall α) → List (Event α)
  | [] => []
  | call :: t => (call.respond s).1 ++ returnedFrom (call.after s) t

/-- All that has been returned in a history of calls on an empty schedule. -/
def returned (t : List (ScheduleCall α)) : List (Event α) :=
  returnedFrom .empty t

/-! ### What histories leave pending -/

def added? : ScheduleCall α → Option (Event α)
  | add e => some e
  | take _ | clear => none

def isClear : ScheduleCall α → Bool
  | clear => true
  | add _ | take _ => false

def added (t : List (ScheduleCall α)) : List (Event α) :=
  t.filterMap added?

/-- The events that have been added since everything was thrown away last. -/
def addedSinceClear (t : List (ScheduleCall α)) : List (Event α) :=
  added (t.rtakeWhile fun call => !call.isClear)

/-- The events of these that have not been returned. -/
def pending (t : List (ScheduleCall α)) : List (Event α) :=
  (addedSinceClear t).filter fun e => e.key ∉ (returned t).map Event.key

/-- No two events that are added have clock and number in common. -/
def Distinct (t : List (ScheduleCall α)) : Prop :=
  ((added t).map Event.key).Nodup

instance (t : List (ScheduleCall α)) : Decidable (Distinct t) :=
  inferInstanceAs (Decidable (List.Nodup _))

variable {t : List (ScheduleCall α)} {x : ScheduleCall α} {e : Event α} {clock : Int}

theorem afterAll_concat (t : List (ScheduleCall α)) (x : ScheduleCall α) :
    afterAll (t ++ [x]) = x.after (afterAll t) :=
  List.foldl_concat ..

theorem returnedFrom_append (s : Schedule α) (t u : List (ScheduleCall α)) :
    returnedFrom s (t ++ u) = returnedFrom s t ++ returnedFrom (t.foldl after s) u := by
  induction t generalizing s with
  | nil => rfl
  | cons x t ih =>
    rw [List.cons_append, returnedFrom, ih, returnedFrom, List.append_assoc]
    rfl

theorem returned_concat (t : List (ScheduleCall α)) (x : ScheduleCall α) :
    returned (t ++ [x]) = returned t ++ (x.respond (afterAll t)).1 := by
  rw [returned, returnedFrom_append]
  exact congrArg (returned t ++ ·) (List.append_nil _)

theorem added_concat (t : List (ScheduleCall α)) (x : ScheduleCall α) :
    added (t ++ [x]) = added t ++ x.added?.toList := by
  rw [added, List.filterMap_append]
  cases hx : x.added? <;> simp [added, hx]

theorem addedSinceClear_concat (hx : x.isClear = false) :
    addedSinceClear (t ++ [x]) = addedSinceClear t ++ x.added?.toList := by
  rw [addedSinceClear, List.rtakeWhile_concat_pos _ _ _ (by simp [hx]), added_concat]
  rfl

theorem addedSinceClear_concat_clear : addedSinceClear (t ++ [clear]) = [] := by
  rw [addedSinceClear, List.rtakeWhile_concat_neg _ _ _ (by simp [isClear])]
  rfl

theorem addedSinceClear_sublist (t : List (ScheduleCall α)) :
    (addedSinceClear t).Sublist (added t) :=
  List.Sublist.filterMap _ (List.rtakeWhile_suffix _ _).sublist

theorem pending_sublist (t : List (ScheduleCall α)) : (pending t).Sublist (added t) :=
  List.filter_sublist.trans (addedSinceClear_sublist t)

theorem Distinct.of_concat (h : Distinct (t ++ [x])) : Distinct t := by
  rw [Distinct, added_concat, List.map_append] at h
  exact (List.nodup_append.mp h).1

theorem Distinct.pending (h : Distinct t) : ((pending t).map Event.key).Nodup :=
  List.Nodup.sublist ((pending_sublist t).map _) h

theorem Distinct.key_not_mem (h : Distinct (t ++ [add e])) : e.key ∉ (added t).map Event.key := by
  rw [Distinct, added_concat, List.map_append] at h
  intro hmem
  exact (List.nodup_append.mp h).2.2 _ hmem _ List.mem_cons_self rfl

/-! ### What is pending after one more call -/

theorem pending_concat_add (h : Distinct (t ++ [add e]))
    (hreturned : ∀ f ∈ returned t, f ∈ added t) :
    pending (t ++ [add e]) = pending t ++ [e] := by
  have hnew : e.key ∉ (returned t).map Event.key := by
    intro hmem
    obtain ⟨f, hf, hkey⟩ := List.mem_map.mp hmem
    exact h.key_not_mem (List.mem_map.mpr ⟨f, hreturned f hf, hkey⟩)
  have hreturns : returned (t ++ [add e]) = returned t := by
    rw [returned_concat]
    exact List.append_nil _
  rw [pending, addedSinceClear_concat rfl, hreturns, List.filter_append]
  exact congrArg (pending t ++ ·) (List.filter_cons_of_pos (by simpa using hnew))

theorem pending_concat_take :
    pending (t ++ [take clock]) =
      (pending t).filter fun e => e.key ∉ ((afterAll t).due clock).map Event.key := by
  have hadded : addedSinceClear (t ++ [take clock]) = addedSinceClear t := by
    rw [addedSinceClear_concat rfl]
    exact List.append_nil _
  rw [pending, hadded, returned_concat, pending, List.filter_filter]
  apply List.filter_congr
  intro e _
  simp only [List.map_append, List.mem_append, not_or, Bool.decide_and]
  exact Bool.and_comm _ _

theorem pending_concat_clear : pending (t ++ [clear]) = [] := by
  rw [pending, addedSinceClear_concat_clear]
  rfl

end ScheduleCall

namespace Schedule

open ScheduleCall

variable {α : Type} {s : Schedule α} {t : List (ScheduleCall α)} {x : ScheduleCall α} {e : Event α}
  {clock : Int}

/-! ### Ordered schedules -/

theorem clock_le_of_mem_due (he : e ∈ s.due clock) : e.clock ≤ clock := by
  simpa using List.mem_takeWhile_imp he

theorem Ordered.due_eq_filter (h : s.Ordered) (clock : Int) :
    s.due clock = s.events.filter fun e => e.clock ≤ clock := by
  have hdue : (s.due clock).filter (fun e => e.clock ≤ clock) = s.due clock :=
    List.filter_eq_self.mpr fun e he => decide_eq_true (clock_le_of_mem_due he)
  have hrest : (s.rest clock).events.filter (fun e => e.clock ≤ clock) = [] := by
    apply List.filter_eq_nil_iff.mpr
    intro e he hle
    have hlt := clock_lt_of_mem_rest h he
    have hle := of_decide_eq_true hle
    omega
  rw [← s.due_append_rest clock, List.filter_append, hdue, hrest, List.append_nil]

theorem Ordered.rest_eq_filter (h : s.Ordered) (clock : Int) :
    (s.rest clock).events = s.events.filter fun e => clock < e.clock := by
  have hdue : (s.due clock).filter (fun e => clock < e.clock) = [] := by
    apply List.filter_eq_nil_iff.mpr
    intro e he hlt
    have hle := clock_le_of_mem_due he
    have hlt := of_decide_eq_true hlt
    omega
  have hrest : (s.rest clock).events.filter (fun e => clock < e.clock) = (s.rest clock).events :=
    List.filter_eq_self.mpr fun e he => decide_eq_true (clock_lt_of_mem_rest h he)
  rw [← s.due_append_rest clock, List.filter_append, hdue, hrest, List.nil_append]

/-- If no two events have clock and number in common, each one fires before those behind it. -/
theorem Ordered.pairwise_before (h : s.Ordered) (hkeys : (s.events.map Event.key).Nodup) :
    s.events.Pairwise fun e f => e.before f :=
  (List.pairwise_map.mp hkeys).imp₂ (fun _ _ hkey hle => Event.before_of_not_before hkey hle) h

/-! ### Schedules and what is pending -/

/-- The schedule holds what the history leaves pending, and all that the history has returned
had been added. -/
structure Records (s : Schedule α) (t : List (ScheduleCall α)) : Prop where
  ordered : s.Ordered
  perm : s.events.Perm (pending t)
  returned_added : ∀ e ∈ returned t, e ∈ added t
  returned_once : ((returned t).map Event.key).Nodup

theorem records_empty : (empty : Schedule α).Records [] where
  ordered := ordered_empty
  perm := .refl _
  returned_added _ he := by cases he
  returned_once := .nil

namespace Records

theorem due_perm (h : s.Records t) (clock : Int) :
    (s.due clock).Perm ((pending t).filter fun e => e.clock ≤ clock) := by
  rw [h.ordered.due_eq_filter]
  exact h.perm.filter _

theorem rest_perm (h : s.Records t) (clock : Int) :
    (s.rest clock).events.Perm ((pending t).filter fun e => clock < e.clock) := by
  rw [h.ordered.rest_eq_filter]
  exact h.perm.filter _

theorem pairwise_before (h : s.Records t) (ht : Distinct t) :
    s.events.Pairwise fun e f => e.before f := by
  apply h.ordered.pairwise_before
  exact ((h.perm.map Event.key).nodup_iff).mpr ht.pending

theorem pending_take (h : (afterAll t).Records t) (clock : Int) :
    pending (t ++ [take clock]) = (pending t).filter fun e => clock < e.clock := by
  rw [pending_concat_take]
  apply List.filter_congr
  intro e he
  apply decide_eq_decide.mpr
  constructor
  · intro hnew
    by_contra hle
    have hdue : e ∈ (afterAll t).due clock := by
      rw [(h.due_perm clock).mem_iff]
      exact List.mem_filter.mpr ⟨he, decide_eq_true (Int.not_lt.mp hle)⟩
    exact hnew (List.mem_map_of_mem hdue)
  · intro hlt hmem
    -- the key of an event that is due has a clock that has come, whichever event it is
    obtain ⟨f, hf, hkey⟩ := List.mem_map.mp hmem
    have hle := clock_le_of_mem_due hf
    have hclock := Event.clock_eq_of_key_eq hkey
    omega

/-! ### One more call -/

theorem perm_add (h : (afterAll t).Records t) (ht : Distinct (t ++ [add e])) :
    ((afterAll t).insert e).events.Perm (pending (t ++ [add e])) := by
  rw [pending_concat_add ht h.returned_added]
  have hinsert := insert_perm (afterAll t) e
  exact (hinsert.trans (h.perm.cons e)).trans (List.perm_append_singleton e _).symm

theorem perm_take (h : (afterAll t).Records t) (clock : Int) :
    ((afterAll t).rest clock).events.Perm (pending (t ++ [take clock])) := by
  rw [h.pending_take]
  exact h.rest_perm clock

theorem mem_pending_of_mem_respond (h : (afterAll t).Records t)
    (he : e ∈ (x.respond (afterAll t)).1) : e ∈ pending t := by
  cases x with
  | add f => cases he
  | take clock => exact (List.mem_filter.mp ((h.due_perm clock).mem_iff.mp he)).1
  | clear => cases he

theorem nodup_respond (h : (afterAll t).Records t) (ht : Distinct t) :
    ((x.respond (afterAll t)).1.map Event.key).Nodup := by
  cases x with
  | add f => exact .nil
  | take clock =>
    apply ((h.due_perm clock).map Event.key).nodup_iff.mpr
    exact ht.pending.sublist (List.filter_sublist.map _)
  | clear => exact .nil

theorem concat (h : (afterAll t).Records t) (ht : Distinct (t ++ [x])) :
    (afterAll (t ++ [x])).Records (t ++ [x]) where
  ordered := by
    rw [afterAll_concat]
    cases x with
    | add e => exact h.ordered.insert e
    | take clock => exact h.ordered.rest clock
    | clear => exact ordered_empty
  perm := by
    rw [afterAll_concat]
    cases x with
    | add e => exact h.perm_add ht
    | take clock => exact h.perm_take clock
    | clear =>
      rw [pending_concat_clear]
      exact .refl _
  returned_added := by
    intro e he
    rw [returned_concat] at he
    rw [added_concat]
    apply List.mem_append_left
    rcases List.mem_append.mp he with he | he
    · exact h.returned_added e he
    · exact (pending_sublist t).subset (h.mem_pending_of_mem_respond he)
  returned_once := by
    rw [returned_concat, List.map_append, List.nodup_append]
    refine ⟨h.returned_once, h.nodup_respond ht.of_concat, ?_⟩
    rintro k hk _ hnew rfl
    obtain ⟨e, he, rfl⟩ := List.mem_map.mp hnew
    have hpending := h.mem_pending_of_mem_respond he
    exact of_decide_eq_true (List.mem_filter.mp hpending).2 hk

end Records

/-- **A schedule records its history.** -/
theorem records_afterAll (t : List (ScheduleCall α)) (ht : Distinct t) :
    (afterAll t).Records t := by
  -- a call meets the schedule that the calls before it have left
  induction t using List.reverseRecOn with
  | nil => exact records_empty
  | append_singleton t x ih => exact (ih ht.of_concat).concat ht

/-- **A schedule returns what is due.**  After any history of calls that adds no two events with
clock and number in common, it holds as many events as are pending, a call with any clock is
answered with the pending events whose clock has come, each in front of those that it fires before,
and the others stay pending and are what the schedule then holds. -/
theorem returns_what_is_due {t : List (ScheduleCall α)} (ht : Distinct t) :
    (afterAll t).size = (pending t).length ∧
      ((returned t).map Event.key).Nodup ∧
      ∀ clock : Int,
        let answer := ((take clock).respond (afterAll t)).1
        let left := afterAll (t ++ [take clock])
        answer.Perm ((pending t).filter fun e => e.clock ≤ clock) ∧
          (answer.Pairwise fun e f => e.before f) ∧
          left.events.Perm ((pending t).filter fun e => clock < e.clock) ∧
          pending (t ++ [take clock]) = (pending t).filter fun e => clock < e.clock := by
  have h : (afterAll t).Records t := records_afterAll t ht
  refine ⟨h.perm.length_eq, h.returned_once, fun clock => ⟨h.due_perm clock, ?_, ?_, ?_⟩⟩
  · exact (h.pairwise_before ht).sublist (List.takeWhile_sublist _)
  · rw [afterAll_concat]
    exact h.rest_perm clock
  · exact h.pending_take clock

/-- Two events of one clock are added in the wrong order, and one is returned between them. -/
def drainedHistory : List (ScheduleCall String) :=
  [.add ⟨9, 0, "lost"⟩, .clear, .add ⟨4, 7, "late"⟩, .add ⟨2, 3, "first"⟩, .take 3, .take 1,
    .add ⟨4, 5, "early"⟩, .add ⟨6, 6, "far"⟩]

/-- Of three events two are due, in the order of their numbers. -/
theorem returns_what_is_due_of_drained :
    Distinct drainedHistory ∧
      pending drainedHistory = [⟨4, 7, "late"⟩, ⟨4, 5, "early"⟩, ⟨6, 6, "far"⟩] ∧
      (afterAll drainedHistory).size = 3 ∧
      ((take 4).respond (afterAll drainedHistory)).1 = [⟨4, 5, "early"⟩, ⟨4, 7, "late"⟩] ∧
      pending (drainedHistory ++ [take 4]) = [⟨6, 6, "far"⟩] := by
  have hdistinct : Distinct drainedHistory := by decide
  obtain ⟨hsize, -, hdue⟩ := returns_what_is_due hdistinct
  obtain ⟨-, -, -, hleft⟩ := hdue 4
  have hpending : pending drainedHistory = [⟨4, 7, "late"⟩, ⟨4, 5, "early"⟩, ⟨6, 6, "far"⟩] := by
    decide
  rw [hpending] at hsize hleft
  exact ⟨hdistinct, hpending, hsize, by decide, hleft⟩

end Schedule

end Chip8
