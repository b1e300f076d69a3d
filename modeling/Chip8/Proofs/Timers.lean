import Chip8.Timers

/-!
# The timers and their history

What happens to the timers is a list of events: ticks, and loads of one of the two
with a value.  A timer shows the value with which it has been loaded last, less the
ticks since then, and zero when these are more.  The induction is on the history, and
each event adds to what the timers record.

* `lastLoaded_concat`, `ticksSince_concat_of_load`, `ticksSince_concat_of_none`: a
  history that has become longer by one event.
* `Timers.Records`: the timers show what the history leaves in them.
* `Records.tick`, `Records.set`: a tick and a load.
-/

namespace Chip8

inductive Timer
  | delay
  | sound
  deriving DecidableEq

inductive TimerEvent
  | tick
  /-- A timer is set to a value. -/
  | load (timer : Timer) (value : Int)
  deriving DecidableEq

namespace TimerEvent

/-- The value to which an event sets a timer, if it sets this one. -/
def loaded? (timer : Timer) : TimerEvent → Option Int
  | tick => none
  | load other value => if other = timer then some value else none

/-- The value to which a timer has been set last, and zero if it never has. -/
def lastLoaded (timer : Timer) (t : List TimerEvent) : Int :=
  (t.filterMap (loaded? timer)).getLast?.getD 0

/-- The ticks since a timer has been set last, or since the beginning. -/
def ticksSince (timer : Timer) (t : List TimerEvent) : Nat :=
  (t.reverse.takeWhile fun x => (loaded? timer x).isNone).count tick

variable {timer : Timer} {t : List TimerEvent} {x : TimerEvent} {value : Int}

theorem lastLoaded_concat (timer : Timer) (t : List TimerEvent) (x : TimerEvent) :
    lastLoaded timer (t ++ [x]) = (loaded? timer x).getD (lastLoaded timer t) := by
  simp only [lastLoaded, List.filterMap_append]
  cases hx : loaded? timer x with
  | none => simp [List.filterMap_cons_none hx]
  | some value => simp [List.filterMap_cons_some hx]

theorem ticksSince_concat_of_load (hx : loaded? timer x = some value) :
    ticksSince timer (t ++ [x]) = 0 := by
  simp [ticksSince, hx]

theorem ticksSince_concat_of_none (hx : loaded? timer x = none) :
    ticksSince timer (t ++ [x]) = ticksSince timer t + [x].count tick := by
  simp only [ticksSince, List.reverse_append, List.reverse_singleton, List.singleton_append]
  rw [List.takeWhile_cons_of_pos (by simp [hx]), List.count_cons, List.count_singleton]

end TimerEvent

namespace Timers

open TimerEvent

variable {ts : Timers} {t : List TimerEvent}

/-- What a timer shows. -/
def value (ts : Timers) : Timer → UInt8
  | .delay => ts.delay
  | .sound => ts.sound

def set (ts : Timers) : Timer → UInt8 → Timers
  | .delay => ts.setDelay
  | .sound => ts.setSound

theorem value_set (ts : Timers) (timer other : Timer) (b : UInt8) :
    (ts.set timer b).value other = if timer = other then b else ts.value other := by
  cases timer <;> cases other <;> rfl

theorem ticks_set (ts : Timers) (timer : Timer) (b : UInt8) :
    (ts.set timer b).ticks = ts.ticks := by
  cases timer <;> rfl

theorem toNat_value_tick (ts : Timers) (timer : Timer) :
    (ts.tick.value timer).toNat = (ts.value timer).toNat - 1 := by
  cases timer <;> exact toNat_countDown _

/-- The timers show what the history leaves in them. -/
structure Records (ts : Timers) (t : List TimerEvent) : Prop where
  value_eq : ∀ timer,
    ((ts.value timer).toNat : Int) = max 0 (lastLoaded timer t - ticksSince timer t)
  ticks_eq : ts.ticks = t.count .tick

theorem records_fresh : fresh.Records [] where
  value_eq timer := by cases timer <;> rfl
  ticks_eq := rfl

/-- **A tick** takes one from both timers, but not below zero. -/
theorem Records.tick (h : ts.Records t) : ts.tick.Records (t ++ [.tick]) where
  value_eq timer := by
    have hshown := h.value_eq timer
    have hsince : ticksSince timer (t ++ [.tick]) = ticksSince timer t + 1 :=
      ticksSince_concat_of_none rfl
    rw [toNat_value_tick, lastLoaded_concat, hsince]
    show _ = max 0 (lastLoaded timer t - _)
    omega
  ticks_eq := by
    rw [List.count_append, ← h.ticks_eq]
    rfl

/-- **A load** of one timer leaves the other one alone. -/
theorem Records.set (h : ts.Records t) (timer : Timer) {b : UInt8} {value : Int}
    (hb : (b.toNat : Int) = value) : (ts.set timer b).Records (t ++ [.load timer value]) where
  value_eq other := by
    rw [value_set, lastLoaded_concat]
    by_cases ht : timer = other
    · have hload : loaded? other (.load timer value) = some value := if_pos ht
      rw [if_pos ht, ticksSince_concat_of_load hload, hload, Option.getD_some]
      omega
    · have hnone : loaded? other (.load timer value) = none := if_neg ht
      have hsince := ticksSince_concat_of_none (t := t) hnone
      rw [if_neg ht, hsince, hnone]
      exact h.value_eq other
  ticks_eq := by
    rw [ticks_set, h.ticks_eq, List.count_append]
    rfl

end Timers

end Chip8
