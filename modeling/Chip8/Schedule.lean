/-!
# Schedules

Events that wait for their clock to come.  They fire in the order of their
clocks, and events of one clock in the order of a number that each of them was
given.  The schedule is a list in that order.

* `insert_perm`: nothing is lost and nothing appears.
* `due_append_rest`: what is due and what stays make up the schedule.
-/

namespace Chip8

structure Event (α : Type) where
  clock : Int
  order : Int
  item : α
  deriving DecidableEq

/-- Events in the order in which they fire. -/
structure Schedule (α : Type) where
  events : List (Event α)
  deriving DecidableEq

namespace Event

variable {α : Type}

def before (e f : Event α) : Bool :=
  e.clock < f.clock || e.clock == f.clock && e.order < f.order

end Event

namespace Schedule

variable {α : Type}

def empty : Schedule α :=
  ⟨[]⟩

def size (s : Schedule α) : Nat :=
  s.events.length

/-- Puts an event in front of those that fire after it. -/
def insertEvent (e : Event α) : List (Event α) → List (Event α)
  | [] => [e]
  | f :: r => if e.before f then e :: f :: r else f :: insertEvent e r

def insert (s : Schedule α) (e : Event α) : Schedule α :=
  ⟨insertEvent e s.events⟩

def due (s : Schedule α) (clock : Int) : List (Event α) :=
  s.events.takeWhile fun e => e.clock ≤ clock

def rest (s : Schedule α) (clock : Int) : Schedule α :=
  ⟨s.events.dropWhile fun e => e.clock ≤ clock⟩

theorem insertEvent_perm (e : Event α) (l : List (Event α)) :
    (insertEvent e l).Perm (e :: l) := by
  induction l with
  | nil => exact .refl _
  | cons f r ih =>
    rw [insertEvent]
    split
    · exact .refl _
    · exact (List.Perm.cons f ih).trans (.swap e f r)

theorem insert_perm (s : Schedule α) (e : Event α) :
    (s.insert e).events.Perm (e :: s.events) :=
  insertEvent_perm e s.events

theorem due_append_rest (s : Schedule α) (clock : Int) :
    s.due clock ++ (s.rest clock).events = s.events :=
  List.takeWhile_append_dropWhile

end Schedule

end Chip8
