/-!
# The keypad

Sixteen keys.  The keypad keeps a flag for each key, which says whether it is
down, and a list of the keys that are held, in the order of their latest presses.
Beside them it keeps a latch for the program that waits for a key: the key of the
latest press of a key whose flag was not set.

A wait begins with an empty latch, so a key that is already down does not end
it, and neither does the repetition of its press.

* `isHeld_press`, `isHeld_release`, `isHeld_releaseAll`: the flags after a move of
  keys.
-/

namespace Chip8

abbrev Key := Fin 16

/-- The keys that are held and the state of a program's wait. -/
structure Keypad where
  /-- For each key, whether it is down. -/
  flags : Vector Bool 16
  /-- The keys held down, the one pressed last at the end. -/
  held : List Key
  /-- The key that went down last since the latch was last emptied. -/
  latch : Option Key
  /-- Whether a program waits for a key. -/
  awaiting : Bool
  deriving DecidableEq

namespace Keypad

def fresh : Keypad :=
  ⟨Vector.replicate 16 false, [], none, false⟩

/-- The key of a code, if the code has one. -/
def key? (code : Int) : Option Key :=
  if h : 0 ≤ code ∧ code < 16 then some ⟨code.toNat, by omega⟩ else none

def isHeld (k : Keypad) (key : Key) : Bool :=
  k.flags.get key

/-- Presses a key, or repeats its press. -/
def press (k : Keypad) (key : Key) : Keypad where
  flags := k.flags.set key true key.isLt
  held := k.held.erase key ++ [key]
  latch := if k.isHeld key then k.latch else some key
  awaiting := k.awaiting

def release (k : Keypad) (key : Key) : Keypad :=
  { k with flags := k.flags.set key false key.isLt, held := k.held.erase key }

def set (k : Keypad) (key : Key) (down : Bool) : Keypad :=
  if down then k.press key else k.release key

/-- Lets all keys go and empties the latch; a wait goes on. -/
def releaseAll (k : Keypad) : Keypad :=
  { k with flags := Vector.replicate 16 false, held := [], latch := none }

def isPressed (k : Keypad) (code : Int) : Bool :=
  (key? code).any k.isHeld

def pressed (k : Keypad) : Option Key :=
  k.held.getLast?

def states (k : Keypad) : List Bool :=
  k.flags.toList

def beginWait (k : Keypad) : Keypad :=
  { k with latch := none, awaiting := true }

/-- Takes the key out of the latch; when there is one, the wait is over. -/
def consume (k : Keypad) : Keypad × Option Key :=
  match k.latch with
  | none => (k, none)
  | some key => ({ k with latch := none, awaiting := false }, some key)

/-! ### The flags -/

private theorem get_set_flags (flags : Vector Bool 16) (key a : Key) (down : Bool) :
    (flags.set key down key.isLt).get a = if key = a then down else flags.get a := by
  by_cases h : key = a
  · subst h
    rw [if_pos rfl]
    exact Vector.getElem_set_self key.isLt
  · rw [if_neg h]
    exact Vector.getElem_set_ne key.isLt a.isLt (Fin.val_ne_of_ne h)

theorem isHeld_press (k : Keypad) (key a : Key) :
    (k.press key).isHeld a = (k.isHeld a || decide (key = a)) := by
  refine (get_set_flags k.flags key a true).trans ?_
  by_cases h : key = a
  · rw [if_pos h, decide_eq_true h, Bool.or_true]
  · rw [if_neg h, decide_eq_false h, Bool.or_false]
    rfl

theorem isHeld_release (k : Keypad) (key a : Key) :
    (k.release key).isHeld a = (k.isHeld a && decide (key ≠ a)) := by
  refine (get_set_flags k.flags key a false).trans ?_
  by_cases h : key = a
  · rw [if_pos h, decide_eq_false (not_not_intro h), Bool.and_false]
  · rw [if_neg h, decide_eq_true h, Bool.and_true]
    rfl

theorem isHeld_releaseAll (k : Keypad) (a : Key) : k.releaseAll.isHeld a = false :=
  Vector.getElem_replicate a.isLt

theorem flags_consume (k : Keypad) : k.consume.1.flags = k.flags := by
  unfold consume
  split <;> rfl

theorem held_consume (k : Keypad) : k.consume.1.held = k.held := by
  unfold consume
  split <;> rfl

end Keypad

end Chip8
