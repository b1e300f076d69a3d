/-!
# The timers

Two counters of one byte.  Each tick takes one from a counter that is not zero.
The ticks themselves are counted too.
-/

namespace Chip8

structure Timers where
  delay : UInt8
  sound : UInt8
  /-- How many ticks there have been. -/
  ticks : Nat
  deriving DecidableEq

namespace Timers

def fresh : Timers :=
  ⟨0, 0, 0⟩

/-- The byte that a timer takes for a value, if the value is one. -/
def byte? (value : Int) : Option UInt8 :=
  if 0 ≤ value ∧ value ≤ 0xFF then some (UInt8.ofInt value) else none

def setDelay (t : Timers) (value : UInt8) : Timers :=
  { t with delay := value }

def setSound (t : Timers) (value : UInt8) : Timers :=
  { t with sound := value }

def countDown (n : UInt8) : UInt8 :=
  if n = 0 then 0 else n - 1

theorem toNat_countDown (n : UInt8) : (countDown n).toNat = n.toNat - 1 := by
  unfold countDown
  split
  · next h => simp [h]
  · next h =>
    have h0 : n.toNat ≠ 0 := fun he => h (UInt8.toNat_inj.1 (by simpa using he))
    have : (1 : UInt8) ≤ n := by
      rw [UInt8.le_iff_toNat_le]
      simp only [UInt8.reduceToNat]
      omega
    rw [UInt8.toNat_sub_of_le _ _ this]
    simp

def tick (t : Timers) : Timers :=
  ⟨countDown t.delay, countDown t.sound, t.ticks + 1⟩

def soundActive (t : Timers) : Bool :=
  t.sound != 0

end Timers

end Chip8
