import Mathlib.Data.List.Induction
import Mathlib.Data.List.Nodup
import Chip8.Proofs.Engine.Step

/-!
# The keypad and the calls on it

What a keypad tells can be read off the history of the calls on it.  A key is down if
the last call that has affected it was a press, and of the keys that are down the one
pressed last is the one whose latest press is the latest of all.  A press of a key that
is down already counts as a press.  The calls of a wait affect no key, and a call with
a code that no key has is refused.

The keypad keeps this twice: in a flag for each key, and in a list of the keys that
are held.  Each call edits both, so they agree after every history.  The order of the
list is the order of the latest presses because a press moves its key to the end.

* `LastAt`: where a list has its last element of some kind, and `lastAt_concat`, the
  same for a list that has become longer by one element.
* `Keypad.Records`: the flags and the list of the keys that are held agree with the
  history, and `Records.isHeld_iff_mem`: they agree with each other.
* `keypad_is_history`: what a keypad tells after every history.
-/

namespace Chip8

inductive KeypadCall
  | press (code : Int)
  | release (code : Int)
  | set (code : Int) (down : Bool)
  | releaseAll
  | beginWait
  | consume
  deriving DecidableEq

namespace KeypadCall

/-! ### What calls do -/

/-- A change of the key of a code, which is refused if no key has the code. -/
def withKey (k : Keypad) (code : Int) (change : Key → Keypad) :
    Except Refusal (Option Key) × Keypad :=
  match Keypad.key? code with
  | none => (.error (.keyOutOfRange code), k)
  | some key => (.ok none, change key)

/-- The answer of a keypad to a call, and the keypad after it. -/
def respond (k : Keypad) : KeypadCall → Except Refusal (Option Key) × Keypad
  | press code => withKey k code k.press
  | release code => withKey k code k.release
  | set code down => withKey k code fun key => k.set key down
  | releaseAll => (.ok none, k.releaseAll)
  | beginWait => (.ok none, k.beginWait)
  | consume => (.ok k.consume.2, k.consume.1)

def after (k : Keypad) (call : KeypadCall) : Keypad :=
  (call.respond k).2

/-- The keypad after a history of calls on a new one. -/
def afterAll (t : List KeypadCall) : Keypad :=
  t.foldl after Keypad.fresh

theorem afterAll_concat (t : List KeypadCall) (x : KeypadCall) :
    afterAll (t ++ [x]) = after (afterAll t) x :=
  List.foldl_concat ..

/-- **The key of an engine moves** as the call on its keypad says. -/
theorem setKey_eq_respond {h : Host} {c : Nat} {e : Engine} (he : h.engines[c]? = some e)
    (hfree : e.busy = false) (code : Int) (down : Bool) :
    HostM.setKey c code down h = (((set code down).respond e.machine.keypad).1.map fun _ => (),
      h.putEngine c { e with machine := { e.machine with
        keypad := (set code down).after e.machine.keypad } }) := by
  rw [HostM.setKey_apply he hfree, Engine.keyOutcome, Engine.keyed, after, respond, withKey]
  cases Keypad.key? code <;> rfl

/-! ### Which keys calls affect -/

/-- The code that a call names. -/
def code? : KeypadCall → Option Int
  | press code | release code | set code _ => some code
  | releaseAll | beginWait | consume => none

def Presses : KeypadCall → Key → Prop
  | press code, key => code = key.val
  | set code down, key => code = key.val ∧ down = true
  | release _, _ | releaseAll, _ | beginWait, _ | consume, _ => False

def Releases : KeypadCall → Key → Prop
  | release code, key => code = key.val
  | set code down, key => code = key.val ∧ down = false
  | releaseAll, _ => True
  | press _, _ | beginWait, _ | consume, _ => False

def Affects (call : KeypadCall) (key : Key) : Prop :=
  call.Presses key ∨ call.Releases key

end KeypadCall

/-! ### The last call of a kind -/

section History

variable {α : Type} {p q : α → Prop} {t : List α} {x : α} {i j : Nat}

/-- The last element of the list with `q` is at `i`, and it has `p`. -/
def LastAt (p q : α → Prop) (t : List α) (i : Nat) : Prop :=
  (∃ x, t[i]? = some x ∧ p x) ∧ ∀ j x, i < j → t[j]? = some x → ¬q x

theorem LastAt.lt (h : LastAt p q t i) : i < t.length := by
  obtain ⟨⟨x, hx, -⟩, -⟩ := h
  exact (List.getElem?_eq_some_iff.mp hx).1

theorem LastAt.unique (hi : LastAt p p t i) (hj : LastAt p p t j) : i = j := by
  obtain ⟨⟨x, hx, hpx⟩, hafter⟩ := hi
  obtain ⟨⟨y, hy, hpy⟩, hafter'⟩ := hj
  rcases Nat.lt_trichotomy i j with hlt | heq | hlt
  · exact absurd hpy (hafter j y hlt hy)
  · exact heq
  · exact absurd hpx (hafter' i x hlt hx)

theorem LastAt.mono (h : LastAt p q t i) (hpq : ∀ x, p x → q x) : LastAt p p t i :=
  ⟨h.1, fun j x hj hx hp => h.2 j x hj hx (hpq x hp)⟩

/-- **The last element of a longer list** is the new one, or it is the last one as before. -/
theorem lastAt_concat :
    LastAt p q (t ++ [x]) i ↔ p x ∧ i = t.length ∨ ¬q x ∧ LastAt p q t i := by
  have hnew : (t ++ [x])[t.length]? = some x := List.getElem?_concat_length
  have hlength : (t ++ [x]).length = t.length + 1 := by
    rw [List.length_append, List.length_singleton]
  have hold {j : Nat} (hj : j < t.length) : (t ++ [x])[j]? = t[j]? := List.getElem?_append_left hj
  constructor
  · intro h
    obtain ⟨⟨y, hy, hp⟩, hlater⟩ := id h
    have hi : i < t.length + 1 := hlength ▸ h.lt
    by_cases hlast : i = t.length
    · subst hlast
      rw [hnew] at hy
      cases hy
      exact .inl ⟨hp, rfl⟩
    · have hlt : i < t.length := by omega
      rw [hold hlt] at hy
      refine .inr ⟨hlater _ x hlt hnew, ⟨y, hy, hp⟩, ?_⟩
      intro j z hj hz
      have hjt : j < t.length := (List.getElem?_eq_some_iff.mp hz).1
      exact hlater j z hj ((hold hjt).trans hz)
  · rintro (⟨hp, rfl⟩ | ⟨hq, h⟩)
    · refine ⟨⟨x, hnew, hp⟩, ?_⟩
      intro j z hj hz
      have hjt := (List.getElem?_eq_some_iff.mp hz).1
      omega
    · obtain ⟨⟨y, hy, hp⟩, hlater⟩ := id h
      refine ⟨⟨y, (hold h.lt).trans hy, hp⟩, ?_⟩
      intro j z hj hz
      by_cases hjt : j < t.length
      · rw [hold hjt] at hz
        exact hlater j z hj hz
      · have hjx := (List.getElem?_eq_some_iff.mp hz).1
        obtain rfl : j = t.length := by omega
        rw [hnew] at hz
        cases hz
        exact hq

end History

namespace KeypadCall

/-- The key is down after the history: the last call that has affected it was a press. -/
def IsDown (t : List KeypadCall) (key : Key) : Prop :=
  ∃ i, LastAt (Presses · key) (Affects · key) t i

/-- Both keys have been pressed, and the latest press of `a` came before the latest press of `b`. -/
def Before (t : List KeypadCall) (a b : Key) : Prop :=
  ∃ i j, LastAt (Presses · a) (Presses · a) t i ∧ LastAt (Presses · b) (Presses · b) t j ∧ i < j

variable {t : List KeypadCall} {x : KeypadCall} {a b key : Key}

theorem isDown_concat : IsDown (t ++ [x]) key ↔ x.Presses key ∨ ¬x.Affects key ∧ IsDown t key := by
  simp only [IsDown, lastAt_concat]
  constructor
  · rintro ⟨i, ⟨hpress, -⟩ | ⟨hno, hlast⟩⟩
    · exact .inl hpress
    · exact .inr ⟨hno, i, hlast⟩
  · rintro (hpress | ⟨hno, i, hlast⟩)
    · exact ⟨t.length, .inl ⟨hpress, rfl⟩⟩
    · exact ⟨i, .inr ⟨hno, hlast⟩⟩

theorem isDown_concat_of_not_affects (hx : ¬x.Affects key) :
    IsDown (t ++ [x]) key ↔ IsDown t key := by
  rw [isDown_concat]
  constructor
  · rintro (hpress | ⟨-, hdown⟩)
    · exact absurd (.inl hpress) hx
    · exact hdown
  · intro hdown
    exact .inr ⟨hx, hdown⟩

theorem before_concat (ha : ¬x.Presses a) (hb : ¬x.Presses b) (h : Before t a b) :
    Before (t ++ [x]) a b := by
  obtain ⟨i, j, hi, hj, hij⟩ := h
  exact ⟨i, j, lastAt_concat.mpr (.inr ⟨ha, hi⟩), lastAt_concat.mpr (.inr ⟨hb, hj⟩), hij⟩

/-- A key that is pressed has been pressed after every other key that is down. -/
theorem before_concat_of_presses (ha : ¬x.Presses a) (hb : x.Presses b) (h : IsDown t a) :
    Before (t ++ [x]) a b := by
  obtain ⟨i, hlast⟩ := h
  have hi := hlast.mono fun _ hpress => .inl hpress
  exact ⟨i, t.length, lastAt_concat.mpr (.inr ⟨ha, hi⟩), lastAt_concat.mpr (.inl ⟨hb, rfl⟩),
    hlast.lt⟩

theorem not_before_of_before (h : Before t a b) : ¬Before t b a := by
  rintro ⟨j', i', hj', hi', hlt'⟩
  obtain ⟨i, j, hi, hj, hlt⟩ := h
  have hsame := hi.unique hi'
  have hsame' := hj.unique hj'
  omega

end KeypadCall

/-! ### The flags and the list of the keys that are held -/

namespace Keypad

open KeypadCall

/-- The keypad agrees with the history: the flags of the keys that are down are set, each of them
stands in the list once, and they stand there in the order of their latest presses. -/
structure Records (k : Keypad) (t : List KeypadCall) : Prop where
  isHeld_iff : ∀ key, k.isHeld key = true ↔ IsDown t key
  nodup : k.held.Nodup
  mem_iff : ∀ key, key ∈ k.held ↔ IsDown t key
  ordered : k.held.Pairwise (Before t)

variable {k k' : Keypad} {t : List KeypadCall} {x : KeypadCall} {key : Key}

theorem key?_eq_some_iff {code : Int} : key? code = some key ↔ code = key.val := by
  have hlt := key.isLt
  rw [key?]
  split
  · next h =>
    rw [Option.some_inj, Fin.ext_iff]
    show code.toNat = key.val ↔ _
    omega
  · next h =>
    constructor
    · rintro ⟨⟩
    · intro hcode
      omega

theorem key?_eq_none_iff {code : Int} : key? code = none ↔ ¬(0 ≤ code ∧ code < 16) := by
  rw [key?]
  split
  · next h => exact ⟨fun hnone => (nomatch hnone), fun hno => absurd h hno⟩
  · next h => exact ⟨fun _ => h, fun _ => rfl⟩

/-- **The two records of a keypad agree** with each other where both agree with a history. -/
theorem Records.isHeld_iff_mem (h : k.Records t) (key : Key) :
    k.isHeld key = true ↔ key ∈ k.held :=
  (h.isHeld_iff key).trans (h.mem_iff key).symm

theorem not_isDown_nil : ¬IsDown [] key := by
  rintro ⟨i, hlast⟩
  exact absurd hlast.lt (Nat.not_lt_zero i)

theorem isHeld_fresh (key : Key) : fresh.isHeld key = false :=
  Vector.getElem_replicate key.isLt

theorem records_fresh : fresh.Records [] where
  isHeld_iff key := by
    rw [isHeld_fresh]
    exact ⟨fun h => (nomatch h), fun h => absurd h not_isDown_nil⟩
  nodup := List.nodup_nil
  mem_iff key := ⟨fun h => (nomatch h), fun h => absurd h not_isDown_nil⟩
  ordered := List.Pairwise.nil

theorem Records.concat (h : k.Records t) (hx : ∀ a, ¬x.Affects a) (hflags : k'.flags = k.flags)
    (hheld : k'.held = k.held) : k'.Records (t ++ [x]) where
  isHeld_iff a := by
    rw [isHeld, hflags, isDown_concat_of_not_affects (hx a)]
    exact h.isHeld_iff a
  nodup := hheld ▸ h.nodup
  mem_iff a := by rw [hheld, h.mem_iff, isDown_concat_of_not_affects (hx a)]
  ordered := by
    rw [hheld]
    exact h.ordered.imp fun hbefore =>
      before_concat (fun hpress => hx _ (.inl hpress)) (fun hpress => hx _ (.inl hpress)) hbefore

theorem nodup_press (h : k.held.Nodup) (key : Key) : (k.press key).held.Nodup := by
  rw [Keypad.press, ← List.concat_eq_append]
  exact (h.erase key).concat fun hmem => (h.mem_erase_iff.mp hmem).1 rfl

theorem affects_iff_of_presses (hpress : ∀ a, x.Presses a ↔ a = key)
    (hrelease : ∀ a, ¬x.Releases a) (a : Key) : x.Affects a ↔ a = key :=
  (or_iff_left (hrelease a)).trans (hpress a)

theorem affects_iff_of_releases (hpress : ∀ a, ¬x.Presses a)
    (hrelease : ∀ a, x.Releases a ↔ a = key) (a : Key) : x.Affects a ↔ a = key :=
  (or_iff_right (hpress a)).trans (hrelease a)

/-- A press sets the flag of its key and moves the key to the end. -/
theorem Records.press (h : k.Records t) (hpress : ∀ a, x.Presses a ↔ a = key)
    (hrelease : ∀ a, ¬x.Releases a) : (k.press key).Records (t ++ [x]) where
  isHeld_iff a := by
    rw [isHeld_press, Bool.or_eq_true, decide_eq_true_iff, h.isHeld_iff, isDown_concat, hpress,
      affects_iff_of_presses hpress hrelease, eq_comm (a := key)]
    constructor
    · rintro (hdown | heq)
      · exact or_and_left.mpr ⟨Decidable.em _, .inr hdown⟩
      · exact .inl heq
    · rintro (heq | ⟨-, hdown⟩)
      · exact .inr heq
      · exact .inl hdown
  nodup := nodup_press h.nodup key
  mem_iff a := by
    rw [Keypad.press, List.mem_append, List.mem_singleton, h.nodup.mem_erase_iff, h.mem_iff,
      isDown_concat, hpress, affects_iff_of_presses hpress hrelease, or_comm]
  ordered := by
    rw [Keypad.press, List.pairwise_append]
    refine ⟨?_, List.pairwise_singleton _ _, ?_⟩
    · refine (h.ordered.sublist List.erase_sublist).imp_of_mem ?_
      intro a b ha hb hbefore
      have hane := (h.nodup.mem_erase_iff.mp ha).1
      have hbne := (h.nodup.mem_erase_iff.mp hb).1
      exact before_concat (fun hx => hane ((hpress a).mp hx)) (fun hx => hbne ((hpress b).mp hx))
        hbefore
    · intro a ha b hb
      obtain ⟨hane, ha⟩ := h.nodup.mem_erase_iff.mp ha
      rw [List.mem_singleton] at hb
      exact before_concat_of_presses (fun hx => hane ((hpress a).mp hx)) ((hpress b).mpr hb)
        ((h.mem_iff a).mp ha)

theorem Records.release (h : k.Records t) (hpress : ∀ a, ¬x.Presses a)
    (hrelease : ∀ a, x.Releases a ↔ a = key) : (k.release key).Records (t ++ [x]) where
  isHeld_iff a := by
    rw [isHeld_release, Bool.and_eq_true, decide_eq_true_iff, h.isHeld_iff, isDown_concat,
      affects_iff_of_releases hpress hrelease, and_comm, ne_comm]
    exact (or_iff_right (hpress a)).symm
  nodup := h.nodup.erase key
  mem_iff a := by
    rw [Keypad.release, h.nodup.mem_erase_iff, h.mem_iff, isDown_concat,
      affects_iff_of_releases hpress hrelease]
    exact (or_iff_right (hpress a)).symm
  ordered := (h.ordered.sublist List.erase_sublist).imp (before_concat (hpress _) (hpress _))

theorem not_isDown_concat_releaseAll : ¬IsDown (t ++ [.releaseAll]) key := by
  rw [isDown_concat]
  rintro (hpress | ⟨hno, -⟩)
  · exact hpress.elim
  · exact absurd (.inr trivial) hno

theorem records_releaseAll (k : Keypad) (t : List KeypadCall) :
    k.releaseAll.Records (t ++ [.releaseAll]) where
  isHeld_iff a := by
    rw [isHeld_releaseAll]
    exact ⟨fun h => (nomatch h), fun h => absurd h not_isDown_concat_releaseAll⟩
  nodup := List.nodup_nil
  mem_iff a := ⟨fun h => (nomatch h), fun h => absurd h not_isDown_concat_releaseAll⟩
  ordered := List.Pairwise.nil

theorem Records.withKey_press (h : k.Records t) {code : Int}
    (hpress : ∀ a : Key, x.Presses a ↔ code = a.val) (hrelease : ∀ a, ¬x.Releases a) :
    (withKey k code k.press).2.Records (t ++ [x]) := by
  rw [withKey]
  cases hcode : key? code with
  | none =>
    refine h.concat ?_ rfl rfl
    rintro a (hx | hx)
    · rw [hpress, ← key?_eq_some_iff, hcode] at hx
      cases hx
    · exact hrelease a hx
  | some key =>
    refine h.press ?_ hrelease
    intro a
    rw [hpress, ← key?_eq_some_iff, hcode, Option.some_inj, eq_comm]

theorem Records.withKey_release (h : k.Records t) {code : Int} (hpress : ∀ a, ¬x.Presses a)
    (hrelease : ∀ a : Key, x.Releases a ↔ code = a.val) :
    (withKey k code k.release).2.Records (t ++ [x]) := by
  rw [withKey]
  cases hcode : key? code with
  | none =>
    refine h.concat ?_ rfl rfl
    rintro a (hx | hx)
    · exact hpress a hx
    · rw [hrelease, ← key?_eq_some_iff, hcode] at hx
      cases hx
  | some key =>
    refine h.release hpress ?_
    intro a
    rw [hrelease, ← key?_eq_some_iff, hcode, Option.some_inj, eq_comm]

/-- **A call keeps the keypad in agreement** with the history, one case for each call. -/
theorem Records.after (h : k.Records t) (x : KeypadCall) :
    (KeypadCall.after k x).Records (t ++ [x]) := by
  cases x with
  | press code => exact h.withKey_press (fun _ => Iff.rfl) (fun _ => id)
  | release code => exact h.withKey_release (fun _ => id) (fun _ => Iff.rfl)
  | set code down =>
    cases down with
    | true =>
      refine h.withKey_press (fun _ => and_iff_left rfl) ?_
      rintro a ⟨-, hdown⟩
      cases hdown
    | false =>
      refine h.withKey_release ?_ (fun _ => and_iff_left rfl)
      rintro a ⟨-, hdown⟩
      cases hdown
  | releaseAll => exact records_releaseAll k t
  | beginWait => exact h.concat (fun _ hx => hx.elim id id) rfl rfl
  | consume => exact h.concat (fun _ hx => hx.elim id id) k.flags_consume k.held_consume

theorem records_afterAll (t : List KeypadCall) : (afterAll t).Records t := by
  induction t using List.reverseRecOn with
  | nil => exact records_fresh
  | append_singleton t x ih =>
    rw [afterAll_concat]
    exact ih.after x

theorem Records.pressed_eq_none_iff (h : k.Records t) :
    k.pressed = none ↔ ∀ key, ¬IsDown t key := by
  rw [pressed, List.getLast?_eq_none_iff, List.eq_nil_iff_forall_not_mem]
  exact forall_congr' fun key => not_congr (h.mem_iff key)

theorem Records.isDown_pressed (h : k.Records t) (hlast : k.pressed = some key) : IsDown t key :=
  (h.mem_iff key).mp (List.mem_of_getLast? hlast)

theorem Records.before_pressed (h : k.Records t) (hlast : k.pressed = some key) {a : Key}
    (ha : IsDown t a) (hne : a ≠ key) : Before t a key := by
  obtain ⟨front, hheld⟩ := List.getLast?_eq_some_iff.mp hlast
  have hordered := h.ordered
  rw [hheld, List.pairwise_append] at hordered
  have hmem := (h.mem_iff a).mpr ha
  rw [hheld, List.mem_append, List.mem_singleton] at hmem
  exact hordered.2.2 a (hmem.resolve_right hne) key (List.mem_singleton_self key)

/-- **The key pressed last** is the one whose latest press is the latest. -/
theorem Records.pressed_eq_some_iff (h : k.Records t) :
    k.pressed = some key ↔ IsDown t key ∧ ∀ a, IsDown t a → a ≠ key → Before t a key := by
  constructor
  · intro hlast
    exact ⟨h.isDown_pressed hlast, fun a ha hne => h.before_pressed hlast ha hne⟩
  · rintro ⟨hdown, hlatest⟩
    cases hlast : k.pressed with
    | none => exact absurd hdown (h.pressed_eq_none_iff.mp hlast key)
    | some b =>
      by_cases hb : b = key
      · rw [hb]
      · have hbefore := h.before_pressed hlast hdown (Ne.symm hb)
        exact absurd (hlatest b (h.isDown_pressed hlast) hb) (not_before_of_before hbefore)

theorem Records.isPressed_iff (h : k.Records t) (code : Int) :
    k.isPressed code = true ↔ ∃ key : Key, code = key.val ∧ IsDown t key := by
  rw [isPressed, Option.any_eq_true]
  simp only [key?_eq_some_iff, h.isHeld_iff]

theorem Records.states_iff (h : k.Records t) (key : Key) :
    k.states[key.val]? = some true ↔ IsDown t key := by
  rw [states, Vector.getElem?_toList, Vector.getElem?_eq_getElem key.isLt, Option.some_inj]
  exact h.isHeld_iff key

end Keypad

theorem KeypadCall.respond_of_key?_eq_none {call : KeypadCall} {code : Int}
    (hcode : call.code? = some code) (hnone : Keypad.key? code = none) (k : Keypad) :
    call.respond k = (.error (.keyOutOfRange code), k) := by
  cases call with
  | press code' | release code' | set code' down =>
    cases hcode
    rw [respond, withKey, hnone]
  | releaseAll | beginWait | consume => cases hcode

theorem KeypadCall.respond_eq_ok {call : KeypadCall}
    (hcode : ∀ code, call.code? = some code → 0 ≤ code ∧ code < 16) (k : Keypad) :
    ∃ answer, (call.respond k).1 = .ok answer := by
  have hkey (code : Int) (h : call.code? = some code) : ∃ key, Keypad.key? code = some key := by
    rw [← Option.ne_none_iff_exists']
    intro hnone
    exact Keypad.key?_eq_none_iff.mp hnone (hcode code h)
  cases call with
  | press code | release code | set code down =>
    obtain ⟨key, hkey⟩ := hkey code rfl
    refine ⟨none, ?_⟩
    rw [respond, withKey, hkey]
  | releaseAll | beginWait | consume => exact ⟨_, rfl⟩

open KeypadCall

/-- **What a keypad tells is its history**, whatever calls have been made on it.

* A code is pressed if its key is down: the last call that has affected the key was a press.  The
  flags that the keypad shows say the same of each key.
* The key pressed last is the one among the keys that are down whose latest press comes after those
  of the others, and there is none only if no key is down.
* The keys that are held are the keys that are down, each of them once and in the order of their
  latest presses.  They are the keys whose flags are set.
* A call is refused exactly if it names a code that no key has, and then it changes nothing.
* The keys of an engine move as the calls say. -/
theorem keypad_is_history (t : List KeypadCall) :
    let k := afterAll t
    (∀ code, k.isPressed code = true ↔ ∃ key : Key, code = key.val ∧ IsDown t key) ∧
    (∀ key : Key, k.states[key.val]? = some true ↔ IsDown t key) ∧
    (∀ key, k.pressed = some key ↔
      IsDown t key ∧ ∀ other, IsDown t other → other ≠ key → Before t other key) ∧
    (k.pressed = none ↔ ∀ key, ¬IsDown t key) ∧
    (k.held.Nodup ∧ (∀ key, key ∈ k.held ↔ IsDown t key) ∧ k.held.Pairwise (Before t)) ∧
    (∀ key, k.flags.get key = true ↔ key ∈ k.held) ∧
    (∀ (call : KeypadCall) (code : Int), call.code? = some code → ¬(0 ≤ code ∧ code < 16) →
      call.respond k = (.error (.keyOutOfRange code), k)) ∧
    (∀ call : KeypadCall, (∀ code, call.code? = some code → 0 ≤ code ∧ code < 16) →
      ∃ answer, (call.respond k).1 = .ok answer) ∧
    ∀ (h : Host) (c : Nat) (e : Engine), h.engines[c]? = some e → e.busy = false →
      e.machine.keypad = k → ∀ code down,
        HostM.setKey c code down h = (((set code down).respond k).1.map fun _ => (),
          h.putEngine c { e with machine := { e.machine with
            keypad := afterAll (t ++ [set code down]) } }) := by
  intro k
  have hrecords : k.Records t := Keypad.records_afterAll t
  refine ⟨hrecords.isPressed_iff, hrecords.states_iff, fun _ => hrecords.pressed_eq_some_iff,
    hrecords.pressed_eq_none_iff, ⟨hrecords.nodup, hrecords.mem_iff, hrecords.ordered⟩,
    hrecords.isHeld_iff_mem, ?_, ?_, ?_⟩
  · intro call code hcode hout
    exact respond_of_key?_eq_none hcode (Keypad.key?_eq_none_iff.mpr hout) k
  · intro call hcode
    exact respond_eq_ok hcode k
  · intro h c e he hfree hk code down
    rw [setKey_eq_respond he hfree, hk, afterAll_concat]

/-- The repeated press of the key 3 makes it the key pressed last again. -/
example : (KeypadCall.afterAll [.press 3, .press 0xA, .set 3 true, .release 16]).pressed =
    some 3 := by
  decide

end Chip8
