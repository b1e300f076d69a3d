import Mathlib.Data.List.Induction
import Chip8.Proofs.Machine.Halting
import Chip8.Proofs.Machine.Report

/-!
# Waiting for a key

A history of a program and its keypad is a list of events: steps with what they
report, presses, releases.  A key goes down when it is pressed while it is up; a
press of a key that is down is a repetition.  A wait begins with a step that
waits and ends with the next step that continues.  What ends it is said in terms
of the history alone: `Pressed t key` if `key` is the one that has gone down last
since the wait began, and all keys have not been let go since.

* `pressed_concat`: what one more event does to the key that ends the wait.
* `Keypad.Remembers`: the keypad knows what it needs of the history.
* `step_of_latch`, `step_of_no_latch`: a step at a word that waits for a key.
-/

namespace Chip8

open PatternDigit (any)

/-- What happens to a program and its keypad. -/
inductive KeyEvent
  | step (status : Status)
  /-- A key is pressed, or its press is repeated. -/
  | down (key : Key)
  | up (key : Key)
  | releaseAll
  deriving DecidableEq

namespace KeyEvent

/-! ### Histories -/

/-- Whether a key is down after an event, by whether it is before. -/
def leavesDown (key : Key) (before : Bool) : KeyEvent → Bool
  | step _ => before
  | down k => before || decide (k = key)
  | up k => before && decide (k ≠ key)
  | releaseAll => false

def isDown (t : List KeyEvent) (key : Key) : Bool :=
  t.foldl (leavesDown key) false

/-- The program waits: a step has waited for a key, and none has continued since. -/
def Waiting (t : List KeyEvent) : Prop :=
  ∃ u v, t = u ++ step .awaitingKey :: v ∧ step .continue ∉ v

/-- After `u`, the events of `w` press keys only that are down already. -/
def OnlyRepeats (u w : List KeyEvent) : Prop :=
  ∀ v key v', w = v ++ down key :: v' → isDown (u ++ v) key = true

/-- **The key that ends the wait**: it has gone down while the program was waiting, no step has
continued since, the keys have not been let go all at once since, and no other key has gone down
since. -/
def Pressed (t : List KeyEvent) (key : Key) : Prop :=
  ∃ u w, t = u ++ down key :: w ∧ Waiting u ∧ isDown u key = false ∧
    step .continue ∉ w ∧ releaseAll ∉ w ∧ OnlyRepeats (u ++ [down key]) w

variable {t : List KeyEvent} {x : KeyEvent} {key : Key}

theorem isDown_concat (t : List KeyEvent) (x : KeyEvent) (key : Key) :
    isDown (t ++ [x]) key = leavesDown key (isDown t key) x := by
  rw [isDown, List.foldl_append]
  rfl

theorem concat_eq_append_cons {u v : List KeyEvent} {y : KeyEvent}
    (h : t ++ [x] = u ++ y :: v) :
    v = [] ∧ x = y ∧ t = u ∨ ∃ v', v = v' ++ [x] ∧ t = u ++ y :: v' := by
  rcases List.eq_nil_or_concat v with rfl | ⟨v', z, rfl⟩
  · obtain ⟨ht, hx⟩ := List.append_inj' h rfl
    exact .inl ⟨rfl, List.cons.inj hx |>.1, ht⟩
  · rw [List.concat_eq_append, ← List.cons_append, ← List.append_assoc] at h
    obtain ⟨ht, hx⟩ := List.append_inj' h rfl
    obtain ⟨rfl, -⟩ := List.cons.inj hx
    exact .inr ⟨v', List.concat_eq_append .., ht⟩

/-- A program waits after an event if the event is a step that waits, or if it has waited before
and the event is no step that continues. -/
theorem waiting_concat :
    Waiting (t ++ [x]) ↔ x = step .awaitingKey ∨ x ≠ step .continue ∧ Waiting t := by
  constructor
  · rintro ⟨u, v, ht, hv⟩
    rcases concat_eq_append_cons ht with ⟨-, hx, -⟩ | ⟨v', rfl, ht'⟩
    · exact .inl hx
    · rw [List.mem_append, List.mem_singleton, not_or] at hv
      exact .inr ⟨fun hx => hv.2 hx.symm, u, v', ht', hv.1⟩
  · rintro (rfl | ⟨hx, u, v, rfl, hv⟩)
    · exact ⟨t, [], rfl, List.not_mem_nil⟩
    · refine ⟨u, v ++ [x], by rw [List.append_assoc, List.cons_append], ?_⟩
      rw [List.mem_append, List.mem_singleton, not_or]
      exact ⟨hv, fun hx' => hx hx'.symm⟩

theorem onlyRepeats_concat {u w : List KeyEvent} : OnlyRepeats u (w ++ [x]) ↔
    OnlyRepeats u w ∧ ∀ k, x = down k → isDown (u ++ w) k = true := by
  constructor
  · refine fun h => ⟨fun v k v' hw => h v k (v' ++ [x]) ?_, fun k hx => h w k [] ?_⟩
    · rw [hw, List.append_assoc, List.cons_append]
    · rw [hx]
  · rintro ⟨hw, hx⟩ v k v' hv
    rcases concat_eq_append_cons hv with ⟨-, hk, rfl⟩ | ⟨v'', -, hv'⟩
    · exact hx k hk
    · exact hw v k v'' hv'

/-- The wait is ended by the key that goes down with the last event, or by the same key as before,
if the event leaves it so. -/
theorem pressed_concat : Pressed (t ++ [x]) key ↔
    x = down key ∧ isDown t key = false ∧ Waiting t ∨
      x ≠ step .continue ∧ x ≠ releaseAll ∧ (∀ k, x = down k → isDown t k = true) ∧
        Pressed t key := by
  constructor
  · rintro ⟨u, w, ht, hu, hup, hcontinue, hall, hrepeats⟩
    rcases concat_eq_append_cons ht with ⟨-, hx, rfl⟩ | ⟨w', rfl, rfl⟩
    · exact .inl ⟨hx, hup, hu⟩
    · rw [List.mem_append, List.mem_singleton, not_or] at hcontinue hall
      rw [onlyRepeats_concat, List.append_assoc] at hrepeats
      exact .inr ⟨fun hx => hcontinue.2 hx.symm, fun hx => hall.2 hx.symm, hrepeats.2,
        u, w', rfl, hu, hup, hcontinue.1, hall.1, hrepeats.1⟩
  · rintro (⟨rfl, hup, hu⟩ | ⟨hcontinue, hall, hrepeats, u, w, rfl, hu, hup, hcontinue', hall',
      hrepeats'⟩)
    · exact ⟨t, [], rfl, hu, hup, List.not_mem_nil, List.not_mem_nil, fun v k v' hv => by
        cases List.append_ne_nil_of_right_ne_nil v (List.cons_ne_nil _ _) hv.symm⟩
    · refine ⟨u, w ++ [x], by rw [List.append_assoc, List.cons_append], hu, hup, ?_, ?_, ?_⟩
      · rw [List.mem_append, List.mem_singleton, not_or]
        exact ⟨hcontinue', fun hx => hcontinue hx.symm⟩
      · rw [List.mem_append, List.mem_singleton, not_or]
        exact ⟨hall', fun hx => hall hx.symm⟩
      · rw [onlyRepeats_concat, List.append_assoc]
        exact ⟨hrepeats', hrepeats⟩

theorem waiting_concat_of_ne (hwaits : x ≠ step .awaitingKey) (hcontinues : x ≠ step .continue) :
    Waiting (t ++ [x]) ↔ Waiting t :=
  waiting_concat.trans ⟨fun h => (h.resolve_left hwaits).2, fun h => .inr ⟨hcontinues, h⟩⟩

theorem pressed_concat_of_ne (hcontinues : x ≠ step .continue) (hall : x ≠ releaseAll)
    (hrepeats : ∀ k, x = down k → isDown t k = true) : Pressed (t ++ [x]) key ↔ Pressed t key := by
  rw [pressed_concat]
  constructor
  · rintro (⟨hx, hup, -⟩ | ⟨-, -, -, h⟩)
    · rw [hrepeats key hx] at hup
      cases hup
    · exact h
  · exact fun h => .inr ⟨hcontinues, hall, hrepeats, h⟩

/-- A key that would end the wait was pressed during the wait. -/
theorem waiting_of_pressed (h : Pressed t key) : Waiting t := by
  obtain ⟨u, w, rfl, ⟨u', v, rfl, hv⟩, -, hw, -⟩ := h
  refine ⟨u', v ++ down key :: w, by rw [List.append_assoc, List.cons_append], ?_⟩
  rw [List.mem_append, List.mem_cons, not_or, not_or]
  exact ⟨hv, by rintro ⟨⟩, hw⟩

/-- **Repetitions end no wait**: if keys that are down already are all that has been pressed since
the wait began, no key ends it. -/
theorem not_pressed_of_onlyRepeats {u v : List KeyEvent} (hu : ¬Waiting u)
    (hv : OnlyRepeats (u ++ [step .awaitingKey]) v) :
    ¬Pressed (u ++ step .awaitingKey :: v) key := by
  induction v using List.reverseRecOn with
  | nil =>
    rw [pressed_concat]
    rintro (⟨hx, -⟩ | ⟨-, -, -, hpressed⟩)
    · cases hx
    · exact hu (waiting_of_pressed hpressed)
  | append_singleton v x ih =>
    rw [onlyRepeats_concat, List.append_assoc] at hv
    rw [← List.cons_append, ← List.append_assoc, pressed_concat]
    rintro (⟨hx, hup, -⟩ | ⟨-, -, -, hpressed⟩)
    · have hdown := hv.2 key hx
      rw [← List.singleton_append, hdown] at hup
      cases hup
    · exact ih hv.1 hpressed

end KeyEvent

/-! ### The keypad and the history -/

namespace Keypad

open KeyEvent

/-- The keypad knows which keys are down after the history, whether the program waits, and which
key ends the wait. -/
structure Remembers (k : Keypad) (t : List KeyEvent) : Prop where
  isHeld_eq : ∀ key, k.isHeld key = isDown t key
  awaiting_iff : k.awaiting = true ↔ Waiting t
  latch_iff : ∀ key, k.awaiting = true ∧ k.latch = some key ↔ Pressed t key

variable {k : Keypad} {t : List KeyEvent}

theorem remembers_fresh : fresh.Remembers [] where
  isHeld_eq key := Vector.getElem_replicate key.isLt
  awaiting_iff := ⟨fun h => (nomatch h), fun ⟨u, v, ht, _⟩ => by
    cases List.append_ne_nil_of_right_ne_nil u (List.cons_ne_nil _ v) ht.symm⟩
  latch_iff key := ⟨fun h => (nomatch h.1), fun ⟨u, w, ht, _⟩ => by
    cases List.append_ne_nil_of_right_ne_nil u (List.cons_ne_nil _ w) ht.symm⟩

theorem Remembers.of_ne (h : k.Remembers t) {x : KeyEvent} {k' : Keypad}
    (hheld : ∀ key, k'.isHeld key = leavesDown key (k.isHeld key) x)
    (hwait : k'.awaiting = k.awaiting) (hlatch : k'.latch = k.latch)
    (hwaits : x ≠ .step .awaitingKey) (hcontinues : x ≠ .step .continue) (hall : x ≠ .releaseAll)
    (hrepeats : ∀ key, x = .down key → isDown t key = true) : k'.Remembers (t ++ [x]) where
  isHeld_eq key := by rw [hheld, h.isHeld_eq, isDown_concat]
  awaiting_iff := by
    rw [hwait, waiting_concat_of_ne hwaits hcontinues]
    exact h.awaiting_iff
  latch_iff key := by
    rw [hwait, hlatch, pressed_concat_of_ne hcontinues hall hrepeats]
    exact h.latch_iff key

theorem Remembers.press (h : k.Remembers t) (key : Key) :
    (k.press key).Remembers (t ++ [.down key]) := by
  cases hheld : k.isHeld key with
  | true =>
    have hlatch : (k.press key).latch = k.latch := by rw [Keypad.press, if_pos hheld]
    refine h.of_ne (k.isHeld_press key) rfl hlatch (by rintro ⟨⟩) (by rintro ⟨⟩)
      (by rintro ⟨⟩) ?_
    rintro _ ⟨⟩
    rw [← h.isHeld_eq, hheld]
  | false =>
    have hup : isDown t key = false := by rw [← h.isHeld_eq, hheld]
    have hlatch : (k.press key).latch = some key := by
      rw [Keypad.press, if_neg (Bool.eq_false_iff.mp hheld)]
    refine ⟨fun key' => ?_, ?_, fun key' => ?_⟩
    · rw [isDown_concat, isHeld_press, h.isHeld_eq]
      rfl
    · rw [waiting_concat_of_ne (by rintro ⟨⟩) (by rintro ⟨⟩)]
      exact h.awaiting_iff
    · rw [pressed_concat, hlatch]
      constructor
      · rintro ⟨hwait, hkey⟩
        cases hkey
        exact .inl ⟨rfl, hup, h.awaiting_iff.mp hwait⟩
      · rintro (⟨hx, -, hwait⟩ | ⟨-, -, hrepeats, -⟩)
        · cases hx
          exact ⟨h.awaiting_iff.mpr hwait, rfl⟩
        · rw [hrepeats key rfl] at hup
          cases hup

theorem Remembers.release (h : k.Remembers t) (key : Key) :
    (k.release key).Remembers (t ++ [.up key]) :=
  h.of_ne (k.isHeld_release key) rfl rfl (by rintro ⟨⟩) (by rintro ⟨⟩) (by rintro ⟨⟩)
    (by rintro _ ⟨⟩)

theorem Remembers.releaseAll (h : k.Remembers t) :
    k.releaseAll.Remembers (t ++ [.releaseAll]) where
  isHeld_eq key := by
    rw [isDown_concat, isHeld_releaseAll]
    rfl
  awaiting_iff := by
    rw [waiting_concat_of_ne (by rintro ⟨⟩) (by rintro ⟨⟩)]
    exact h.awaiting_iff
  latch_iff key := by
    rw [pressed_concat]
    refine ⟨fun hkey => (nomatch hkey.2), ?_⟩
    rintro (⟨hx, -⟩ | ⟨-, hall, -⟩)
    · cases hx
    · exact absurd rfl hall

/-- A step that waits finds no key that would end the wait. -/
theorem Remembers.beginWait (h : k.Remembers t) (hno : ∀ key, ¬Pressed t key) :
    k.beginWait.Remembers (t ++ [.step .awaitingKey]) where
  isHeld_eq key := by
    rw [isDown_concat]
    exact h.isHeld_eq key
  awaiting_iff := by
    rw [waiting_concat]
    exact ⟨fun _ => .inl rfl, fun _ => rfl⟩
  latch_iff key := by
    rw [pressed_concat]
    refine ⟨fun hkey => (nomatch hkey.2), ?_⟩
    rintro (⟨hx, -⟩ | ⟨-, -, -, hpressed⟩)
    · cases hx
    · exact absurd hpressed (hno key)

theorem Remembers.endWait (h : k.Remembers t) (latch : Option Key) :
    ({ k with latch, awaiting := false } : Keypad).Remembers (t ++ [.step .continue]) where
  isHeld_eq key := by
    rw [isDown_concat]
    exact h.isHeld_eq key
  awaiting_iff := by
    rw [waiting_concat]
    refine ⟨fun hwait => (nomatch hwait), ?_⟩
    rintro (hx | ⟨hx, -⟩)
    · cases hx
    · exact absurd rfl hx
  latch_iff key := by
    rw [pressed_concat]
    refine ⟨fun hwait => (nomatch hwait.1), ?_⟩
    rintro (⟨hx, -⟩ | ⟨hx, -⟩)
    · cases hx
    · exact absurd rfl hx

theorem Remembers.step (h : k.Remembers t) (hidle : k.awaiting = false) {status : Status}
    (hs : status ≠ .awaitingKey) : k.Remembers (t ++ [.step status]) := by
  cases status with
  | awaitingKey => exact absurd rfl hs
  | halted r =>
    have hne : KeyEvent.step (.halted r) ≠ .step .awaitingKey := by rintro ⟨⟩
    exact h.of_ne (fun _ => rfl) rfl rfl hne (by rintro ⟨⟩) (by rintro ⟨⟩) (by rintro _ ⟨⟩)
  | «continue» =>
    have hsame : k = { k with awaiting := false } := by rw [← hidle]
    rw [hsame]
    exact h.endWait k.latch

end Keypad

/-! ### Steps at a word that waits for a key -/

namespace Machine

variable {m m' : Machine} {byte : UInt8}

/-- The word at the counter waits for a key. -/
def AtKeyWait (m : Machine) : Prop :=
  m.OnProgram ∧ Pattern.Matches ⟨0xF, any, 0, 0xA⟩ m.word

instance (m : Machine) : Decidable m.AtKeyWait :=
  inferInstanceAs (Decidable (_ ∧ _))

/-- The register that the second digit of the word at the counter names. -/
def namedRegister (m : Machine) : Register :=
  ⟨m.word / 0x100 % 16, Nat.mod_lt _ (by decide)⟩

/-- The machine after a key has ended its wait. -/
def keyTaken (m : Machine) (key : Key) : Machine :=
  { m with
    registers := { m.registers.set m.namedRegister key.val with counter := m.counter + 2 }
    keypad := { m.keypad with latch := none, awaiting := false }
    completed := m.completed + 1 }

theorem advance_of_atKeyWait (h : m.AtKeyWait) :
    m.advance = m.passed.execute (.awaitKey m.namedRegister) :=
  advance_of_decode h.1 ((Instruction.decode_eq_some_iff m.word_lt).mpr ⟨h.2, rfl⟩)

theorem step_of_latch (h : m.AtKeyWait) (hh : m.halted = none) {key : Key}
    (hwait : m.keypad.awaiting = true) (hlatch : m.keypad.latch = some key) :
    m.step byte = ⟨m.keyTaken key, .ok .continue, false⟩ := by
  have hadvance := advance_of_atKeyWait h
  have hpassed : m.passed.keypad = m.keypad := rfl
  rw [execute, hpassed, if_pos hwait] at hadvance
  simp only [Keypad.consume, hlatch] at hadvance
  exact step_of_completed hh hadvance byte

theorem step_of_no_latch (h : m.AtKeyWait) (hh : m.halted = none)
    (hno : ∀ key, ¬(m.keypad.awaiting = true ∧ m.keypad.latch = some key)) :
    m.step byte = ⟨{ m with keypad := m.keypad.beginWait }, .ok .awaitingKey, false⟩ := by
  refine step_of_status_awaitingKey ?_
  have hadvance := advance_of_atKeyWait h
  have hpassed : m.passed.keypad = m.keypad := rfl
  rw [execute, hpassed] at hadvance
  split at hadvance
  · next hwait =>
    cases hlatch : m.keypad.latch with
    | some key => exact absurd ⟨hwait, hlatch⟩ (hno key)
    | none =>
      simp only [Keypad.consume, hlatch] at hadvance
      rw [step_of_waiting hh hadvance]
  · rw [step_of_waiting hh hadvance]

theorem advance_of_not_atKeyWait (h : ¬m.AtKeyWait) :
    (∀ m', m.advance ≠ .waiting m') ∧
      ∀ m', m.advance = .completed m' → m'.keypad = m.keypad := by
  rcases m.advance_cases with ⟨m₁, r, hr⟩ | ⟨hc, i, hw, hi⟩
  · rw [hr]
    exact ⟨by rintro m' ⟨⟩, by rintro m' ⟨⟩⟩
  · have hkey (x : Register) : i ≠ .awaitKey x := by
      rintro rfl
      exact h ⟨hc, (Instruction.reads_of_decode m.word_lt hw).1⟩
    refine ⟨fun m' ha => ?_, fun m' ha => ?_⟩
    · obtain ⟨⟨x, hx⟩, -⟩ := execute_eq_waiting (hi.symm.trans ha)
      exact hkey x hx
    · exact (carries_execute (hi.symm.trans ha)).keypad_eq hkey

theorem step_of_not_atKeyWait (h : ¬m.AtKeyWait) (byte : UInt8) :
    (m.step byte).status ≠ .ok .awaitingKey ∧ (m.step byte).machine.keypad = m.keypad := by
  obtain ⟨hwaits, hcompletes⟩ := advance_of_not_atKeyWait h
  have hending := m.ending_step byte
  generalize m.step byte = result at hending ⊢
  cases hending with
  | completed hh ha =>
    have hkeypad := hcompletes _ ha
    exact ⟨by rintro ⟨⟩, hkeypad⟩
  | waiting hh ha => exact absurd ha (hwaits _)
  | stopped | halted | drawing | refused => exact ⟨by rintro ⟨⟩, rfl⟩

theorem halted_step_of_not_atKeyWait (h : ¬m.AtKeyWait)
    (hh : (m.step byte).machine.halted ≠ none) : ¬(m.step byte).machine.AtKeyWait := by
  by_cases hhalts : ∃ r, (m.step byte).status = .ok (.halted r)
  · obtain ⟨r, hr⟩ := hhalts
    rw [step_of_status_halted hr]
    exact h
  · exact absurd (halted_step fun r hr => hhalts ⟨r, hr⟩) hh

end Machine

end Chip8
