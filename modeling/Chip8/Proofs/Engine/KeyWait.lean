import Chip8.Proofs.Engine.Finality
import Chip8.Proofs.Machine.KeyWait

/-!
# Waiting for a key over a run

A host loads, starts and retires an engine, asks for steps and ticks, and moves
keys, in any order; it writes neither registers nor memory.  The history of the
run settles what a step does at a word that waits for a key: it completes if a
key has ended the wait, and otherwise it waits.

* `remembers_makeAll`: what the engine knows of the history of a run.
* `key_wait_is_settled`: the steps at a word that waits.
-/

namespace Chip8

open HostM
open KeyEvent (Waiting Pressed OnlyRepeats)

namespace Engine

/-- The engine knows of the history what the next step needs. -/
structure Remembers (e : Engine) (t : List KeyEvent) : Prop where
  keypad : e.machine.keypad.Remembers t
  lastStatus_iff : e.lastStatus = some .awaitingKey ↔ Waiting t
  waiting : Waiting t → e.machine.halted = none ∧ e.machine.AtKeyWait
  halted : e.machine.halted ≠ none → ¬e.machine.AtKeyWait
  /-- Before the start the program neither waits nor has halted. -/
  idle : e.started = false → ¬Waiting t ∧ e.machine.halted = none

theorem remembers_fresh (dialect : Dialect) (draws : List (Draw Request)) (owner : Option Nat)
    (generation : Int) : (fresh dialect draws owner generation).Remembers [] := by
  have hkeypad : (fresh dialect draws owner generation).machine.keypad.Remembers [] :=
    Keypad.remembers_fresh
  have hno : ¬Waiting [] := fun hw => nomatch hkeypad.awaiting_iff.mpr hw
  exact ⟨hkeypad, ⟨fun h => (nomatch h), fun hw => absurd hw hno⟩, fun hw => absurd hw hno,
    fun h => absurd rfl h, fun _ => ⟨hno, rfl⟩⟩

variable {e : Engine} {t : List KeyEvent}

theorem Remembers.moved (h : e.Remembers t) {x : KeyEvent} {k : Keypad}
    (hwaits : x ≠ .step .awaitingKey) (hcontinues : x ≠ .step .continue)
    (hk : k.Remembers (t ++ [x])) :
    (e.withMachine { e.machine with keypad := k }).Remembers (t ++ [x]) := by
  have hw := KeyEvent.waiting_concat_of_ne (t := t) hwaits hcontinues
  exact ⟨hk, h.lastStatus_iff.trans hw.symm, fun hx => h.waiting (hw.mp hx), h.halted,
    fun hs => ⟨fun hx => (h.idle hs).1 (hw.mp hx), (h.idle hs).2⟩⟩

theorem remembers_of_not_waiting (hkeypad : e.machine.keypad.Remembers t) (hno : ¬Waiting t)
    (hlast : e.lastStatus ≠ some .awaitingKey)
    (hhalted : e.machine.halted ≠ none → ¬e.machine.AtKeyWait) (hs : e.started = true) :
    e.Remembers t where
  keypad := hkeypad
  lastStatus_iff := ⟨fun h => absurd h hlast, fun hw => absurd hw hno⟩
  waiting hw := absurd hw hno
  halted := hhalted
  idle hs' := by
    rw [hs] at hs'
    cases hs'

theorem Remembers.not_halted (h : e.Remembers t) (hat : e.machine.AtKeyWait) :
    e.machine.halted = none :=
  Decidable.not_not.mp fun hh => h.halted hh hat

theorem reaction_of_pressed (h : e.Remembers t) (hat : e.machine.AtKeyWait) {key : Key}
    (hkey : Pressed t key) : e.reaction = ⟨e.machine.keyTaken key, .ok .continue, false⟩ := by
  obtain ⟨hwait, hlatch⟩ := (h.keypad.latch_iff key).mpr hkey
  exact Machine.step_of_latch hat (h.not_halted hat) hwait hlatch

theorem reaction_of_not_pressed (h : e.Remembers t) (hat : e.machine.AtKeyWait)
    (hno : ∀ key, ¬Pressed t key) :
    e.reaction = ⟨{ e.machine with keypad := e.machine.keypad.beginWait },
      .ok .awaitingKey, false⟩ :=
  Machine.step_of_no_latch hat (h.not_halted hat)
    fun key hkey => hno key ((h.keypad.latch_iff key).mp hkey)

theorem Remembers.taken (h : e.Remembers t) (hs : e.started = true) (hat : e.machine.AtKeyWait)
    {key : Key} (hkey : Pressed t key) :
    e.stepped.Remembers (t ++ e.outcome.toOption.toList.map .step) := by
  have hreaction := reaction_of_pressed h hat hkey
  rw [stepped_of_reaction hreaction, outcome_eq_ok_iff.mpr (congrArg _ hreaction)]
  have hkeypad := h.keypad.endWait none
  exact remembers_of_not_waiting hkeypad
    (fun hw => (nomatch hkeypad.awaiting_iff.mpr hw)) (by rintro ⟨⟩)
    (fun hh => absurd (h.not_halted hat) hh) hs

theorem Remembers.awaited (h : e.Remembers t) (hs : e.started = true) (hat : e.machine.AtKeyWait)
    (hno : ∀ key, ¬Pressed t key) :
    e.stepped.Remembers (t ++ e.outcome.toOption.toList.map .step) := by
  have hreaction := reaction_of_not_pressed h hat hno
  rw [stepped_of_reaction hreaction, outcome_eq_ok_iff.mpr (congrArg _ hreaction)]
  have hwait : Waiting (t ++ [.step .awaitingKey]) := ⟨t, [], rfl, List.not_mem_nil⟩
  refine ⟨h.keypad.beginWait hno, ⟨fun _ => hwait, fun _ => rfl⟩, fun _ => ⟨h.not_halted hat, hat⟩,
    fun hh => absurd (h.not_halted hat) hh, fun hs' => ?_⟩
  rw [show e.started = false from hs'] at hs
  cases hs

theorem Remembers.passed (h : e.Remembers t) (hs : e.started = true)
    (hat : ¬e.machine.AtKeyWait) :
    e.stepped.Remembers (t ++ e.outcome.toOption.toList.map .step) := by
  obtain ⟨hwaits, hkeypad⟩ := Machine.step_of_not_atKeyWait hat e.source.nextByte
  have hno : ¬Waiting t := fun hw => hat (h.waiting hw).2
  have hidle : e.machine.keypad.awaiting = false :=
    Bool.eq_false_iff.mpr fun hw => hno (h.keypad.awaiting_iff.mp hw)
  have hwaits' : e.outcome ≠ .ok .awaitingKey := fun ho => hwaits (outcome_eq_ok_iff.mp ho)
  have hkept : e.machine.keypad.Remembers (t ++ e.outcome.toOption.toList.map .step) := by
    cases ho : e.outcome with
    | error r =>
      show e.machine.keypad.Remembers (t ++ [])
      rw [List.append_nil]
      exact h.keypad
    | ok status => exact h.keypad.step hidle fun hstatus => hwaits' (hstatus ▸ ho)
  have hlast : e.stepped.lastStatus ≠ some .awaitingKey := by
    rw [stepped]
    cases ho : e.outcome with
    | error r => exact fun hl => hno (h.lastStatus_iff.mp hl)
    | ok status => exact fun hl => hwaits' (ho.trans (congrArg _ (Option.some.inj hl)))
  obtain ⟨source, lastStatus, heq⟩ := e.stepped_eq
  rw [heq] at hlast ⊢
  refine remembers_of_not_waiting ?_ (fun hw => ?_) hlast
    (Machine.halted_step_of_not_atKeyWait hat) hs
  · show (e.machine.step e.source.nextByte).machine.keypad.Remembers _
    rw [hkeypad]
    exact hkept
  · rw [← hkept.awaiting_iff, hidle] at hw
    cases hw

theorem Remembers.stepped (h : e.Remembers t) (hs : e.started = true) :
    e.stepped.Remembers (t ++ e.outcome.toOption.toList.map .step) := by
  by_cases hat : e.machine.AtKeyWait
  · by_cases hkey : ∃ key, Pressed t key
    · obtain ⟨key, hkey⟩ := hkey
      exact h.taken hs hat hkey
    · exact h.awaited hs hat fun key hk => hkey ⟨key, hk⟩
  · exact h.passed hs hat

end Engine

namespace EngineCall

section Run

variable (perform : Request → HostM Reply) (c : Nat)

/-- What a call adds to the history: the report of a step, or the move of a key. -/
def keyEvents (h : Host) : EngineCall → List KeyEvent
  | step => (report perform c h step).map .step
  | key code down =>
    ((Keypad.key? code).map fun k => if down then .down k else .up k).toList
  | releaseAll => [.releaseAll]
  | _ => []

def keyHistory : Host → List EngineCall → List KeyEvent
  | _, [] => []
  | h, call :: rest => call.keyEvents perform c h ++ keyHistory (call.make perform c h).2 rest

end Run

variable {perform : Request → HostM Reply} {c : Nat} {h : Host} {e : Engine} {t : List KeyEvent}

theorem remembers_after (hr : e.Remembers t) {call : EngineCall} (hstep : call ≠ .step)
    (hpoke : ∀ address data, call ≠ .poke address data) :
    (after e call).Remembers (t ++ call.keyEvents perform c h) := by
  cases call with
  | step => exact absurd rfl hstep
  | poke address data => exact absurd rfl (hpoke address data)
  | load data name =>
    show (e.orSelf (e.load data name)).Remembers (t ++ [])
    rw [List.append_nil]
    cases hs : e.started with
    | true =>
      rw [Engine.load_of_started hs]
      exact hr
    | false =>
      -- What a load may change, a program that has not been started has not come to yet.
      obtain ⟨hno, hrun⟩ := hr.idle hs
      cases hl : e.load data name with
      | error r => exact hr
      | ok e' =>
        obtain ⟨memory, rfl⟩ := Engine.load_eq_ok hl
        exact ⟨hr.keypad, hr.lastStatus_iff, fun hw => absurd hw hno, fun hh => absurd hrun hh,
          fun _ => ⟨hno, hrun⟩⟩
  | start =>
    show (e.orSelf e.start).Remembers (t ++ [])
    rw [List.append_nil]
    cases hs : e.start with
    | error r => exact hr
    | ok e' =>
      rw [Engine.start_eq_ok hs]
      exact ⟨hr.keypad, hr.lastStatus_iff, hr.waiting, hr.halted, fun hs' => (nomatch hs')⟩
  | retire | tick =>
    show Engine.Remembers _ (t ++ [])
    rw [List.append_nil]
    exact ⟨hr.keypad, hr.lastStatus_iff, hr.waiting, hr.halted, hr.idle⟩
  | releaseAll => exact hr.moved (by rintro ⟨⟩) (by rintro ⟨⟩) hr.keypad.releaseAll
  | key code down =>
    rw [after, Engine.keyed, keyEvents]
    cases Keypad.key? code with
    | none =>
      show e.Remembers (t ++ [])
      rw [List.append_nil]
      exact hr
    | some key =>
      cases down with
      | true => exact hr.moved (by rintro ⟨⟩) (by rintro ⟨⟩) (hr.keypad.press key)
      | false => exact hr.moved (by rintro ⟨⟩) (by rintro ⟨⟩) (hr.keypad.release key)

theorem remembers_make (perform : Request → HostM Reply) (he : h.engines[c]? = some e)
    (ha : e.Alone) (hr : e.Remembers t) {call : EngineCall}
    (hpoke : ∀ address data, call ≠ .poke address data) :
    ∃ e', (call.make perform c h).2.engines[c]? = some e' ∧ e'.Alone ∧
      e'.Remembers (t ++ call.keyEvents perform c h) := by
  refine ⟨_, engines_make he ha call, alone_after ha call, ?_⟩
  by_cases hstep : call = .step
  · subst hstep
    rw [after, keyEvents, report]
    cases hs : e.started with
    | false =>
      rw [stepEngine_of_not_started he hs]
      show e.Remembers (t ++ [])
      rw [List.append_nil]
      exact hr
    | true =>
      rw [stepEngine_apply he hs ha.free (Engine.undisturbed_of_isPlain ha.plain)]
      exact hr.stepped hs
  · exact remembers_after hr hstep hpoke

/-- **The engine remembers the run.** -/
theorem remembers_makeAll (perform : Request → HostM Reply) (he : h.engines[c]? = some e)
    (ha : e.Alone) (hr : e.Remembers t) {calls : List EngineCall}
    (hpoke : ∀ address data, .poke address data ∉ calls) :
    ∃ e', (makeAll perform c calls h).2.engines[c]? = some e' ∧ e'.Alone ∧
      e'.Remembers (t ++ keyHistory perform c h calls) := by
  induction calls generalizing h e t with
  | nil =>
    rw [keyHistory, List.append_nil]
    exact ⟨e, he, ha, hr⟩
  | cons call rest ih =>
    obtain ⟨e₁, he₁, ha₁, hr₁⟩ := remembers_make perform he ha hr
      fun address data hcall => hpoke address data (hcall ▸ List.mem_cons_self)
    rw [makeAll, bind_of_ok (attempt_apply _ _), keyHistory, ← List.append_assoc]
    exact ih he₁ ha₁ hr₁ fun address data hmem => hpoke address data (List.mem_cons_of_mem _ hmem)

end EngineCall

open EngineCall

/-- **What ends a wait for a key.**  Take a new engine and any run of calls on it that writes
neither registers nor memory.  The program waits exactly if the last status of the engine says so,
and then it is at a word that waits for a key.  A step at such a word completes exactly if a key has
ended the wait: it stores the key, moves the counter past the word and ends the wait.  Otherwise the
step reports a wait and changes nothing but the state of the wait.  Keys that were down when the
wait began, and repetitions of their presses, do not end it. -/
theorem key_wait_is_settled (perform : Request → HostM Reply) {h : Host} {c : Nat}
    {dialect : Dialect} {draws : List (Draw Request)} {owner : Option Nat} {generation : Int}
    (he : h.engines[c]? = some (Engine.fresh dialect draws owner generation))
    (hdraws : ∀ d ∈ draws, d.before = none) {calls : List EngineCall}
    (hpoke : ∀ address data, .poke address data ∉ calls) :
    let h' := (makeAll perform c calls h).2
    let t := keyHistory perform c h calls
    let step := HostM.stepEngine perform c h'
    ∃ e, h'.engines[c]? = some e ∧
      (e.machine.keypad.awaiting = true ↔ e.lastStatus = some .awaitingKey) ∧
      (e.lastStatus = some .awaitingKey → e.machine.AtKeyWait) ∧
      (e.started = true → e.machine.AtKeyWait → ∃ e', step.2.engines[c]? = some e' ∧
        (∀ key, Pressed t key →
          step.1 = .ok .continue ∧ e'.machine = e.machine.keyTaken key) ∧
        ((∀ key, ¬Pressed t key) → step.1 = .ok .awaitingKey ∧
          e'.machine = { e.machine with keypad := e.machine.keypad.beginWait }) ∧
        ∀ u v, t = u ++ .step .awaitingKey :: v → ¬Waiting u →
          OnlyRepeats (u ++ [.step .awaitingKey]) v → step.1 = .ok .awaitingKey) := by
  intro h' t step
  obtain ⟨e, he', halone, hr⟩ := remembers_makeAll perform he ⟨rfl, hdraws⟩
    (Engine.remembers_fresh dialect draws owner generation) hpoke
  refine ⟨e, he', hr.keypad.awaiting_iff.trans hr.lastStatus_iff.symm,
    fun hl => (hr.waiting (hr.lastStatus_iff.mp hl)).2, fun hstarted hat => ?_⟩
  have hstep : step = (e.outcome, (h'.putEngine c e.stepped).addLines e.stepLines) :=
    HostM.stepEngine_apply he' hstarted halone.free
    (Engine.undisturbed_of_isPlain halone.plain)
  have hwaits (hno : ∀ key, ¬Pressed t key) : step.1 = .ok .awaitingKey := by
    rw [hstep]
    exact Engine.outcome_eq_ok_iff.mpr
      (congrArg Machine.StepResult.status (Engine.reaction_of_not_pressed hr hat hno))
  refine ⟨e.stepped, by rw [hstep]; exact Host.engines_putEngine he', fun key hkey => ⟨?_, ?_⟩,
    fun hno => ⟨hwaits hno, ?_⟩, fun u v ht hu hv => hwaits fun key => ?_⟩
  · rw [hstep]
    exact Engine.outcome_eq_ok_iff.mpr
      (congrArg Machine.StepResult.status (Engine.reaction_of_pressed hr hat hkey))
  · rw [Engine.stepped_of_reaction (Engine.reaction_of_pressed hr hat hkey)]
  · rw [Engine.stepped_of_reaction (Engine.reaction_of_not_pressed hr hat hno)]
  · rw [ht]
    exact KeyEvent.not_pressed_of_onlyRepeats hu hv

/-- Key 5 is down when the wait begins and is pressed again; key 3 goes down and up. -/
def waitingCalls : List EngineCall :=
  [.load [0xF7, 0x0A] "WAIT", .start, .key 5 true, .step, .key 5 true, .key 3 true, .key 3 false]

/-- Key 3 ends the wait, although it is up again. -/
theorem key_wait_is_settled_of_short_press :
    let h := newHost .plain [⟨none, 7⟩]
    (HostM.stepEngine HostM.perform 0
        (makeAll HostM.perform 0 waitingCalls h).2).1 = .ok .continue ∧
      ∃ e', (HostM.stepEngine HostM.perform 0
        (makeAll HostM.perform 0 waitingCalls h).2).2.engines[0]? = some e' ∧
        e'.machine.v 7 = 3 ∧ e'.machine.counter = 0x202 ∧ e'.machine.keypad.awaiting = false := by
  intro h
  have hhistory : keyHistory HostM.perform 0 h waitingCalls =
      [.down 5, .step .awaitingKey, .down 5, .down 3, .up 3] := by decide +kernel
  have hnext : (makeAll HostM.perform 0 waitingCalls h).2.engines[0]?.all
      (fun e => e.started && decide e.machine.AtKeyWait && e.machine.namedRegister == 7 &&
        e.machine.counter == 0x200) = true := by decide +kernel
  have hpoke (address : Int) (data : List UInt8) : .poke address data ∉ waitingCalls := by
    simp [waitingCalls]
  have hkey : Pressed [.down 5, .step .awaitingKey, .down 5, .down 3, .up 3] 3 := by
    refine ⟨[.down 5, .step .awaitingKey, .down 5], [.up 3], rfl, ⟨[.down 5], [.down 5], rfl, ?_⟩,
      by decide, by decide, by decide, ?_⟩
    · decide
    · rintro v key v' hv
      rcases v with _ | ⟨x, v⟩
      · cases hv
      · cases List.append_ne_nil_of_right_ne_nil v (List.cons_ne_nil _ _) (List.cons.inj hv).2.symm
  obtain ⟨e, he, -, -, hstep⟩ := key_wait_is_settled HostM.perform
    (h := h) (c := 0) rfl (by simp) hpoke
  rw [he] at hnext
  simp only [Option.all_some, Bool.and_eq_true, decide_eq_true_eq, beq_iff_eq] at hnext
  obtain ⟨⟨⟨hstarted, hat⟩, hregister⟩, hcounter⟩ := hnext
  rw [hhistory] at hstep
  obtain ⟨e', he', hpressed, -⟩ := hstep hstarted hat
  obtain ⟨hcontinue, hmachine⟩ := hpressed 3 hkey
  refine ⟨hcontinue, e', he', ?_, ?_, ?_⟩
  · rw [hmachine, Machine.v, Machine.keyTaken, hregister]
    exact (Registers.get_set _ _ _ _).trans (if_pos rfl)
  · rw [hmachine, Machine.keyTaken]
    show e.machine.counter + 2 = 0x202
    rw [hcounter]
    rfl
  · rw [hmachine]
    rfl

end Chip8
