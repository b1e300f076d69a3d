import Chip8.Proofs.Engine.Subroutines
import Chip8.Proofs.Machine.Dialects

/-!
# Runs in another dialect

Two engines that differ in nothing but their dialects are used in the same way:
the same programs are loaded into them, the same random bytes come, and keys,
ticks and writes at the same points.  They go through the same run, as long as
no instruction that is completed is concerned by a variant in which the dialects
differ.

A run is seen as its `course`: how each step has ended, and the engine after each
use.  `executed` lists the words of the instructions that it completes.

* `after_inDialect`: one use of an engine.
* `course_inDialect`: a whole run, by induction on the uses.
-/

namespace Chip8

open HostM

namespace Engine

variable {e : Engine} {d : Dialect}

def inDialect (e : Engine) (d : Dialect) : Engine :=
  e.withMachine (e.machine.inDialect d)

@[simp] theorem machine_inDialect (e : Engine) (d : Dialect) :
    (e.inDialect d).machine = e.machine.inDialect d := rfl

@[simp] theorem inDialect_started (e : Engine) (d : Dialect) :
    (e.inDialect d).started = e.started := rfl

@[simp] theorem inDialect_busy (e : Engine) (d : Dialect) : (e.inDialect d).busy = e.busy := rfl

theorem load_inDialect (e : Engine) (d : Dialect) (data : List UInt8) (name : String) :
    (e.inDialect d).load data name = (e.load data name).map (·.inDialect d) := by
  rw [load, load, inDialect_started]
  cases e.started with
  | true => rfl
  | false =>
    cases Cartridge.check data with
    | error r => rfl
    | ok data' =>
      rw [inDialect_busy, machine_inDialect, Machine.inDialect_memory]
      cases e.busy with
      | true => rfl
      | false =>
        dsimp only
        rcases hw : e.machine.memory.writeBlock programStart
          (data'.map fun b => (b.toNat : Int)) with ⟨memory, o | ⟨⟩⟩
        · rw [hw]
          rfl
        · rw [hw]
          rfl

theorem start_inDialect (e : Engine) (d : Dialect) :
    (e.inDialect d).start = e.start.map (·.inDialect d) := by
  show (if e.retired = true then _ else if e.rom.isNone = true then _ else _) = _
  rw [start]
  split
  · rfl
  · split <;> rfl

theorem orSelf_inDialect (e : Engine) (d : Dialect) (result : Except Refusal Engine) :
    (e.inDialect d).orSelf (result.map (·.inDialect d)) = (e.orSelf result).inDialect d := by
  cases result <;> rfl

theorem poked_inDialect (m : Machine) (d : Dialect) (address : Int) (data : List UInt8) :
    poked (m.inDialect d) address data = (poked m address data).inDialect d := by
  rw [poked, poked, Machine.inDialect_memory]
  rcases hw : m.memory.writeBlock address (data.map fun b => (b.toNat : Int)) with
    ⟨memory, o | ⟨⟩⟩
  · rw [hw]
  · rw [hw]
    rfl

theorem foldl_setV_inDialect (v : List (Register × Int)) (m : Machine) (d : Dialect) :
    v.foldl (fun m (x, value) => m.setV x value) (m.inDialect d) =
      (v.foldl (fun m (x, value) => m.setV x value) m).inDialect d := by
  induction v generalizing m with
  | nil => rfl
  | cons write rest ih => exact ih (m.setV write.1 write.2)

theorem written_inDialect (m : Machine) (d : Dialect) (v : List (Register × Int))
    (index flag : Option Int) :
    written (m.inDialect d) v index flag = (written m v index flag).inDialect d := by
  rw [written, written, foldl_setV_inDialect]
  cases index <;> cases flag <;> rfl

/-- No variant in which the dialects differ concerns the instruction that the next step completes.
-/
def Unconcerned (e : Engine) (d : Dialect) : Prop :=
  e.outcome = .ok .continue → ∀ v : Variant, v.Concerns e.machine.word →
    e.machine.dialect.has v = d.has v

theorem Unconcerned.reaction (h : e.Unconcerned d) :
    (e.inDialect d).reaction = e.reaction.inDialect d :=
  Machine.step_inDialect _ fun hs => h (outcome_eq_ok_iff.mpr hs)

theorem Unconcerned.outcome (h : e.Unconcerned d) : (e.inDialect d).outcome = e.outcome := by
  rw [Engine.outcome, h.reaction]
  rfl

theorem Unconcerned.stepped (h : e.Unconcerned d) :
    (e.inDialect d).stepped = e.stepped.inDialect d := by
  rw [Engine.stepped, h.outcome, h.reaction, Engine.stepped]
  cases e.outcome <;> rfl

theorem dialect_stepped (e : Engine) : e.stepped.machine.dialect = e.machine.dialect := by
  obtain ⟨source, lastStatus, heq⟩ := e.stepped_eq
  rw [heq]
  exact (e.machine.sameFrame_step e.source.nextByte).dialect_eq

theorem dialect_foldl_setV (v : List (Register × Int)) (m : Machine) :
    (v.foldl (fun m (x, value) => m.setV x value) m).dialect = m.dialect := by
  induction v generalizing m with
  | nil => rfl
  | cons write rest ih => exact ih _

theorem dialect_written (m : Machine) (v : List (Register × Int)) (index flag : Option Int) :
    (written m v index flag).dialect = m.dialect := by
  rw [← dialect_foldl_setV v m]
  cases index <;> cases flag <;> rfl

end Engine

namespace EngineUse

/-- What a use makes of an engine that is free and whose source is plain. -/
def after (e : Engine) : EngineUse → Engine
  | .call asked => asked.after e
  | .write v index flag => e.withMachine (Engine.written e.machine v index flag)

section Run

variable (perform : Request → HostM Reply) (c : Nat)

def ending? (h : Host) : EngineUse → Option (Except Refusal Status)
  | .call .step => some (stepEngine perform c h).1
  | _ => none

/-- What a run shows, use by use: how the steps have ended, and the engine after each use. -/
def course : Host → List EngineUse → List (Option (Except Refusal Status) × Option Engine)
  | _, [] => []
  | h, use :: rest =>
    let h' := (make perform c use h).2
    (ending? perform c h use, h'.engines[c]?) :: course h' rest

/-- The word of the instruction that a use completes, if it is a step that continues. -/
def words (h : Host) : EngineUse → List Nat
  | .call .step =>
    match (stepEngine perform c h).1, h.engines[c]? with
    | .ok .continue, some e => [e.machine.word]
    | _, _ => []
  | _ => []

/-- The words of the instructions that a run completes, the earliest first. -/
def executed : Host → List EngineUse → List Nat
  | _, [] => []
  | h, use :: rest => words perform c h use ++ executed (make perform c use h).2 rest

end Run

variable {perform perform' : Request → HostM Reply} {c c' : Nat} {h h' : Host} {e : Engine}
  {d : Dialect}

/-! ### One use -/

/-- **A use does to the engine what `after` says.** -/
theorem engines_make (he : h.engines[c]? = some e) (ha : e.Alone) (use : EngineUse) :
    (make perform c use h).2.engines[c]? = some (after e use) := by
  cases use with
  | call asked => exact EngineCall.engines_make he ha asked
  | write v index flag =>
    rw [make, EngineCall.bind_discard_apply]
    exact engines_setRegisters he v index flag

theorem alone_after (ha : e.Alone) (use : EngineUse) : (after e use).Alone := by
  cases use with
  | call asked => exact EngineCall.alone_after ha asked
  | write v index flag => exact ⟨ha.free, ha.plain⟩

theorem dialect_after (e : Engine) (use : EngineUse) :
    (after e use).machine.dialect = e.machine.dialect := by
  cases use with
  | write v index flag => exact Engine.dialect_written e.machine v index flag
  | call asked =>
    by_cases hasked : asked = .step
    · subst hasked
      show (if e.started = true then e.stepped else e).machine.dialect = _
      split
      · exact e.dialect_stepped
      · rfl
    · obtain ⟨memory, keypad, timers, hmachine⟩ := EngineCall.machine_after_of_ne_step e hasked
      show (asked.after e).machine.dialect = _
      rw [hmachine]

theorem after_inDialect {use : EngineUse}
    (hstep : use = .call .step → e.started = true → e.Unconcerned d) :
    after (e.inDialect d) use = (after e use).inDialect d := by
  cases use with
  | write v index flag =>
    exact congrArg e.withMachine (Engine.written_inDialect e.machine d v index flag)
  | call asked =>
    cases asked with
    | load data name =>
      show (e.inDialect d).orSelf ((e.inDialect d).load data name) = _
      rw [Engine.load_inDialect, Engine.orSelf_inDialect]
      rfl
    | start =>
      show (e.inDialect d).orSelf (e.inDialect d).start = _
      rw [Engine.start_inDialect, Engine.orSelf_inDialect]
      rfl
    | step =>
      show (if e.started = true then (e.inDialect d).stepped else e.inDialect d) =
        Engine.inDialect (if e.started = true then e.stepped else e) d
      cases hs : e.started with
      | false => rfl
      | true => exact (hstep rfl hs).stepped
    | key code down =>
      show (e.inDialect d).keyed code down = (e.keyed code down).inDialect d
      rw [Engine.keyed, Engine.keyed]
      cases Keypad.key? code <;> rfl
    | poke address data =>
      exact congrArg e.withMachine (Engine.poked_inDialect e.machine d address data)
    | retire | tick | releaseAll => rfl

/-! ### The step among the uses -/

theorem stepEngine_outcome (he : h.engines[c]? = some e) (ha : e.Alone) :
    (stepEngine perform c h).1 = if e.started = true then e.outcome else .error .notStarted := by
  cases hs : e.started with
  | false =>
    rw [stepEngine_of_not_started he hs]
    rfl
  | true => exact (stepEngine_of_alone perform he ha hs).1

/-- A step that completes no word that is concerned completes no such instruction. -/
theorem unconcerned_of_words (he : h.engines[c]? = some e) (ha : e.Alone) (hs : e.started = true)
    (hwords : ∀ w ∈ words perform c h (.call .step), ∀ v : Variant, v.Concerns w →
      e.machine.dialect.has v = d.has v) : e.Unconcerned d := by
  intro hcontinue
  have hword : words perform c h (.call .step) = [e.machine.word] := by
    rw [words, (stepEngine_of_alone perform he ha hs).1, hcontinue, he]
  exact hwords e.machine.word (by rw [hword]; exact List.mem_singleton_self _)

theorem ending?_inDialect (he : h.engines[c]? = some e)
    (he' : h'.engines[c']? = some (e.inDialect d)) (ha : e.Alone) {use : EngineUse}
    (hstep : use = .call .step → e.started = true → e.Unconcerned d) :
    ending? perform' c' h' use = ending? perform c h use := by
  have ha' : (e.inDialect d).Alone := ⟨ha.free, ha.plain⟩
  cases use with
  | write v index flag => rfl
  | call asked =>
    cases asked with
    | step =>
      rw [ending?, ending?, stepEngine_outcome he ha, stepEngine_outcome he' ha']
      show some (if e.started = true then (e.inDialect d).outcome else _) = _
      cases hs : e.started with
      | false => rfl
      | true =>
        rw [if_pos rfl, if_pos rfl, (hstep rfl hs).outcome]
    | _ => rfl

end EngineUse

open EngineUse

/-- **Dialects make a difference only where a variant concerns the word.**  Take two engines that
differ in their dialects only, and make the same uses of them.  If no word of an instruction that
the first one completes is concerned by a variant in which the dialects differ, all steps end in the
same way, and after each use the engines differ in their dialects only.  So at a word that no
variant concerns every dialect has the same step. -/
theorem course_inDialect {perform perform' : Request → HostM Reply} {h h' : Host} {c c' : Nat}
    {e : Engine} {d : Dialect} (he : h.engines[c]? = some e)
    (he' : h'.engines[c']? = some (e.inDialect d)) (ha : e.Alone) {uses : List EngineUse}
    (hwords : ∀ w ∈ executed perform c h uses, ∀ v : Variant, v.Concerns w →
      e.machine.dialect.has v = d.has v) :
    course perform' c' h' uses =
      (course perform c h uses).map fun seen => (seen.1, seen.2.map (·.inDialect d)) := by
  induction uses generalizing h h' e with
  | nil => rfl
  | cons use rest ih =>
    have ha' : (e.inDialect d).Alone := ⟨ha.free, ha.plain⟩
    have hstep : use = .call .step → e.started = true → e.Unconcerned d := by
      rintro rfl hs
      exact unconcerned_of_words he ha hs fun w hw => hwords w (List.mem_append_left _ hw)
    have hafter : (make perform c use h).2.engines[c]? = some (after e use) :=
      EngineUse.engines_make he ha use
    have hafter' : (make perform' c' use h').2.engines[c']? = some ((after e use).inDialect d) := by
      rw [EngineUse.engines_make he' ha' use, after_inDialect hstep]
    have hrest : ∀ w ∈ executed perform c (make perform c use h).2 rest, ∀ v : Variant,
        v.Concerns w → (after e use).machine.dialect.has v = d.has v := by
      rw [dialect_after]
      exact fun w hw => hwords w (List.mem_append_right _ hw)
    rw [course, course, List.map_cons, ending?_inDialect he he' ha hstep, hafter, hafter']
    exact congrArg _ (ih hafter hafter' (EngineUse.alone_after ha use) hrest)

/-- A shift of a register into itself, a random byte and a jump with offset. -/
def sharedUses : List EngineUse :=
  [.call (.load [0x60, 0x05, 0x80, 0x06, 0xC1, 0x0F, 0xB2, 0x06] "SHARED"), .call .start,
    .call .step, .call (.key 5 true), .call .step, .call .tick, .call .step, .call .step,
    .call .step]

/-- The jump is concerned, but by the one variant in which these dialects do not differ.  It leads
to the end of the program, which both engines report. -/
theorem course_inDialect_of_shared :
    let h := newHost .plain [⟨none, 7⟩]
    let h' := newHost ⟨true, true, false, true⟩ [⟨none, 7⟩]
    executed HostM.perform 0 h sharedUses = [0x6005, 0x8006, 0xC10F, 0xB206] ∧
      course HostM.perform 0 h' sharedUses = (course HostM.perform 0 h sharedUses).map fun seen =>
        (seen.1, seen.2.map (·.inDialect ⟨true, true, false, true⟩)) := by
  intro h h'
  have hexecuted : executed HostM.perform 0 h sharedUses =
      [0x6005, 0x8006, 0xC10F, 0xB206] := by decide +kernel
  have hwords (v : Variant) : ∀ w ∈ [0x6005, 0x8006, 0xC10F, 0xB206], v.Concerns w →
      Dialect.plain.has v = Dialect.has ⟨true, true, false, true⟩ v := by
    cases v <;> decide
  have halone : (Engine.fresh .plain [⟨none, 7⟩] none 0).Alone :=
    ⟨rfl, fun _ hdraw => by rw [List.mem_singleton.mp hdraw]⟩
  refine ⟨hexecuted, course_inDialect rfl rfl halone fun w hw v => ?_⟩
  rw [hexecuted] at hw
  exact hwords v w hw

end Chip8
