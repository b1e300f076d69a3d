import Chip8.Proofs.Host.Pacers
import Chip8.Proofs.Pacer.Batches
import Chip8.Proofs.Pacer.Plan

/-!
# Calm requests

A frame callback is called while the cues of a batch happen, its own among them.
A calm request makes no steps, powers no pacer off and changes no rate, so that
it takes no cue off a schedule and stops no pacer.  Most calm requests are quiet.
Of the others a pause and its end leave the plans of all pacers as they are, and
powering on leaves the plan of a pacer as it is that wants both regular cues.

* `plansKept_pause`, `plansKept_resume`: what a pause changes of a pacer in order.
* `Active.startPeriodic_eq`: powering on where both regular cues are wanted.
-/

namespace Chip8

/-- Whether a request makes no steps, powers no pacer off and changes no rate. -/
def Request.isCalm : Request → Bool
  | newPacer .. | powerOn | pause | resume => true
  | r => r.isQuiet

theorem Script.requests_of_not_mem {R : Type} {s : Script R} {k : Nat}
    (hk : k ∉ s.entries.map Prod.fst) : s.requests k = [] := by
  have hnone : s.entries.lookup k = none := by
    rw [List.lookup_eq_none_iff]
    intro entry hentry
    rw [bne_iff_ne]
    rintro rfl
    exact hk (List.mem_map_of_mem hentry)
  rw [requests, hnone, Option.getD_none]

namespace Pacer

/-- Whenever the frame callback is called it makes calm requests only. -/
def IsCalm (q : Pacer) : Prop :=
  ∀ script, q.frames = some script → ∀ k, ∀ r ∈ script.requests k, r.isCalm = true

theorem isCalm_iff_entries (q : Pacer) : q.IsCalm ↔ ∀ script ∈ q.frames,
    ∀ k ∈ script.entries.map Prod.fst, ∀ r ∈ script.requests k, r.isCalm = true := by
  refine ⟨fun h script hs k _ => h script hs k, fun h script hs k => ?_⟩
  by_cases hk : k ∈ script.entries.map Prod.fst
  · exact h script hs k hk
  · rw [Script.requests_of_not_mem hk]
    exact fun _ hr => absurd hr List.not_mem_nil

instance (q : Pacer) : Decidable q.IsCalm :=
  decidable_of_iff' _ (isCalm_iff_entries q)

theorem SameSetup.isCalm_iff {q q' : Pacer} (h : q.SameSetup q') : q'.IsCalm ↔ q.IsCalm := by
  rw [IsCalm, h.frames_eq, IsCalm]

/-- The same cues are on the schedule and the same ones wanted, and the pacer has neither stopped
nor started. -/
structure SamePlan (q q' : Pacer) : Prop extends SameSetup q q' where
  schedule_eq : q'.schedule = q.schedule
  timerActive_eq : q'.timerActive = q.timerActive
  frameActive_eq : q'.frameActive = q.frameActive
  stopped_iff : q'.power = .stopped ↔ q.power = .stopped

variable {q q' q'' : Pacer}

namespace SamePlan

theorem refl (q : Pacer) : SamePlan q q :=
  ⟨.refl q, rfl, rfl, rfl, .rfl⟩

theorem trans (h : SamePlan q q') (h' : SamePlan q' q'') : SamePlan q q'' where
  toSameSetup := h.toSameSetup.trans h'.toSameSetup
  schedule_eq := h'.schedule_eq.trans h.schedule_eq
  timerActive_eq := h'.timerActive_eq.trans h.timerActive_eq
  frameActive_eq := h'.frameActive_eq.trans h.frameActive_eq
  stopped_iff := h'.stopped_iff.trans h.stopped_iff

theorem setPower (hq : q.power ≠ .stopped) {power : Power} (hp : power ≠ .stopped) :
    SamePlan q { q with power } :=
  ⟨⟨rfl, rfl⟩, rfl, rfl, rfl, fun h => absurd h hp, fun h => absurd h hq⟩

theorem pauseNow (q : Pacer) : SamePlan q q.pauseNow := by
  rw [Pacer.pauseNow]
  split
  · next hrun =>
    exact setPower (by rw [hrun]; decide) (by decide)
  · exact .refl q

theorem wants_eq (h : SamePlan q q') (cue : Cue) : q'.wants cue = q.wants cue := by
  cases cue with
  | tickTimers => exact h.timerActive_eq
  | showFrame => exact h.frameActive_eq
  | powerOff | pause | resume => rfl

theorem pending_eq (h : SamePlan q q') (cue : Cue) : q'.pending cue = q.pending cue := by
  rw [pending, h.schedule_eq, pending]

end SamePlan

theorem Planned.of_samePlan {batch : List (Event Cue)} (h : q.Planned batch)
    (hs : q.SamePlan q') : q'.Planned batch where
  regular := by
    rw [hs.schedule_eq]
    exact h.regular
  once cue hcue hw := by
    rw [hs.pending_eq]
    exact h.once cue hcue ((hs.wants_eq cue).symm.trans hw)
  none_unwanted cue hcue hw := by
    rw [hs.pending_eq]
    exact h.none_unwanted cue hcue ((hs.wants_eq cue).symm.trans hw)
  paired := by
    rw [hs.timerActive_eq, hs.frameActive_eq]
    exact h.paired
  idle hp := by
    rw [hs.schedule_eq, hs.timerActive_eq, hs.frameActive_eq]
    exact h.idle (hs.stopped_iff.mp hp)

/-- The pacer has not stopped and wants both regular cues. -/
structure Active (q : Pacer) : Prop where
  on : q.power ≠ .stopped
  timers : q.timerActive = true
  frames : q.frameActive = true

namespace Active

theorem of_samePlan (h : q.Active) (hs : q.SamePlan q') : q'.Active where
  on hp := h.on (hs.stopped_iff.mp hp)
  timers := hs.timerActive_eq.trans h.timers
  frames := hs.frameActive_eq.trans h.frames

theorem startPeriodic_eq (h : q.Active) : q.startPeriodic = q := by
  rw [startPeriodic]
  split
  · rw [startTimers, if_pos h.timers, startFrames, h.frames, Bool.true_or, if_pos rfl]
  · rfl

end Active

end Pacer

/-! ### All pacers of a host -/

/-- The pacers are in order, and each of them has the plan that it had. -/
structure PlansKept (qs qs' : Array Pacer) : Prop where
  inOrder : PacersInOrder qs'
  size_eq : qs'.size = qs.size
  same_plan : ∀ {p : Nat} {q' : Pacer}, qs'[p]? = some q' →
    ∃ q : Pacer, qs[p]? = some q ∧ q.SamePlan q'

namespace PlansKept

variable {qs qs' : Array Pacer}

theorem refl (horder : PacersInOrder qs) : PlansKept qs qs :=
  ⟨horder, rfl, fun hq => ⟨_, hq, .refl _⟩⟩

theorem exists_samePlan (h : PlansKept qs qs') {p : Nat} {q : Pacer} (hq : qs[p]? = some q) :
    ∃ q' : Pacer, qs'[p]? = some q' ∧ q.SamePlan q' := by
  have hp : p < qs'.size := by
    rw [h.size_eq]
    exact (Array.getElem?_eq_some_iff.mp hq).1
  obtain ⟨q₀, hq₀, hs⟩ := h.same_plan (Array.getElem?_eq_getElem hp)
  obtain rfl := Option.some.inj (hq.symm.trans hq₀)
  exact ⟨_, Array.getElem?_eq_getElem hp, hs⟩

theorem modify {p : Nat} {f : Pacer → Pacer} (h : PlansKept qs qs')
    (horder : ∀ q, q.InOrder → (f q).InOrder) (hf : ∀ q, qs'[p]? = some q → q.SamePlan (f q)) :
    PlansKept qs (qs'.modify p f) where
  inOrder := h.inOrder.modify fun q _ => horder q
  size_eq := Array.size_modify.trans h.size_eq
  same_plan {p' q''} hq'' := by
    rw [Array.getElem?_modify] at hq''
    split at hq''
    · next hp =>
      subst hp
      obtain ⟨q', hq', rfl⟩ := Option.map_eq_some_iff.mp hq''
      obtain ⟨q, hq, hs⟩ := h.same_plan hq'
      exact ⟨q, hq, hs.trans (hf q' hq')⟩
    · exact h.same_plan hq''

theorem putNextOrder {p : Nat} {q : Pacer} (h : PlansKept qs qs') (hq : qs'[p]? = some q)
    (nextOrder : Nat) : PlansKept qs (qs'.setIfInBounds p { q with nextOrder }) := by
  rw [← modify_eq_setIfInBounds hq fun q => { q with nextOrder }]
  exact h.modify (fun _ ho => { ho with }) fun _ _ => ⟨⟨rfl, rfl⟩, rfl, rfl, rfl, .rfl⟩

end PlansKept

namespace HostM

variable (perform : Request → HostM Reply) (p : Nat) {qs : Array Pacer}

theorem plansKept_modifyPacer {f : Pacer → Pacer} (horder : ∀ q, q.InOrder → (f q).InOrder)
    (hf : ∀ q : Pacer, q.SamePlan (f q)) : KeepsPacers (PlansKept qs) (modifyPacer p f) :=
  ⟨fun _ hk => hk.modify horder fun q _ => hf q⟩

instance plansKept_rebase : KeepsPacers (PlansKept qs) (rebase p) :=
  keepsPacers_rebase fun _ =>
    plansKept_modifyPacer p (fun _ ho => { ho with }) fun _ => ⟨⟨rfl, rfl⟩, rfl, rfl, rfl, .rfl⟩

/-- **A pause changes no plan.** -/
instance plansKept_pause : KeepsPacers (PlansKept qs) (pause perform p) where
  keeps h hk := by
    rw [pause]
    cases hq : h.pacers[p]? with
    | none =>
      rw [bind_of_error (pacerAt_of_eq_none hq)]
      exact hk
    | some q =>
      rw [bind_of_ok (pacerAt_apply hq)]
      by_cases hrun : q.power = .running
      · rw [if_pos hrun, cueNow_of_ahead perform hq (hk.inOrder p q hq).ahead]
        exact (hk.putNextOrder hq _).modify (fun _ ho => ho.pauseNow) fun q _ => .pauseNow q
      · rw [if_neg hrun]
        exact hk

/-- **The end of a pause changes no plan.** -/
instance plansKept_resume : KeepsPacers (PlansKept qs) (resume perform p) where
  keeps h hk := by
    rw [resume]
    cases hq : h.pacers[p]? with
    | none =>
      rw [bind_of_error (pacerAt_of_eq_none hq)]
      exact hk
    | some q =>
      rw [bind_of_ok (pacerAt_apply hq)]
      by_cases hpaused : q.power = .paused
      · have hq' : (h.putPacer p { q with nextOrder := q.nextOrder + 1 }).pacers[p]? =
            some { q with nextOrder := q.nextOrder + 1 } := Host.pacers_putPacer hq
        have hrests : q.power ≠ .running := by
          rw [hpaused]
          decide
        rw [if_pos hpaused, cueNow_of_ahead perform hq (hk.inOrder p q hq).ahead, fire,
          bind_of_ok (pacerAt_apply hq'), if_pos hrests]
        have hon : q.power ≠ .stopped := by
          rw [hpaused]
          decide
        have hrunning : Power.running ≠ .stopped := by decide
        refine KeepsPacers.keeps (x := rebase p) _ ?_
        refine (hk.putNextOrder hq _).modify (fun _ ho => ho.setPower hrunning) fun q₁ hq₁ => ?_
        obtain rfl := Option.some.inj (hq'.symm.trans hq₁)
        exact .setPower (q := { q with nextOrder := q.nextOrder + 1 }) hon hrunning
      · rw [if_neg hpaused]
        exact hk

end HostM

end Chip8
