import Chip8.Proofs.Pacer.Calm

/-!
# Plans while the cues of a batch happen

While the cues of a batch happen, the rest of the batch belongs to the plan of
the pacer (`Underway`).  A frame callback is called in the middle of this, by a
pacer that is active (`Showing`).  It finds its pacer so, and if it makes calm
requests only it leaves its pacer so, however it ends.

* `Underway.modify`, `Underway.modify_at`: changes of the pacer whose batch it is,
  and of any pacer.
* `showing_performWithin`: calm requests.
-/

namespace Chip8

/-! ### Plans of all pacers -/

/-- Every pacer with a calm frame callback is planned; of one pacer the rest of a batch belongs to
the plan. -/
def Underway (p : Nat) (batch : List (Event Cue)) (qs : Array Pacer) : Prop :=
  ∀ (p' : Nat) (q : Pacer), qs[p']? = some q → q.IsCalm →
    q.Planned (if p' = p then batch else [])

/-- Every pacer with a calm frame callback is planned. -/
def PacersPlanned (qs : Array Pacer) : Prop :=
  ∀ (p : Nat) (q : Pacer), qs[p]? = some q → q.IsCalm → q.Planned []

/-- The pacers are in order and planned. -/
def PacersRegular (qs : Array Pacer) : Prop :=
  PacersInOrder qs ∧ PacersPlanned qs

section Plans

variable {p : Nat} {e : Event Cue} {batch batch' : List (Event Cue)} {qs qs' : Array Pacer}

theorem underway_nil_iff : Underway p [] qs ↔ PacersPlanned qs := by
  simp only [Underway, PacersPlanned, ite_self]

namespace Underway

theorem imp (h : Underway p batch qs)
    (hq : ∀ q, qs[p]? = some q → q.IsCalm → q.Planned batch → q.Planned batch') :
    Underway p batch' qs := by
  intro p' q' hq' hcalm
  have hplan := h p' q' hq' hcalm
  by_cases hp : p' = p
  · subst hp
    rw [if_pos rfl] at hplan ⊢
    exact hq q' hq' hcalm hplan
  · rw [if_neg hp] at hplan ⊢
    exact hplan

theorem tail (h : Underway p (e :: batch) qs) : Underway p batch qs :=
  h.imp fun _ _ _ hplan => hplan.tail

theorem drop (h : Underway p batch qs) : PacersPlanned qs :=
  underway_nil_iff.mp (h.imp fun _ _ _ hplan => hplan.drop)

/-- A pacer with another frame callback does not matter. -/
theorem of_not_isCalm {q : Pacer} (h : Underway p batch qs) (hq : qs[p]? = some q)
    (hcalm : ¬q.IsCalm) : Underway p batch' qs :=
  h.imp fun q' hq' hcalm' _ => by
    rw [hq] at hq'
    cases hq'
    exact absurd hcalm' hcalm

theorem modify {f : Pacer → Pacer} (h : Underway p batch qs)
    (hsetup : ∀ q : Pacer, q.SameSetup (f q))
    (hf : ∀ q, qs[p]? = some q → q.IsCalm → q.Planned batch → (f q).Planned batch') :
    Underway p batch' (qs.modify p f) := by
  intro p' q' hq' hcalm
  rw [Array.getElem?_modify] at hq'
  by_cases hp : p = p'
  · subst hp
    rw [if_pos rfl] at hq' ⊢
    obtain ⟨q, hq, rfl⟩ := Option.map_eq_some_iff.mp hq'
    have hcalm' : q.IsCalm := (hsetup q).isCalm_iff.mp hcalm
    have hplan := h p q hq hcalm'
    rw [if_pos rfl] at hplan
    exact hf q hq hcalm' hplan
  · rw [if_neg hp] at hq'
    rw [if_neg (Ne.symm hp)]
    have hplan := h p' q' hq' hcalm
    rw [if_neg (Ne.symm hp)] at hplan
    exact hplan

theorem modify_at {p₀ : Nat} {f : Pacer → Pacer} (h : Underway p batch qs)
    (hsetup : ∀ q : Pacer, q.SameSetup (f q))
    (hf : ∀ q, qs[p₀]? = some q → q.Planned (if p₀ = p then batch else []) →
      (f q).Planned (if p₀ = p then batch else [])) : Underway p batch (qs.modify p₀ f) := by
  intro p' q' hq' hcalm
  rw [Array.getElem?_modify] at hq'
  by_cases hp : p₀ = p'
  · subst hp
    rw [if_pos rfl] at hq'
    obtain ⟨q, hq, rfl⟩ := Option.map_eq_some_iff.mp hq'
    exact hf q hq (h p₀ q hq ((hsetup q).isCalm_iff.mp hcalm))
  · rw [if_neg hp] at hq'
    exact h p' q' hq' hcalm

theorem push (h : Underway p batch qs) {q : Pacer} (hschedule : q.schedule = .empty)
    (htimers : q.timerActive = false) (hframes : q.frameActive = false) :
    Underway p batch (qs.push q) := by
  intro p' q' hq' hcalm
  rw [Array.getElem?_push] at hq'
  split at hq'
  · obtain rfl := Option.some.inj hq'
    exact .of_idle hschedule htimers hframes _
  · exact h p' q' hq' hcalm

theorem kept (h : Underway p batch qs) (hk : PlansKept qs qs') : Underway p batch qs' := by
  intro p' q' hq' hcalm
  obtain ⟨q, hq, hs⟩ := hk.same_plan hq'
  exact (h p' q hq (hs.isCalm_iff.mp hcalm)).of_samePlan hs

end Underway

end Plans

/-- What a frame callback finds, and what it leaves if it is calm: the batch that its showing
belongs to is under way, and its pacer is active. -/
structure Showing (p : Nat) (batch : List (Event Cue)) (qs : Array Pacer) : Prop where
  inOrder : PacersInOrder qs
  underway : Underway p batch qs
  active : ∃ q : Pacer, qs[p]? = some q ∧ q.Active

namespace Showing

variable {p : Nat} {batch : List (Event Cue)} {qs qs' : Array Pacer}

/-- A pacer that shows the display wants the ticks as well. -/
theorem of_underway (horder : PacersInOrder qs) (hu : Underway p batch qs) {q : Pacer}
    (hq : qs[p]? = some q) (hcalm : q.IsCalm) (hactive : q.frameActive = true)
    (hon : q.power ≠ .stopped) : Showing p batch qs := by
  have hplan := hu p q hq hcalm
  exact ⟨horder, hu, q, hq, hon, hplan.paired hactive, hactive⟩

theorem of_plansKept (h : Showing p batch qs) (hk : PlansKept qs qs') : Showing p batch qs' where
  inOrder := hk.inOrder
  underway := h.underway.kept hk
  active := by
    obtain ⟨q, hq, hactive⟩ := h.active
    obtain ⟨q', hq', hs⟩ := hk.exists_samePlan hq
    exact ⟨q', hq', hactive.of_samePlan hs⟩

theorem modify {p₀ : Nat} {f : Pacer → Pacer} (h : Showing p batch qs)
    (horder : ∀ q, q.InOrder → (f q).InOrder) (hsetup : ∀ q : Pacer, q.SameSetup (f q))
    (hactive : ∀ q : Pacer, q.Active → (f q).Active)
    (hf : ∀ q, qs[p₀]? = some q → q.Planned (if p₀ = p then batch else []) →
      (f q).Planned (if p₀ = p then batch else [])) : Showing p batch (qs.modify p₀ f) where
  inOrder := h.inOrder.modify fun q _ => horder q
  underway := h.underway.modify_at hsetup hf
  active := by
    obtain ⟨q, hq, ha⟩ := h.active
    rw [Array.getElem?_modify, hq]
    by_cases hp : p₀ = p
    · rw [if_pos hp]
      exact ⟨f q, rfl, hactive q ha⟩
    · rw [if_neg hp]
      exact ⟨q, rfl, ha⟩

end Showing

namespace HostM

variable {p : Nat} {batch : List (Event Cue)}

/-! ### Calm requests -/

theorem showing_of_plansKept {α : Type} {x : HostM α} (hx : ∀ qs, KeepsPacers (PlansKept qs) x) :
    KeepsPacers (Showing p batch) x where
  keeps h hs := hs.of_plansKept ((hx h.pacers).keeps h (.refl hs.inOrder))

section Control

variable (perform : Request → HostM Reply) (p₀ : Nat)

instance showing_pause : KeepsPacers (Showing p batch) (pause perform p₀) :=
  showing_of_plansKept fun _ => inferInstance

instance showing_resume : KeepsPacers (Showing p batch) (resume perform p₀) :=
  showing_of_plansKept fun _ => inferInstance

/-- The pacer that has called the frame callback is active: nothing is started.  Any other pacer
plans what is missing. -/
instance showing_startPeriodic :
    KeepsPacers (Showing p batch) (modifyPacer p₀ Pacer.startPeriodic) where
  keeps h hs := by
    refine hs.modify (fun _ ho => ho.startPeriodic) Pacer.SameSetup.startPeriodic
      (fun q ha => ?_) fun q hq hplan => ?_
    · rw [ha.startPeriodic_eq]
      exact ha
    · by_cases hp : p₀ = p
      · subst hp
        obtain ⟨q₁, hq₁, ha⟩ := hs.active
        obtain rfl := Option.some.inj (hq.symm.trans hq₁)
        rw [ha.startPeriodic_eq]
        exact hplan
      · rw [if_neg hp] at hplan ⊢
        exact hplan.startPeriodic

/-- **Powering on changes no plan of an active pacer.** -/
instance showing_powerOn : KeepsPacers (Showing p batch) (powerOn p₀) := by
  unfold powerOn
  have hrunning : Power.running ≠ .stopped := by decide
  have hpower : KeepsPacers (Showing p batch)
      (modifyPacer p₀ fun q => { q with power := .running }) :=
    ⟨fun _ hs => hs.modify (fun _ ho => ho.setPower hrunning) (fun _ => ⟨rfl, rfl⟩)
      (fun _ ha => { ha with on := hrunning }) fun _ _ hplan => hplan.setPower hrunning⟩
  have hbase : KeepsPacers (Showing p batch) (rebase p₀) :=
    showing_of_plansKept fun _ => inferInstance
  infer_instance

instance showing_newPacer (handle : Handle) (rate timerFrequency refresh : Float)
    (frames : Option (Script Request)) (clock : Nat) :
    KeepsPacers (Showing p batch) (newPacer handle rate timerFrequency refresh frames clock) where
  keeps h hs := by
    have hplans : KeepsPacers
        (fun qs => Underway p batch qs ∧ ∃ q : Pacer, qs[p]? = some q ∧ q.Active)
        (newPacer handle rate timerFrequency refresh frames clock) := by
      refine keepsPacers_newPacer ?_
      rintro qs q hschedule htimers hframes ⟨hu, q', hq', ha⟩
      have hp : p ≠ qs.size := Nat.ne_of_lt (Array.getElem?_eq_some_iff.mp hq').1
      refine ⟨hu.push hschedule htimers hframes, q', ?_, ha⟩
      rw [Array.getElem?_push, if_neg hp]
      exact hq'
    obtain ⟨hu, hactive⟩ := hplans.keeps h ⟨hs.underway, hs.active⟩
    exact ⟨(Keeps.follows h).pacers.inOrder hs.inOrder, hu, hactive⟩

/-- **A calm request leaves a callback's pacer as the callback finds it.** -/
theorem showing_respond {r : Request} (hr : r.isCalm = true) :
    KeepsPacers (Showing p batch) (respond perform r) := by
  cases hquiet : r.isQuiet with
  | true => exact keepsPacers_respond perform hquiet
  | false =>
    cases r with
    | powerOn | pause | resume =>
      unfold respond
      infer_instance
    | newPacer => exact keepsPacers_respond_newPacer perform
    | _ => cases hr.symm.trans hquiet

end Control

theorem showing_performWithin (depth : Nat) {r : Request} (hr : r.isCalm = true) :
    KeepsPacers (Showing p batch) (performWithin depth r) := by
  cases depth with
  | zero => exact keepsPacers_throw _
  | succ depth => exact showing_respond (performWithin depth) hr

end HostM

end Chip8
