import Chip8.Proofs.Pacer.Regular

/-!
# Frame callbacks that are refused

All cues of a batch leave the schedule before the first of them happens, and the
showing of the display comes back only after the frame callback.  So when the
callback is refused the showing does not come back, and neither do the cues that
come after it in the batch; but the pacer still takes itself to have planned
them, and nothing plans them anew.

* `starved_of_callback`: the refusal of a calm frame callback.
* `starved_of_batch`: a batch of steps that is refused for a reason that neither
  its steps nor the ticks of the timers have.
* `refused_callback_starves`: what is left after a call.
-/

namespace Chip8

/-- The reasons for which a step or a tick of an engine is refused that asks the host for
nothing. -/
def Refusal.isOfSteps : Refusal → Bool
  | noEngine | noSession | notStarted | stale _ | busy _ | timerOutOfRange _ => true
  | _ => false

/-- Neither a step through the handle nor a tick of the timers is refused for this reason, now or
later. -/
def Host.NeverRefuses (perform : Request → HostM Reply) (h : Host) (x : Handle) (r : Refusal) :
    Prop :=
  ∀ h', h.Follows h' → (HostM.stepHandle perform x h').1 ≠ .error r ∧
    (HostM.tickHandle x h').1 ≠ .error r

/-- Of all that a pacer does only its frame callback, which is calm, may be refused for this
reason. -/
structure Host.OnlyCallback (perform : Request → HostM Reply) (h : Host) (p : Nat) (r : Refusal) :
    Prop where
  inOrder : PacersInOrder h.pacers
  pacer : ∃ q, h.pacers[p]? = some q ∧ q.IsCalm ∧ h.NeverRefuses perform q.handle r

theorem Host.OnlyCallback.follows {perform : Request → HostM Reply} {h h' : Host} {p : Nat}
    {r : Refusal} (hc : h.OnlyCallback perform p r) (hf : h.Follows h') :
    h'.OnlyCallback perform p r where
  inOrder := hf.pacers.inOrder hc.inOrder
  pacer := by
    obtain ⟨q, hq, hcalm, hnever⟩ := hc.pacer
    obtain ⟨q', hq', hs⟩ := hf.pacers.same_setup hq
    refine ⟨q', hq', hs.isCalm_iff.mpr hcalm, fun h'' hf' => ?_⟩
    rw [hs.handle_eq]
    exact hnever h'' (hf.trans hf')

/-- The pacer wants the display shown, but no showing is planned any more. -/
structure Pacer.Starved (q : Pacer) : Prop where
  on : q.power ≠ .stopped
  wanted : q.frameActive = true
  unplanned : q.pending .showFrame = 0
  ticks_le_one : q.pending .tickTimers ≤ 1

/-- A pacer of the host is starved. -/
def Host.Starves (h : Host) (p : Nat) : Prop :=
  ∃ q, h.pacers[p]? = some q ∧ q.Starved

namespace HostM

variable {perform : Request → HostM Reply} {h : Host} {r : Refusal}

/-! ### Reasons of steps -/

theorem isCurrent_refusal {x : Handle} (hr : (isCurrent x h).1 = .error r) :
    r.isOfSteps = true := by
  rw [isCurrent] at hr
  cases he : h.engines[x.engine]? with
  | none =>
    rw [bind_of_error (engine_of_eq_none he)] at hr
    cases hr
    rfl
  | some e =>
    rw [bind_of_ok (engine_apply he)] at hr
    cases hretired : e.retired with
    | true =>
      rw [hretired] at hr
      cases hr
    | false =>
      rw [hretired] at hr
      cases howner : e.owner with
      | none =>
        rw [howner] at hr
        cases hr
      | some s =>
        rw [howner] at hr
        have hsession : ((sessionAt s >>= fun session => pure _) h).1 = .error r := hr
        rw [bind_apply, sessionAt_apply] at hsession
        cases hs : h.sessions[s]? with
        | none =>
          rw [hs] at hsession
          cases hsession
          rfl
        | some session =>
          rw [hs] at hsession
          cases hsession

theorem stepEngine_refusal {c : Nat} {e : Engine} (he : h.engines[c]? = some e)
    (hplain : e.source.IsPlain) (hr : (stepEngine perform c h).1 = .error r) :
    r.isOfSteps = true := by
  rcases stepEngine_cases he with ⟨r', hr', hstep⟩ | ⟨-, -, hstep | ⟨-, hready, -⟩⟩
  · rw [hstep] at hr
    cases hr
    rcases hr' with rfl | rfl <;> rfl
  · rw [hstep] at hr
    have houtcome : e.outcome = .error r := hr
    rw [Engine.outcome] at houtcome
    cases hstatus : e.reaction.status with
    | error value =>
      rw [hstatus] at houtcome
      cases houtcome
      rfl
    | ok status =>
      rw [hstatus] at houtcome
      cases houtcome
  · exact absurd hplain.isReady hready

theorem tickEngine_refusal {c : Nat} (hr : (tickEngine c h).1 = .error r) :
    r.isOfSteps = true := by
  cases he : h.engines[c]? with
  | none =>
    rw [tickEngine, exclusive_of_eq_none he] at hr
    cases hr
    rfl
  | some e =>
    cases hb : e.busy with
    | true =>
      rw [tickEngine, exclusive_of_busy he hb] at hr
      cases hr
      rfl
    | false =>
      rw [tickEngine_apply he hb] at hr
      cases hr

/-- **An engine that asks the host for nothing** has its steps and its ticks refused only for
reasons of its own. -/
theorem neverRefuses_of_isPlain {x : Handle} {e : Engine} (he : h.engines[x.engine]? = some e)
    (hplain : e.source.IsPlain) (hr : r.isOfSteps = false) : h.NeverRefuses perform x r := by
  intro h' hf
  obtain ⟨e', he', hfollows⟩ := hf.engines.kept he
  have hplain' : e'.source.IsPlain := by
    rw [RandomSource.IsPlain, hfollows.draws_eq]
    exact hplain
  have hunchanged := isCurrent_unchanged x h'
  have hcurrent (r' : Refusal) := isCurrent_refusal (x := x) (h := h') (r := r')
  constructor
  · intro hrefused
    rw [stepHandle, bind_apply] at hrefused
    rcases hc : isCurrent x h' with ⟨r' | current, h''⟩ <;> rw [hc] at hrefused hunchanged hcurrent
    · cases hrefused
      rw [hcurrent r rfl] at hr
      cases hr
    · subst hunchanged
      cases current with
      | false =>
        cases hrefused
        cases hr
      | true =>
        rw [stepEngine_refusal he' hplain' hrefused] at hr
        cases hr
  · intro hrefused
    rw [tickHandle, bind_apply] at hrefused
    rcases hc : isCurrent x h' with ⟨r' | current, h''⟩ <;> rw [hc] at hrefused hunchanged hcurrent
    · cases hrefused
      rw [hcurrent r rfl] at hr
      cases hr
    · cases current with
      | false => cases hrefused
      | true =>
        rw [tickEngine_refusal hrefused] at hr
        cases hr

/-! ### Refusals on the way -/

variable [KeepsRequests perform] [RegularRequests perform] {p : Nat}

/-- **The refusal of a calm frame callback** leaves its pacer starved: the showing is off the
schedule, and neither the callback nor anybody after it puts it back. -/
theorem starved_of_callback {h' : Host} {q : Pacer} {e : Event Cue} {rest : List (Event Cue)}
    {script : Script Request} (horder : PacersInOrder h.pacers)
    (hu : Underway p (e :: rest) h.pacers) (he : e.item = .showFrame)
    (hq : h.pacers[p]? = some q) (hcalm : q.IsCalm) (hframes : q.frames = some script)
    (hactive : q.frameActive = true) (hon : q.power ≠ .stopped)
    (hs : showFrame perform script q.count h = (.error r, h')) : h'.Starves p := by
  have hshowing := showing_showFrame perform p
    (.of_underway horder hu hq hcalm hactive hon) hcalm hframes q.count
  have hfollows := Keeps.follows (x := showFrame perform script q.count) h
  rw [hs] at hshowing hfollows
  obtain ⟨q', hq', hactive'⟩ := hshowing.active
  obtain ⟨q₁, hq₁, hsetup⟩ := hfollows.pacers.same_setup hq
  obtain rfl := Option.some.inj (hq'.symm.trans hq₁)
  -- The showing that is happening still counts, so that there is no other.
  have hplan := hshowing.underway p q' hq' (hsetup.isCalm_iff.mpr hcalm)
  rw [if_pos rfl] at hplan
  have hshow := hplan.once .showFrame (.inr rfl) hactive'.frames
  rw [Event.occurrences_cons, if_pos he] at hshow
  exact ⟨q', hq', hactive'.on, hactive'.frames, by omega, hplan.pending_le_one (.inl rfl)⟩

theorem starved_of_fire {e : Event Cue} {rest : List (Event Cue)}
    (hc : h.OnlyCallback perform p r) (hu : Underway p (e :: rest) h.pacers)
    (hregular : Pacer.IsRegular e.item) (hr : (fire perform p e.item h).1 = .error r) :
    (fire perform p e.item h).2.Starves p := by
  obtain ⟨q, hq, hcalm, hnever⟩ := hc.pacer
  rcases hregular with he | he
  · rw [he, fire, bind_of_ok (pacerAt_apply hq)] at hr
    by_cases hwanted : (q.timerActive && q.power ≠ .stopped) = true
    · rw [if_pos hwanted, bind_apply] at hr
      rcases ht : tickHandle q.handle h with ⟨r' | _, h'⟩ <;> rw [ht] at hr
      · exact absurd ((congrArg Prod.fst ht).trans hr) (hnever h (.refl h)).2
      · cases hr
    · rw [if_neg hwanted] at hr
      cases hr
  · rw [he, fire, bind_of_ok (pacerAt_apply hq)] at hr ⊢
    by_cases hwanted : (q.frameActive && q.power ≠ .stopped) = true
    · obtain ⟨hactive, hon⟩ := Bool.and_eq_true_iff.mp hwanted
      rw [if_pos hwanted] at hr ⊢
      cases hframes : q.frames with
      | none =>
        rw [hframes] at hr
        cases hr
      | some script =>
        rw [hframes] at hr
        dsimp only at hr ⊢
        rw [bind_apply] at hr ⊢
        rcases hs : showFrame perform script q.count h with ⟨r' | _, h'⟩ <;> rw [hs] at hr
        · exact starved_of_callback hc.inOrder hu he hq hcalm hframes hactive
            (of_decide_eq_true hon) hs
        · cases hr
    · rw [if_neg hwanted] at hr
      cases hr

theorem starved_of_fireAll {events : List (Event Cue)} (hc : h.OnlyCallback perform p r)
    (hu : Underway p events h.pacers) (hregular : ∀ e ∈ events, Pacer.IsRegular e.item)
    (hr : (fireAll perform p events h).1 = .error r) :
    (fireAll perform p events h).2.Starves p := by
  induction events generalizing h with
  | nil => cases hr
  | cons e rest ih =>
    have he := hregular e List.mem_cons_self
    have hstarved := starved_of_fire hc hu he
    have hfire : Underway p rest (fire perform p e.item h).2.pacers :=
      underway_fire hc.inOrder hu
    have hfollows := Keeps.follows (x := fire perform p e.item) h
    rw [fireAll, bind_apply] at hr ⊢
    rcases hf : fire perform p e.item h with ⟨r' | _, h'⟩ <;>
      rw [hf] at hr hstarved hfire hfollows
    · exact hstarved hr
    · exact ih (hc.follows hfollows) hfire
        (fun e' he' => hregular e' (List.mem_cons_of_mem e he')) hr

theorem starved_of_settle (hc : (h.takeDue p).OnlyCallback perform p r)
    (hplan : PacersPlanned h.pacers) (hr : (settle perform p h).1 = .error r) :
    (settle perform p h).2.Starves p := by
  obtain ⟨q', hq', hcalm', -⟩ := hc.pacer
  cases hq : h.pacers[p]? with
  | none =>
    rw [Host.takeDue, modify_of_eq_none hq, hq] at hq'
    cases hq'
  | some q =>
    obtain rfl := Option.some.inj ((Host.pacers_takeDue hq).symm.trans hq')
    have hplanned := hplan p q hq hcalm'
    rw [settle, bind_of_ok (pacerAt_apply hq)] at hr ⊢
    refine starved_of_fireAll (h := h.takeDue p) hc ?_ ?_ hr
    · refine (underway_nil_iff.mpr hplan).modify (fun _ => ⟨rfl, rfl⟩) fun q₁ hq₁ _ hplan₁ => ?_
      obtain rfl := Option.some.inj (hq.symm.trans hq₁)
      exact hplan₁.takeDue
    · intro e he
      exact hplanned.regular e ((List.takeWhile_sublist _).subset he)

/-- A round is refused for this reason only by the cues that come before its step. -/
theorem starved_of_round (hc : (h.takeDue p).OnlyCallback perform p r)
    (hplan : PacersPlanned h.pacers) (hr : (round perform p h).1 = .error r) :
    (round perform p h).2.Starves p := by
  have hstarved := starved_of_settle hc hplan
  have hfollows := follows_settle perform p h
  rw [round, bind_apply] at hr ⊢
  rcases hs : settle perform p h with ⟨r' | _, h₁⟩ <;> rw [hs] at hr hstarved hfollows
  · cases hr
    exact hstarved rfl
  exfalso
  obtain ⟨q, hq, -, hnever⟩ := (hc.follows hfollows).pacer
  have hstep : (stepHandle perform q.handle h₁).1 ≠ .error r := (hnever h₁ (.refl h₁)).1
  dsimp only at hr
  rw [bind_of_ok (pacerAt_apply hq)] at hr
  by_cases hrun : q.power ≠ .running
  · rw [if_pos hrun] at hr
    cases hr
  rw [if_neg hrun, bind_apply] at hr
  have hunchanged := isCurrent_unchanged q.handle h₁
  rcases hcurrent : isCurrent q.handle h₁ with ⟨r' | current, h₂⟩ <;>
    rw [hcurrent] at hr hunchanged
  · cases hr
    refine hstep ?_
    rw [stepHandle, bind_of_error hcurrent]
  subst hunchanged
  cases current with
  | false => cases hr
  | true =>
    have hr' : ((stepHandle perform q.handle >>= fun status => _) h₂).1 = .error r := hr
    rw [bind_apply] at hr'
    rcases hresult : stepHandle perform q.handle h₂ with ⟨r' | status, h₃⟩ <;>
      rw [hresult] at hr' hstep
    · cases hr'
      exact hstep rfl
    · cases status <;> cases hr'

theorem starved_of_batch (n : Nat) (hc : (h.takeDue p).OnlyCallback perform p r)
    (hplan : PacersPlanned h.pacers) (hr : (batch perform p n h).1 = .error r) :
    (batch perform p n h).2.Starves p := by
  induction n generalizing h with
  | zero => exact starved_of_settle hc hplan hr
  | succ n ih =>
    have hstarved := starved_of_round hc hplan
    have hround := follows_round perform p h
    have hplanned := planned_round perform p hc.inOrder hplan
    rw [batch_succ, bind_apply] at hr ⊢
    rcases hs : round perform p h with ⟨r' | go, h'⟩ <;>
      rw [hs] at hr hstarved hround hplanned
    · cases hr
      exact hstarved rfl
    cases go with
    | false =>
      have hc' := hc.follows (hround.1.trans (h'.follows_takeDue p))
      exact starved_of_settle hc' hplanned hr
    | true => exact ih (hc.follows hround) hplanned hr

theorem starved_of_runSteps {count : Int} (hc : h.OnlyCallback perform p r)
    (hplan : PacersPlanned h.pacers) (hr : (runSteps perform p count h).1 = .error r) :
    (runSteps perform p count h).2.Starves p := by
  have hc' := hc.follows (h.follows_takeDue p)
  have hstarved := starved_of_batch count.toNat hc' hplan
  have hfollows := follows_batch perform p count.toNat h
  rw [← batch] at hfollows
  rw [runSteps_eq, bind_apply] at hr ⊢
  rcases hb : batch perform p count.toNat h with ⟨r' | _, h'⟩ <;>
    rw [hb] at hr hstarved hfollows
  · cases hr
    exact hstarved rfl
  · obtain ⟨q, hq, -⟩ := (hc'.follows hfollows).pacer
    dsimp only at hr
    rw [report, bind_of_ok (pacerAt_apply hq)] at hr
    cases hr

end HostM

/-- **A frame callback that is refused leaves its pacer starved.**  Take a pacer, in a host that
requests lead to, whose frame callback makes calm requests, and a batch of its steps that is refused
for a reason that neither its steps nor the ticks of the timers are refused for.  Then the callback
has been refused, and it has cost the pacer the showing of the display: the pacer has not stopped
and takes the showing to be planned, but it is not on the schedule any more.  Of the ticks of the
timers there is one at most. -/
theorem refused_callback_starves {h : Host} (hr : h.Reachable) {p : Nat} {q : Pacer}
    (hq : h.pacers[p]? = some q) (hcalm : q.IsCalm) {depth : Nat} {r : Refusal}
    (hnever : h.NeverRefuses (HostM.performWithin depth) q.handle r) {count : Int}
    (hrefused : (HostM.runSteps (HostM.performWithin depth) p count h).1 = .error r) :
    ∃ q', (HostM.runSteps (HostM.performWithin depth) p count h).2.pacers[p]? = some q' ∧
      q'.power ≠ .stopped ∧ q'.frameActive = true ∧ q'.pending .showFrame = 0 ∧
      q'.pending .tickTimers ≤ 1 := by
  obtain ⟨q', hq', hstarved⟩ :=
    HostM.starved_of_runSteps ⟨hr.inOrder, q, hq, hcalm, hnever⟩ hr.planned hrefused
  exact ⟨q', hq', hstarved.on, hstarved.wanted, hstarved.unplanned, hstarved.ticks_le_one⟩

/-- A host with a pacer that has been powered on.  Its frame callback is called after four steps,
just before the second tick of the timers, and asks for a key that there is not. -/
def stumblingHost : Host :=
  jumpingHost 120 (1 / 30) (some ⟨[(1, [.key 16 true])]⟩) (.steady 0 0) [.powerOn]

def stumblingPacer : Pacer :=
  stumblingHost.pacers[0]?.get (by decide +kernel)

def stumblingEngine : Engine :=
  stumblingHost.engines[0]?.get (by decide +kernel)

/-- The batch ends with the refusal of the callback. -/
theorem refused_callback_starves_of_key :
    (HostM.runSteps (HostM.performWithin 9) 0 6 stumblingHost).1 = .error (.keyOutOfRange 16) ∧
      ∃ q', (HostM.runSteps (HostM.performWithin 9) 0 6 stumblingHost).2.pacers[0]? = some q' ∧
        q'.frameActive = true ∧ q'.pending .showFrame = 0 := by
  have hr : stumblingHost.Reachable := reachable_jumpingHost _ _ _ _ _
  have hq : stumblingHost.pacers[0]? = some stumblingPacer := (Option.some_get _).symm
  have hrun : stumblingPacer.IsCalm ∧ stumblingPacer.handle.engine = 0 ∧
      stumblingEngine.source.draws.isEmpty = true ∧
      (match (HostM.runSteps (HostM.performWithin 9) 0 6 stumblingHost).1 with
        | .error r => some r
        | .ok _ => none) = some (.keyOutOfRange 16) := by decide +kernel
  obtain ⟨hcalm, hzero, hnil, hrefusal⟩ := hrun
  have he : stumblingHost.engines[stumblingPacer.handle.engine]? = some stumblingEngine := by
    rw [hzero]
    exact (Option.some_get _).symm
  have hplain : stumblingEngine.source.IsPlain := by
    intro d hd
    rw [List.isEmpty_iff.mp hnil] at hd
    cases hd
  have hrefused : (HostM.runSteps (HostM.performWithin 9) 0 6 stumblingHost).1 =
      .error (.keyOutOfRange 16) := by
    split at hrefusal
    · next r hs => rw [hs, Option.some.inj hrefusal]
    · cases hrefusal
  obtain ⟨q', hq', -, hwanted, hunplanned, -⟩ := refused_callback_starves hr hq hcalm
    (HostM.neverRefuses_of_isPlain he hplain rfl) hrefused
  exact ⟨hrefused, q', hq', hwanted, hunplanned⟩

/-- A pacer whose frame callback has been refused, in the batch that it has been called in. -/
def starvedPacer : Pacer :=
  (HostM.runSteps (HostM.performWithin 9) 0 4 stumblingHost).2.pacers[0]?.get (by decide +kernel)

/-- **A callback that is refused** may leave a pacer that runs with nothing on its schedule. -/
theorem nothing_planned_of_refused_callback :
    starvedPacer.power = .running ∧ starvedPacer.timerActive = true ∧
      starvedPacer.frameActive = true ∧ starvedPacer.schedule = .empty := by
  decide +kernel

end Chip8
