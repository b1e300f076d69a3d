import Chip8.Proofs.Pacer.Underway

/-!
# Regular cues come once

Of every pacer whose frame callback is calm the regular cues are planned at most
once, in every host that requests lead to.  Each cue of a batch that happens takes
itself off the rest of the batch and comes back to the schedule at most once.

* `underway_fire`: a cue that happens, of whatever kind.
* `planned_batch`: batches of steps, by induction on their rounds.
* `regular_cues_come_once`: all pacers of a host that requests lead to.
-/

namespace Chip8

namespace HostM

/-- What is asked of the requests in the middle of a call: they keep all pacers in order and
planned, and the calm ones leave the pacer of a callback as the callback finds it. -/
class RegularRequests (perform : Request → HostM Reply) : Prop where
  keeps_regular : ∀ r, KeepsPacers PacersRegular (perform r)
  keeps_calm : ∀ r, r.isCalm = true → ∀ p batch, KeepsPacers (Showing p batch) (perform r)

section Cues

variable (perform : Request → HostM Reply) [KeepsRequests perform] [RegularRequests perform]
  (p : Nat)

/-! ### Cues -/

theorem underway_modifyPacer {batch : List (Event Cue)} {f : Pacer → Pacer}
    (hsetup : ∀ q : Pacer, q.SameSetup (f q))
    (hf : ∀ q : Pacer, q.Planned batch → (f q).Planned batch) :
    KeepsPacers (Underway p batch) (modifyPacer p f) :=
  ⟨fun _ hu => hu.modify hsetup fun q _ _ => hf q⟩

instance underway_rebase (batch : List (Event Cue)) : KeepsPacers (Underway p batch) (rebase p) :=
  keepsPacers_rebase fun _ => underway_modifyPacer p (fun _ => ⟨rfl, rfl⟩) fun _ hplan =>
    hplan.of_samePlan ⟨⟨rfl, rfl⟩, rfl, rfl, rfl, .rfl⟩

omit [KeepsRequests perform] in
/-- A calm frame callback leaves its pacer as it finds it, however it ends. -/
theorem showing_showFrame {batch : List (Event Cue)} {h : Host} (hs : Showing p batch h.pacers)
    {q : Pacer} (hcalm : q.IsCalm) {script : Script Request} (hframes : q.frames = some script)
    (count : Nat) : Showing p batch (showFrame perform script count h).2.pacers := by
  have hscript (k : Nat) (r : Request) (hr : r ∈ script.requests k) :
      KeepsPacers (Showing p batch) (perform r) :=
    RegularRequests.keeps_calm r (hcalm script hframes k r hr) p batch
  exact (keepsPacers_showFrame perform hscript count).keeps h hs

omit [KeepsRequests perform] in
theorem regular_showFrame {h : Host} (hr : PacersRegular h.pacers) (script : Script Request)
    (count : Nat) : PacersRegular (showFrame perform script count h).2.pacers := by
  have hscript (k : Nat) (r : Request) (_ : r ∈ script.requests k) :
      KeepsPacers PacersRegular (perform r) := RegularRequests.keeps_regular r
  exact (keepsPacers_showFrame perform hscript count).keeps h hr

section Fire

variable {perform p} {e : Event Cue} {rest : List (Event Cue)} {h : Host}

theorem underway_pacerAt_bind {f : Pacer → HostM Unit} (hu : Underway p (e :: rest) h.pacers)
    (hf : ∀ q, h.pacers[p]? = some q → Underway p rest (f q h).2.pacers) :
    Underway p rest ((pacerAt p >>= f) h).2.pacers := by
  cases hq : h.pacers[p]? with
  | none =>
    rw [bind_of_error (pacerAt_of_eq_none hq)]
    exact hu.tail
  | some q =>
    rw [bind_of_ok (pacerAt_apply hq)]
    exact hf q hq

omit [KeepsRequests perform] [RegularRequests perform] in
theorem underway_tickTimers (hu : Underway p (e :: rest) h.pacers) (he : e.item = .tickTimers) :
    Underway p rest (fire perform p .tickTimers h).2.pacers := by
  refine underway_pacerAt_bind hu fun q hq => ?_
  by_cases hwanted : (q.timerActive && q.power ≠ .stopped) = true
  · obtain ⟨hactive, hon⟩ := Bool.and_eq_true_iff.mp hwanted
    have hpacers := pacers_eq_of_keepsPacers (tickHandle q.handle) h
    rw [if_pos hwanted, bind_apply]
    rcases ht : tickHandle q.handle h with ⟨r | _, h'⟩ <;> rw [ht] at hpacers
    · show Underway p rest h'.pacers
      rw [hpacers]
      exact hu.tail
    · show Underway p rest (h'.pacers.modify p fun q => q.enqueue .tickTimers q.timerInterval)
      rw [hpacers]
      refine hu.modify (fun _ => ⟨rfl, rfl⟩) fun q' hq' _ hplan => ?_
      obtain rfl := Option.some.inj (hq.symm.trans hq')
      rw [← he]
      exact hplan.comeBack (by rw [he]; exact hactive) (of_decide_eq_true hon) _
  · rw [if_neg hwanted]
    exact hu.tail

theorem underway_showing (hu : Underway p (e :: rest) h.pacers) (he : e.item = .showFrame)
    (hq : ∀ q, h.pacers[p]? = some q → q.IsCalm → q.frameActive = true ∧ q.power ≠ .stopped) :
    Underway p rest (h.pacers.modify p fun q => q.enqueue .showFrame q.frameInterval) := by
  refine hu.modify (fun _ => ⟨rfl, rfl⟩) fun q hq' hcalm hplan => ?_
  obtain ⟨hactive, hon⟩ := hq q hq' hcalm
  have hwanted : q.wants e.item = true := by
    rw [he]
    exact hactive
  rw [← he]
  exact hplan.comeBack hwanted hon _

theorem underway_callback (horder : PacersInOrder h.pacers)
    (hu : Underway p (e :: rest) h.pacers) (he : e.item = .showFrame) {q : Pacer}
    (hq : h.pacers[p]? = some q) (hactive : q.frameActive = true) (hon : q.power ≠ .stopped)
    {script : Script Request} (hframes : q.frames = some script) :
    Underway p rest ((showFrame perform script q.count >>= fun _ =>
      modifyPacer p fun q => q.enqueue .showFrame q.frameInterval) h).2.pacers := by
  rw [bind_apply]
  by_cases hcalm : q.IsCalm
  · have hshowing := showing_showFrame perform p
      (.of_underway horder hu hq hcalm hactive hon) hcalm hframes q.count
    rcases hs : showFrame perform script q.count h with ⟨r | _, h'⟩ <;> rw [hs] at hshowing
    · exact hshowing.underway.tail
    · refine underway_showing hshowing.underway he fun q' hq' _ => ?_
      obtain ⟨q₁, hq₁, hactive₁⟩ := hshowing.active
      obtain rfl := Option.some.inj (hq'.symm.trans hq₁)
      exact ⟨hactive₁.frames, hactive₁.on⟩
  · -- A callback that is not calm may do what it wants with the plan of its own pacer.
    have hfollows := Keeps.follows (x := showFrame perform script q.count) h
    obtain ⟨q₁, hq₁, hsetup₁⟩ := hfollows.pacers.same_setup hq
    have hregular := regular_showFrame perform ⟨horder, hu.drop⟩ script q.count
    have hcalm₁ : ¬q₁.IsCalm := fun h => hcalm (hsetup₁.isCalm_iff.mp h)
    have hu₁ (batch : List (Event Cue)) :
        Underway p batch (showFrame perform script q.count h).2.pacers :=
      (underway_nil_iff.mpr hregular.2).of_not_isCalm hq₁ hcalm₁
    rcases hs : showFrame perform script q.count h with ⟨r | _, h'⟩ <;> rw [hs] at hu₁ hq₁
    · exact hu₁ rest
    · refine underway_showing (hu₁ (e :: rest)) he fun q' hq' hcalm' => ?_
      obtain rfl := Option.some.inj (hq₁.symm.trans hq')
      exact absurd hcalm' hcalm₁

theorem underway_showFrame (horder : PacersInOrder h.pacers)
    (hu : Underway p (e :: rest) h.pacers) (he : e.item = .showFrame) :
    Underway p rest (fire perform p .showFrame h).2.pacers := by
  refine underway_pacerAt_bind hu fun q hq => ?_
  by_cases hwanted : (q.frameActive && q.power ≠ .stopped) = true
  · obtain ⟨hactive, hon⟩ := Bool.and_eq_true_iff.mp hwanted
    rw [if_pos hwanted]
    cases hframes : q.frames with
    | none =>
      refine underway_showing hu he fun q' hq' _ => ?_
      obtain rfl := Option.some.inj (hq.symm.trans hq')
      exact ⟨hactive, of_decide_eq_true hon⟩
    | some script =>
      exact underway_callback horder hu he hq hactive (of_decide_eq_true hon) hframes
  · rw [if_neg hwanted]
    exact hu.tail

/-- **A cue that happens** takes itself off the rest of its batch, and a regular one comes back to
the schedule at most once. -/
theorem underway_fire (horder : PacersInOrder h.pacers) (hu : Underway p (e :: rest) h.pacers) :
    Underway p rest (fire perform p e.item h).2.pacers := by
  cases he : e.item with
  | tickTimers => exact underway_tickTimers hu he
  | showFrame => exact underway_showFrame horder hu he
  | powerOff => exact hu.modify (fun _ => ⟨rfl, rfl⟩) fun q _ _ _ => .stopNow q rest
  | pause => exact hu.tail.modify Pacer.SameSetup.pauseNow fun _ _ _ hplan => hplan.pauseNow
  | resume =>
    refine underway_pacerAt_bind hu fun q _ => ?_
    by_cases hrests : q.power ≠ .running
    · have hrunning : Power.running ≠ .stopped := by decide
      rw [if_pos hrests]
      exact KeepsPacers.keeps (x := rebase p) _
        (hu.tail.modify (fun _ => ⟨rfl, rfl⟩) fun _ _ _ hplan => hplan.setPower hrunning)
    · rw [if_neg hrests]
      exact hu.tail

end Fire

/-- **The cues of a batch** happen one after the other, and what is left in the end is planned. -/
theorem underway_fireAll (events : List (Event Cue)) {h : Host} (horder : PacersInOrder h.pacers)
    (hu : Underway p events h.pacers) : PacersPlanned (fireAll perform p events h).2.pacers := by
  induction events generalizing h with
  | nil => exact hu.drop
  | cons e rest ih =>
    have hfire : Underway p rest (fire perform p e.item h).2.pacers := underway_fire horder hu
    have hfollows := Keeps.follows (x := fire perform p e.item) h
    rw [fireAll, bind_apply]
    rcases hr : fire perform p e.item h with ⟨r | _, h'⟩ <;> rw [hr] at hfire hfollows
    · exact hfire.drop
    · exact ih (hfollows.pacers.inOrder horder) hfire

theorem planned_settle {h : Host} (horder : PacersInOrder (h.takeDue p).pacers)
    (hplan : PacersPlanned h.pacers) : PacersPlanned (settle perform p h).2.pacers := by
  rw [settle]
  cases hq : h.pacers[p]? with
  | none =>
    rw [bind_of_error (pacerAt_of_eq_none hq)]
    exact hplan
  | some q =>
    rw [bind_of_ok (pacerAt_apply hq)]
    refine underway_fireAll perform p q.due (h := h.takeDue p) horder ?_
    refine (underway_nil_iff.mpr hplan).modify (fun _ => ⟨rfl, rfl⟩) fun q' hq' _ hplan => ?_
    obtain rfl := Option.some.inj (hq.symm.trans hq')
    exact hplan.takeDue

theorem planned_cueNow {h : Host} {q : Pacer} (hr : PacersRegular h.pacers)
    (hq : h.pacers[p]? = some q) {cue : Cue} (hcue : ¬Pacer.IsRegular cue) :
    PacersPlanned (cueNow perform p cue h).2.pacers := by
  rw [cueNow_of_ahead perform hq (hr.1 p q hq).ahead]
  have hk := (PlansKept.refl hr.1).putNextOrder hq (q.nextOrder + 1)
  have hu : Underway p [⟨0, 0, cue⟩]
      (h.putPacer p { q with nextOrder := q.nextOrder + 1 }).pacers :=
    ((underway_nil_iff.mpr hr.2).imp fun _ _ _ hplan => hplan.cons hcue).kept hk
  have hfire : Underway p [] (fire perform p cue _).2.pacers := underway_fire hk.inOrder hu
  exact hfire.drop

/-! ### Steps -/

theorem planned_modifyPacer {f : Pacer → Pacer} (hsetup : ∀ q : Pacer, q.SameSetup (f q))
    (hf : ∀ q : Pacer, q.Planned [] → (f q).Planned []) :
    KeepsPacers PacersPlanned (modifyPacer p f) :=
  ⟨fun _ hplan => ((underway_nil_iff.mpr hplan).modify hsetup fun q _ _ => hf q).drop⟩

theorem planned_modify_samePlan {f : Pacer → Pacer} (hf : ∀ q : Pacer, q.SamePlan (f q)) :
    KeepsPacers PacersPlanned (modifyPacer p f) :=
  planned_modifyPacer p (fun q => (hf q).toSameSetup) fun q hplan => hplan.of_samePlan (hf q)

instance planned_stop : KeepsPacers PacersPlanned (modifyPacer p Pacer.stopNow) :=
  planned_modifyPacer p (fun _ => ⟨rfl, rfl⟩) fun q _ => .stopNow q []

/-- A step that is counted leaves the schedule as it is. -/
instance planned_countStep (status : Status) :
    KeepsPacers PacersPlanned (modifyPacer p fun q => q.countStep status) :=
  planned_modify_samePlan p fun _ => ⟨⟨rfl, rfl⟩, rfl, rfl, rfl, .rfl⟩

instance regular_stepHandle (x : Handle) : KeepsPacers PacersRegular (stepHandle perform x) :=
  have (r : Request) : KeepsPacers PacersRegular (perform r) := RegularRequests.keeps_regular r
  inferInstance

theorem planned_bind {α β : Type} {x : HostM α} [hx : KeepsPacers PacersRegular x]
    {f : α → HostM β} {h : Host} (hr : PacersRegular h.pacers)
    (hf : ∀ a h', PacersRegular h'.pacers → PacersPlanned (f a h').2.pacers) :
    PacersPlanned ((x >>= f) h).2.pacers := by
  have hx' := hx.keeps h hr
  rw [bind_apply]
  rcases hr : x h with ⟨_ | a, h'⟩ <;> rw [hr] at hx'
  · exact hx'.2
  · exact hf a h' hx'

/-- **A round** leaves what is planned, with the cues that are due after its step. -/
theorem planned_round {h : Host} (horder : PacersInOrder (h.takeDue p).pacers)
    (hplan : PacersPlanned h.pacers) : PacersPlanned (round perform p h).2.pacers := by
  have hsettled := planned_settle perform p horder hplan
  have hfollows := follows_settle perform p h
  rw [round, bind_apply]
  rcases hs : settle perform p h with ⟨r | _, h₁⟩ <;> rw [hs] at hsettled hfollows
  · exact hsettled
  have hr₁ : PacersRegular h₁.pacers := ⟨hfollows.pacers.inOrder horder, hsettled⟩
  refine planned_bind hr₁ fun q h₂ hr₂ => ?_
  by_cases hrun : q.power ≠ .running
  · rw [if_pos hrun]
    exact hr₂.2
  rw [if_neg hrun]
  refine planned_bind hr₂ fun current h₃ hr₃ => ?_
  cases current with
  | false =>
    have hstop : KeepsPacers PacersPlanned (do
        log (staleLine q.handle)
        modifyPacer p Pacer.stopNow
        return false) := inferInstance
    exact hstop.keeps h₃ hr₃.2
  | true =>
    show PacersPlanned ((stepHandle perform q.handle >>= fun status => _) h₃).2.pacers
    refine planned_bind hr₃ fun status h₄ hr₄ => KeepsPacers.keeps h₄ hr₄.2

theorem planned_batch (n : Nat) {h : Host} (horder : PacersInOrder (h.takeDue p).pacers)
    (hplan : PacersPlanned h.pacers) : PacersPlanned (batch perform p n h).2.pacers := by
  induction n generalizing h with
  | zero => exact planned_settle perform p horder hplan
  | succ n ih =>
    have hround := follows_round perform p h
    have hplanned := planned_round perform p horder hplan
    rw [batch_succ, bind_apply]
    rcases hr : round perform p h with ⟨r | go, h'⟩ <;> rw [hr] at hround hplanned
    · exact hplanned
    cases go with
    | false =>
      have hnear := (hround.1.trans (h'.follows_takeDue p)).pacers.inOrder horder
      exact planned_settle perform p hnear hplanned
    | true => exact ih (hround.pacers.inOrder horder) hplanned

/-! ### Calls on pacers -/

theorem regular_of_keeps {α : Type} {x : HostM α} [Keeps x]
    (hx : ∀ h, PacersRegular h.pacers → PacersPlanned (x h).2.pacers) :
    KeepsPacers PacersRegular x :=
  ⟨fun h hr => ⟨(Keeps.follows h).pacers.inOrder hr.1, hx h hr⟩⟩

theorem regular_of_plansKept {α : Type} {x : HostM α} (hx : ∀ qs, KeepsPacers (PlansKept qs) x) :
    KeepsPacers PacersRegular x where
  keeps h hr := by
    have hk := (hx h.pacers).keeps h (.refl hr.1)
    exact ⟨hk.inOrder, ((underway_nil_iff (p := 0)).mpr hr.2).kept hk |>.drop⟩

instance regular_runSteps (count : Int) : KeepsPacers PacersRegular (runSteps perform p count) :=
  regular_of_keeps fun h hr => by
    have horder := (h.follows_takeDue p).pacers.inOrder hr.1
    have hbatch := planned_batch perform p count.toNat horder hr.2
    rw [runSteps_eq, bind_apply]
    rcases hb : batch perform p count.toNat h with ⟨r | _, h'⟩ <;> rw [hb] at hbatch
    · exact hbatch
    · have hreport : KeepsPacers PacersPlanned (report p) := by
        unfold report
        infer_instance
      exact hreport.keeps h' hbatch

instance planned_rebase : KeepsPacers PacersPlanned (rebase p) :=
  keepsPacers_rebase fun _ => planned_modify_samePlan p fun _ => ⟨⟨rfl, rfl⟩, rfl, rfl, rfl, .rfl⟩

instance planned_powerOn : KeepsPacers PacersPlanned (powerOn p) := by
  unfold powerOn
  have hrunning : Power.running ≠ .stopped := by decide
  have : KeepsPacers PacersPlanned (modifyPacer p fun q => { q with power := .running }) :=
    planned_modifyPacer p (fun _ => ⟨rfl, rfl⟩) fun _ hplan => hplan.setPower hrunning
  have : KeepsPacers PacersPlanned (modifyPacer p Pacer.startPeriodic) :=
    planned_modifyPacer p Pacer.SameSetup.startPeriodic fun _ hplan => hplan.startPeriodic
  infer_instance

instance regular_powerOn : KeepsPacers PacersRegular (powerOn p) :=
  regular_of_keeps fun h hr => KeepsPacers.keeps h hr.2

instance regular_powerOff : KeepsPacers PacersRegular (powerOff perform p) :=
  regular_of_keeps fun h hr => by
    rw [powerOff]
    cases hq : h.pacers[p]? with
    | none =>
      rw [bind_of_error (pacerAt_of_eq_none hq)]
      exact hr.2
    | some q =>
      have hcue : ¬Pacer.IsRegular .powerOff := by rintro (h | h) <;> cases h
      rw [bind_of_ok (pacerAt_apply hq)]
      split
      · exact planned_cueNow perform p hr hq hcue
      · exact hr.2

instance regular_pause : KeepsPacers PacersRegular (pause perform p) :=
  regular_of_plansKept fun _ => inferInstance

instance regular_resume : KeepsPacers PacersRegular (resume perform p) :=
  regular_of_plansKept fun _ => inferInstance

instance planned_updateIntervals : KeepsPacers PacersPlanned (updateIntervals p) := by
  unfold updateIntervals
  have (timerInterval : Nat) :
      KeepsPacers PacersPlanned (modifyPacer p fun q => { q with timerInterval }) :=
    planned_modify_samePlan p fun _ => ⟨⟨rfl, rfl⟩, rfl, rfl, rfl, .rfl⟩
  have (frameInterval : Nat) :
      KeepsPacers PacersPlanned (modifyPacer p fun q => { q with frameInterval }) :=
    planned_modify_samePlan p fun _ => ⟨⟨rfl, rfl⟩, rfl, rfl, rfl, .rfl⟩
  infer_instance

instance planned_setRate (rate : Float) : KeepsPacers PacersPlanned (setRate p rate) := by
  unfold setRate
  have hrate : KeepsPacers PacersPlanned (modifyPacer p fun q => { q with rate }) :=
    planned_modify_samePlan p fun _ => ⟨⟨rfl, rfl⟩, rfl, rfl, rfl, .rfl⟩
  have hrestart : KeepsPacers PacersPlanned
      (modifyPacer p fun q => q.stopPeriodic.clearSchedule.startPeriodic) :=
    planned_modifyPacer p Pacer.SameSetup.restartPeriodic fun q _ => .restartPeriodic q
  infer_instance

instance regular_setRate (rate : Float) : KeepsPacers PacersRegular (setRate p rate) :=
  regular_of_keeps fun h hr => KeepsPacers.keeps h hr.2

instance planned_newPacer (handle : Handle) (rate timerFrequency refresh : Float)
    (frames : Option (Script Request)) (clock : Nat) :
    KeepsPacers PacersPlanned (newPacer handle rate timerFrequency refresh frames clock) :=
  keepsPacers_newPacer fun _ _ hschedule htimers hframes hplan =>
    ((underway_nil_iff (p := 0)).mpr hplan).push hschedule htimers hframes |>.drop

instance regular_newPacer (handle : Handle) (rate timerFrequency refresh : Float)
    (frames : Option (Script Request)) (clock : Nat) :
    KeepsPacers PacersRegular (newPacer handle rate timerFrequency refresh frames clock) :=
  regular_of_keeps fun h hr => KeepsPacers.keeps h hr.2

/-! ### Paced runs -/

instance regular_sleep (sleeps : Sleeps) (number : Nat) (duration : Float) :
    KeepsPacers PacersRegular (sleep perform sleeps number duration) :=
  have (r : Request) : KeepsPacers PacersRegular (perform r) := RegularRequests.keeps_regular r
  inferInstance

instance regular_dueNow : KeepsPacers PacersRegular (dueNow p) := by
  unfold dueNow
  infer_instance

instance regular_pacedReply (slept : Nat) (last : Float) :
    KeepsPacers PacersRegular (pacedReply p slept last) := by
  unfold pacedReply
  infer_instance

instance regular_ensureOn : KeepsPacers PacersRegular (ensureOn p) := by
  unfold ensureOn
  infer_instance

instance regular_runRounds (maxBatch : Int) (sleeps : Sleeps) (slept : Nat) (last : Float)
    (n : Nat) : KeepsPacers PacersRegular (runRounds perform p maxBatch sleeps slept last n) := by
  induction n generalizing slept last with
  | zero => exact keepsPacers_throw _
  | succ n ih =>
    unfold runRounds
    infer_instance

instance regular_run (maxBatch : Int) (sleeps : Sleeps) :
    KeepsPacers PacersRegular (run perform p maxBatch sleeps) := by
  unfold run
  infer_instance

instance regular_runForRounds (wall : WallClock) (deadline : Float) (maxBatch : Int)
    (sleeps : Sleeps) (reads slept : Nat) (last : Float) (n : Nat) :
    KeepsPacers PacersRegular
      (runForRounds perform p wall deadline maxBatch sleeps reads slept last n) := by
  induction n generalizing reads slept last with
  | zero => exact keepsPacers_throw _
  | succ n ih =>
    unfold runForRounds
    infer_instance

instance regular_runFor (wall : WallClock) (seconds : Float) (maxBatch : Int) (sleeps : Sleeps) :
    KeepsPacers PacersRegular (runFor perform p wall seconds maxBatch sleeps) := by
  unfold runFor
  infer_instance

end Cues

/-! ### Requests -/

section Requests

variable (perform : Request → HostM Reply) [KeepsRequests perform] [RegularRequests perform]

/-- **Every request keeps the pacers planned**, if those in the middle of it do. -/
theorem regular_respond (r : Request) : KeepsPacers PacersRegular (respond perform r) := by
  have (r : Request) : KeepsPacers PacersRegular (perform r) := RegularRequests.keeps_regular r
  cases hquiet : r.isQuiet with
  | true => exact keepsPacers_respond perform hquiet
  | false =>
    cases r with
    | step | execute | stepHandle | powerOn | powerOff | pause | resume | runSteps | setRate
    | runFor | run =>
      unfold respond
      infer_instance
    | newPacer => exact keepsPacers_respond_newPacer perform
    | _ => cases hquiet

instance regularRequests_performWithin (depth : Nat) : RegularRequests (performWithin depth) := by
  induction depth with
  | zero => exact ⟨fun _ => keepsPacers_throw _, fun _ hr _ _ => showing_performWithin 0 hr⟩
  | succ depth ih =>
    exact ⟨regular_respond (performWithin depth),
      fun _ hr _ _ => showing_performWithin (depth + 1) hr⟩

end Requests

end HostM

/-- **Between requests every pacer with a calm frame callback is planned.** -/
theorem Host.Reachable.planned {h : Host} (hr : h.Reachable) : PacersPlanned h.pacers := by
  have hregular : PacersRegular h.pacers := by
    induction hr with
    | start files => exact ⟨fun p q hq => (by cases hq), fun p q hq => (by cases hq)⟩
    | request hr depth r ih =>
      have hkeeps : HostM.KeepsPacers PacersRegular (HostM.performWithin depth r) :=
        HostM.RegularRequests.keeps_regular r
      exact hkeeps.keeps _ ih
    | emptied hr ih => exact ih
  exact hregular.2

/-- **Regular cues come once.**  Take a host that requests lead to and one of its pacers, whose
frame callback makes no steps, powers no pacer off and changes no rate.  At most one tick of the
timers and at most one showing of the display are on its schedule and nothing else, and when it has
stopped nothing is. -/
theorem regular_cues_come_once {h : Host} (hr : h.Reachable) {p : Nat} {q : Pacer}
    (hq : h.pacers[p]? = some q) (hcalm : q.IsCalm) :
    q.pending .tickTimers ≤ 1 ∧ q.pending .showFrame ≤ 1 ∧
      (∀ e ∈ q.schedule.events, e.item = .tickTimers ∨ e.item = .showFrame) ∧
      (q.power = .stopped → q.schedule = .empty) := by
  have hplan := hr.planned p q hq hcalm
  exact ⟨hplan.pending_le_one (.inl rfl), hplan.pending_le_one (.inr rfl), hplan.regular,
    fun hp => (hplan.idle hp).1⟩

/-- A host after five steps of a pacer whose frame callback presses a key, pauses, goes on, pauses
once more and powers on. -/
def calmHost : Host :=
  jumpingHost 120 (1 / 60) (some ⟨[(1, [.key 0xA true, .pause, .resume, .pause, .powerOn])]⟩)
    (.steady 0 0) [.powerOn, .runSteps 5]

def calmPacer : Pacer :=
  calmHost.pacers[0]?.get (by decide +kernel)

/-- Both regular cues have happened twice and are planned once. -/
theorem regular_cues_come_once_of_pause : calmPacer.pending .tickTimers ≤ 1 ∧
    calmPacer.pending .showFrame ≤ 1 ∧ calmHost.frames = 2 := by
  have hr : calmHost.Reachable := reachable_jumpingHost _ _ _ _ _
  have hq : calmHost.pacers[0]? = some calmPacer := (Option.some_get _).symm
  have hrun : calmPacer.IsCalm ∧ calmHost.frames = 2 := by decide +kernel
  obtain ⟨hticks, hshowings, -⟩ := regular_cues_come_once hr hq hrun.1
  exact ⟨hticks, hshowings, hrun.2⟩

/-- A pacer whose frame callback has set the rate, to what it was. -/
def restlessPacer : Pacer :=
  (jumpingHost 240 (1 / 60) (some ⟨[(1, [.setRate 240])]⟩) (.steady 0 0)
    [.powerOn, .runSteps 4]).pacers[0]?.get (by decide +kernel)

/-- **A callback that sets the rate** has the showing of the display planned twice. -/
theorem regular_cues_come_twice_of_new_rate :
    restlessPacer.power = .running ∧ restlessPacer.pending .showFrame = 2 := by
  decide +kernel

end Chip8
