import Chip8.Headless.Run
import Chip8.Proofs.Pacer.SingleSteps

/-!
# Where a run ends

A run makes its steps in rounds of up to `256`, or one at a time if there are
breakpoints.  Either way it ends where single steps end: after the first one that
halts the program or leaves the counter at a breakpoint, and after the last one
that the limit allows if there is no such step.

* `EndsAt`: the step at which single steps end.
* `Reports`: what a run reports that ends there.
* `runRounds_of_tracks`: rounds end where single steps end, and always end.
-/

namespace Chip8.Headless

open HostM (oneStep)

/-- The last step of the pacer has reported a halt. -/
def Halts (p : Nat) (h : Host) : Prop :=
  ∃ q reason, h.pacers[p]? = some q ∧ q.lastStatus = some (.halted reason)

/-- The pacer's engine goes on at one of the addresses. -/
def Meets (p : Nat) (addresses : List Int) (h : Host) : Prop :=
  ∃ q e, h.pacers[p]? = some q ∧ h.engines[q.handle.engine]? = some e ∧
    e.machine.counter ∈ addresses

section EndsAt

variable (perform : Request → HostM Reply) (p : Nat) (addresses : List Int)

/-- Of at most `n` single steps, the `k`-th is the first one that halts or meets one of the
addresses; if there is none, `k = n`. -/
structure EndsAt (n k : Nat) (h : Host) : Prop where
  le : k ≤ n
  before : ∀ j, 0 < j → j < k →
    ¬Halts p ((oneStep perform p)^[j] h) ∧ ¬Meets p addresses ((oneStep perform p)^[j] h)
  last : k < n → 0 < k ∧
    (Halts p ((oneStep perform p)^[k] h) ∨ Meets p addresses ((oneStep perform p)^[k] h))

/-- The result of a run that ends with the `k`-th step and leaves a host. -/
structure Reports (k : Nat) (h : Host) (r : RunResult) : Prop where
  executed_eq : r.executed = k
  status_eq : ∃ q, h.pacers[p]? = some q ∧ r.status = q.lastStatus
  breakHit_iff : r.breakHit = true ↔ ¬Halts p h ∧ Meets p addresses h
  cycleHit_iff : r.cycleHit = true ↔ ¬Halts p h ∧ ¬Meets p addresses h
  timeoutHit_eq : r.timeoutHit = false

end EndsAt

variable {perform : Request → HostM Reply} {p : Nat} {addresses : List Int} {n k : Nat} {h : Host}

namespace EndsAt

theorem pos (he : EndsAt perform p addresses n k h) (hn : 0 < n) : 0 < k := by
  rcases Nat.lt_or_eq_of_le he.le with hlt | rfl
  · exact (he.last hlt).1
  · exact hn

theorem unique {k' : Nat} (he : EndsAt perform p addresses n k h)
    (he' : EndsAt perform p addresses n k' h) : k = k' := by
  rcases Nat.lt_trichotomy k k' with hlt | heq | hlt
  · obtain ⟨hpos, hstop⟩ := he.last (Nat.lt_of_lt_of_le hlt he'.le)
    obtain ⟨hhalts, hmeets⟩ := he'.before k hpos hlt
    exact absurd hstop (not_or.mpr ⟨hhalts, hmeets⟩)
  · exact heq
  · obtain ⟨hpos, hstop⟩ := he'.last (Nat.lt_of_lt_of_le hlt he.le)
    obtain ⟨hhalts, hmeets⟩ := he.before k' hpos hlt
    exact absurd hstop (not_or.mpr ⟨hhalts, hmeets⟩)

theorem zero : EndsAt perform p addresses 0 0 h where
  le := Nat.le_refl 0
  before := by omega
  last := by omega

/-- Steps that neither halt nor meet an address go before the others. -/
theorem add {b : Nat}
    (hfree : ∀ j, 0 < j → j ≤ b →
      ¬Halts p ((oneStep perform p)^[j] h) ∧ ¬Meets p addresses ((oneStep perform p)^[j] h))
    (he : EndsAt perform p addresses n k ((oneStep perform p)^[b] h)) :
    EndsAt perform p addresses (b + n) (b + k) h where
  le := Nat.add_le_add_left he.le b
  before j hj hlt := by
    rcases Nat.lt_or_ge b j with hb | hb
    · have hbefore := he.before (j - b) (by omega) (by omega)
      rwa [← Function.iterate_add_apply, Nat.sub_add_cancel (Nat.le_of_lt hb)] at hbefore
    · exact hfree j hj hb
  last hlt := by
    obtain ⟨hpos, hstop⟩ := he.last (by omega)
    rw [← Function.iterate_add_apply, Nat.add_comm k b] at hstop
    exact ⟨by omega, hstop⟩

end EndsAt

/-! ### One round -/

variable {x : Handle} {T start : Nat} {s : PlainRun}

theorem halts_iff (ht : h.Tracks x p T start s) (hs : s.Live) :
    Halts p h ↔ s.power ≠ .running := by
  obtain ⟨q, hq, hpaces⟩ := ht.pacer
  rw [Ne, hs.running_iff, Classical.not_forall]
  constructor
  · rintro ⟨q', reason, hq', hstatus⟩
    obtain rfl : q = q' := by simpa [hq] using hq'
    exact ⟨reason, fun hne => hne (hpaces.lastStatus_eq.symm.trans hstatus)⟩
  · rintro ⟨reason, hstatus⟩
    exact ⟨q, reason, hq, hpaces.lastStatus_eq.trans (Classical.not_not.mp hstatus)⟩

theorem meets_iff (ht : h.Tracks x p T start s) :
    Meets p addresses h ↔ s.engine.machine.counter ∈ addresses := by
  obtain ⟨q, hq, hpaces⟩ := ht.pacer
  have he : h.engines[q.handle.engine]? = some s.engine := by
    rw [hpaces.handle_eq]
    exact ht.engine
  constructor
  · rintro ⟨q', e, hq', he', hmem⟩
    obtain rfl : q = q' := by simpa [hq] using hq'
    obtain rfl : s.engine = e := by simpa [he] using he'
    exact hmem
  · intro hmem
    exact ⟨q, s.engine, hq, he, hmem⟩

theorem pacedCounter_apply (ht : h.Tracks x p T start s) :
    pacedCounter p h = (.ok s.engine.machine.counter, h) := by
  obtain ⟨q, hq, hpaces⟩ := ht.pacer
  have he : h.engines[q.handle.engine]? = some s.engine := by
    rw [hpaces.handle_eq]
    exact ht.engine
  rw [pacedCounter, HostM.bind_of_ok (HostM.pacerAt_apply hq),
    HostM.bind_of_ok (HostM.machine_apply he)]
  rfl

variable (perform) in
theorem runRound_apply [HostM.KeepsRequests perform] (hT : 0 < T)
    (ht : h.Tracks x p T start s) (hs : s.Live) (horder : PacersInOrder h.pacers) (b : Nat)
    (r : RunResult) :
    runRound perform p b r h =
      (.ok ({ r with
          executed := r.executed + (((PlainRun.next T)^[b] s).steps - s.steps)
          status := ((PlainRun.next T)^[b] s).lastStatus },
        decide (((PlainRun.next T)^[b] s).power = .running)),
      (oneStep perform p)^[b] h) := by
  obtain ⟨q, hq, hpaces⟩ := ht.pacer
  obtain ⟨q', hq', hpaces'⟩ := (HostM.tracks_iterate perform hT ht hs b).1.pacer
  have hsteps := HostM.runSteps_eq_iterate perform hT ht hs horder b
  have hcount : q'.count - q.count = ((PlainRun.next T)^[b] s).steps - s.steps := by
    rw [hpaces'.count_eq, hpaces.count_eq]
    omega
  rw [runRound, HostM.bind_of_ok (HostM.pacerAt_apply hq), HostM.bind_of_ok hsteps,
    HostM.bind_of_ok (HostM.pacerAt_apply hq'), HostM.pure_apply, hcount, hpaces'.power_eq]

/-! ### All rounds -/

section Rounds

variable {limits : Limits} {deadline : Option Float} {watch : Stopwatch} {r r' : RunResult}
  {b fuel : Nat} {h' : Host} {counter : Int}

theorem runRounds_of_spent (hbudget : limits.budget r.executed = none) :
    runRounds perform p limits deadline watch r (fuel + 1) h =
      (.ok { r with cycleHit := true }, h) := by
  rw [runRounds, hbudget]
  rfl

theorem runRounds_of_stopped (hbudget : limits.budget r.executed = some b)
    (hround : runRound perform p b r h = (.ok (r', false), h')) :
    runRounds perform p limits deadline watch r (fuel + 1) h = (.ok r', h') := by
  simp only [runRounds, hbudget]
  rw [HostM.bind_of_ok hround]
  rfl

theorem runRounds_of_running (hbudget : limits.budget r.executed = some b)
    (hround : runRound perform p b r h = (.ok (r', true), h'))
    (hcounter : pacedCounter p h' = (.ok counter, h')) :
    runRounds perform p limits deadline watch r (fuel + 1) h =
      if limits.breakpoints.contains counter then (.ok { r' with breakHit := true }, h')
      else match deadline with
        | none => runRounds perform p limits deadline watch r' fuel h'
        | some instant =>
          if instant ≤ watch.now then (.ok { r' with timeoutHit := true }, h')
          else runRounds perform p limits deadline watch.advance r' fuel h' := by
  simp only [runRounds, hbudget]
  rw [HostM.bind_of_ok hround]
  show (pacedCounter p >>= fun _ => _) h' = _
  rw [HostM.bind_of_ok hcounter]
  split
  · rfl
  · cases deadline with
    | none => rfl
    | some instant =>
      dsimp only
      split <;> rfl

end Rounds

section Results

variable (ht : h.Tracks x p T start s) (hs : s.Live)

include ht in
theorem status_of_tracks : ∃ q, h.pacers[p]? = some q ∧ s.lastStatus = q.lastStatus := by
  obtain ⟨q, hq, hpaces⟩ := ht.pacer
  exact ⟨q, hq, hpaces.lastStatus_eq.symm⟩

include ht hs

theorem reports_limit (hrun : s.power = .running) (hfree : ¬Meets p addresses h) :
    Reports p addresses k h ⟨k, s.lastStatus, false, false, true⟩ := by
  have hhalts := (halts_iff ht hs).not.mpr (not_not.mpr hrun)
  exact ⟨rfl, status_of_tracks ht, by simp [hfree], by simp [hfree, hhalts], rfl⟩

theorem reports_break (hrun : s.power = .running) (hmeets : Meets p addresses h) :
    Reports p addresses k h ⟨k, s.lastStatus, true, false, false⟩ := by
  have hhalts := (halts_iff ht hs).not.mpr (not_not.mpr hrun)
  exact ⟨rfl, status_of_tracks ht, by simp [hmeets, hhalts], by simp [hmeets], rfl⟩

theorem reports_halt (hrest : s.power ≠ .running) :
    Reports p addresses k h ⟨k, s.lastStatus, false, false, false⟩ := by
  have hhalts := (halts_iff ht hs).mpr hrest
  exact ⟨rfl, status_of_tracks ht, by simp [hhalts], by simp [hhalts], rfl⟩

end Results

variable {limits : Limits} {b : Nat}

theorem eq_one_of_mem (hb : limits.budget k = some b) {a : Int} (ha : a ∈ limits.breakpoints) :
    b = 1 := by
  have hpos := Limits.budget_pos hb
  have hbatch : limits.batch = 1 := by
    rw [Limits.batch, if_neg]
    simp [List.ne_nil_of_mem ha]
  rw [Limits.budget, hbatch] at hb
  cases hcycles : limits.cycles with
  | none => simp_all
  | some n =>
    simp only [hcycles] at hb
    split at hb
    · cases hb
      omega
    · cases hb

/-- The steps of a round that goes on, and those before the last one of a round that does not,
neither halt nor meet a breakpoint. -/
theorem free_of_running (hT : 0 < T) (ht : h.Tracks x p T start s) (hs : s.Live)
    (hb : limits.budget k = some b) {j : Nat} (hj : 0 < j) (hjb : j < b ∨ j = b ∧
      ¬Meets p limits.breakpoints ((oneStep perform p)^[b] h))
    (hrun : ((PlainRun.next T)^[j] s).power = .running) :
    ¬Halts p ((oneStep perform p)^[j] h) ∧
      ¬Meets p limits.breakpoints ((oneStep perform p)^[j] h) := by
  have htracks := (HostM.tracks_iterate perform hT ht hs j).1
  refine ⟨fun hhalts => (halts_iff htracks (hs.iterate j)).mp hhalts hrun, ?_⟩
  rcases hjb with hlt | ⟨rfl, hfree⟩
  · intro hmeets
    have hone := eq_one_of_mem hb ((meets_iff htracks).mp hmeets)
    omega
  · exact hfree

/-- A round of a run with `n` steps left has at most `n`. -/
theorem budget_spec {total i n : Nat} (hcycles : limits.cycles = some total) (hi : i + n = total) :
    (n = 0 ∧ limits.budget i = none) ∨ ∃ b, limits.budget i = some b ∧ b ≤ n := by
  rw [Limits.budget, hcycles]
  rcases Nat.eq_zero_or_pos n with rfl | hpos
  · exact .inl ⟨rfl, if_neg (by omega)⟩
  · exact .inr ⟨_, if_pos (by omega), by omega⟩

section RoundsOfTracks

variable {i : Nat} (hT : 0 < T) (ht : h.Tracks x p T start s) (hs : s.Live)
  (hbudget : limits.budget i = some b)

include hT ht hs hbudget

theorem endsAt_of_passed (hgo : ((PlainRun.next T)^[b] s).power = .running) (hle : b ≤ n)
    (hfree : ¬Meets p limits.breakpoints ((oneStep perform p)^[b] h))
    (hends : EndsAt perform p limits.breakpoints (n - b) k ((oneStep perform p)^[b] h)) :
    EndsAt perform p limits.breakpoints n (b + k) h := by
  have hall : EndsAt perform p limits.breakpoints (b + (n - b)) (b + k) h := by
    refine hends.add fun j hj hjb => ?_
    refine free_of_running hT ht hs hbudget hj ?_ (PlainRun.running_of_iterate hjb hgo)
    rcases Nat.lt_or_eq_of_le hjb with hlt | rfl
    · exact .inl hlt
    · exact .inr ⟨rfl, hfree⟩
  rwa [Nat.add_sub_cancel' hle] at hall

variable (perform) [HostM.KeepsRequests perform] (horder : PacersInOrder h.pacers)

include horder

theorem runRounds_of_halt (hrun : s.power = .running)
    (hstop : ((PlainRun.next T)^[b] s).power ≠ .running) (hle : b ≤ n)
    (deadline : Option Float) (watch : Stopwatch) (fuel : Nat) :
    ∃ k r, runRounds perform p limits deadline watch ⟨i, s.lastStatus, false, false, false⟩
        (fuel + 1) h = (.ok r, (oneStep perform p)^[k] h) ∧
      EndsAt perform p limits.breakpoints n k h ∧
      Reports p limits.breakpoints (i + k) ((oneStep perform p)^[k] h) r := by
  have hround := runRound_apply perform hT ht hs horder b ⟨i, s.lastStatus, false, false, false⟩
  obtain ⟨k, hkpos, hkb, hrest, hbefore, hhost, hplain⟩ :=
    HostM.exists_halt perform hT ht hs hrun hstop
  have hsteps := PlainRun.steps_iterate hs hbefore
  have htracks := (HostM.tracks_iterate perform hT ht hs k).1
  have hlive : ((PlainRun.next T)^[k] s).Live := hs.iterate k
  rw [decide_eq_false hstop, hhost, hplain, hsteps, Nat.add_sub_cancel_left] at hround
  refine ⟨k, _, runRounds_of_stopped hbudget hround, ⟨by omega, ?_, ?_⟩, ?_⟩
  · intro j hj hjk
    exact free_of_running hT ht hs hbudget hj (.inl (by omega)) (hbefore j hjk)
  · intro _
    exact ⟨hkpos, .inl ((halts_iff htracks hlive).mpr hrest)⟩
  · exact reports_halt htracks hlive hrest

theorem runRounds_of_passed (hgo : ((PlainRun.next T)^[b] s).power = .running)
    (deadline : Option Float) (watch : Stopwatch) (fuel : Nat) :
    let s' := (PlainRun.next T)^[b] s
    let h' := (oneStep perform p)^[b] h
    runRounds perform p limits deadline watch ⟨i, s.lastStatus, false, false, false⟩
        (fuel + 1) h =
      if limits.breakpoints.contains s'.engine.machine.counter then
        (.ok ⟨i + b, s'.lastStatus, true, false, false⟩, h')
      else match deadline with
        | none => runRounds perform p limits none watch
            ⟨i + b, s'.lastStatus, false, false, false⟩ fuel h'
        | some instant =>
          if instant ≤ watch.now then (.ok ⟨i + b, s'.lastStatus, false, true, false⟩, h')
          else runRounds perform p limits (some instant) watch.advance
            ⟨i + b, s'.lastStatus, false, false, false⟩ fuel h' := by
  intro s' h'
  have hround := runRound_apply perform hT ht hs horder b ⟨i, s.lastStatus, false, false, false⟩
  have hrunning (m : Nat) (hm : m < b) : ((PlainRun.next T)^[m] s).power = .running :=
    PlainRun.running_of_iterate (Nat.le_of_lt hm) hgo
  have hcounter := pacedCounter_apply (HostM.tracks_iterate perform hT ht hs b).1
  rw [decide_eq_true hgo, PlainRun.steps_iterate hs hrunning, Nat.add_sub_cancel_left] at hround
  rw [runRounds_of_running hbudget hround hcounter]
  cases deadline <;> rfl

end RoundsOfTracks

variable (perform) in
/-- **Rounds end where single steps end.**  Take a run that is on, of which `n` steps are left.
Its rounds come to an end; and without a limit of time they leave the host as single steps leave
it. -/
theorem runRounds_of_tracks [HostM.KeepsRequests perform] {total : Nat}
    (hcycles : limits.cycles = some total) (hT : 0 < T) (deadline : Option Float) (fuel : Nat) :
    ∀ {s : PlainRun} {h : Host} (watch : Stopwatch) (i n : Nat), h.Tracks x p T start s → s.Live →
      s.power = .running → PacersInOrder h.pacers → i + n = total → n < fuel →
      (0 < n ∨ ¬Meets p limits.breakpoints h) →
      ∃ k r, runRounds perform p limits deadline watch ⟨i, s.lastStatus, false, false, false⟩
          fuel h = (.ok r, (oneStep perform p)^[k] h) ∧
        (deadline = none → EndsAt perform p limits.breakpoints n k h ∧
          Reports p limits.breakpoints (i + k) ((oneStep perform p)^[k] h) r) := by
  -- Induction on the rounds that are left; each of them has at least one step.
  induction fuel with
  | zero =>
    intro s h watch i n _ _ _ _ _ hfuel
    exact absurd hfuel (Nat.not_lt_zero n)
  | succ fuel ih =>
    intro s h watch i n ht hs hrun horder htotal hfuel hfree
    rcases budget_spec hcycles htotal with ⟨rfl, hbudget⟩ | ⟨b, hbudget, hle⟩
    · have hfree' : ¬Meets p limits.breakpoints h := by simpa using hfree
      exact ⟨0, _, runRounds_of_spent hbudget, fun _ =>
        ⟨.zero, reports_limit ht hs hrun hfree'⟩⟩
    by_cases hgo : ((PlainRun.next T)^[b] s).power = .running
    · have hpos := Limits.budget_pos hbudget
      have htracks := (HostM.tracks_iterate perform hT ht hs b).1
      have hlive : ((PlainRun.next T)^[b] s).Live := hs.iterate b
      rw [runRounds_of_passed perform hT ht hs hbudget horder hgo]
      by_cases hmem : ((PlainRun.next T)^[b] s).engine.machine.counter ∈ limits.breakpoints
      · obtain rfl := eq_one_of_mem hbudget hmem
        have hmeets := (meets_iff htracks).mpr hmem
        rw [if_pos (List.contains_iff_mem.mpr hmem)]
        refine ⟨1, _, rfl, fun _ => ⟨⟨hle, by omega, fun _ => ⟨hpos, .inr hmeets⟩⟩, ?_⟩⟩
        exact reports_break htracks hlive hgo hmeets
      · have hfree' : ¬Meets p limits.breakpoints ((oneStep perform p)^[b] h) :=
          (meets_iff htracks).not.mpr hmem
        have horder' := HostM.inOrder_iterate perform hT ht hs horder b
        rw [if_neg (fun h => hmem (List.contains_iff_mem.mp h))]
        cases deadline with
        | none =>
          obtain ⟨k, r, hr, hends⟩ := ih watch (i + b) (n - b) htracks hlive hgo horder'
            (by omega) (by omega) (.inr hfree')
          obtain ⟨hends, hreports⟩ := hends rfl
          rw [← Function.iterate_add_apply, Nat.add_comm k b] at hr hreports
          refine ⟨b + k, r, hr, fun _ => ⟨?_, by rwa [← Nat.add_assoc]⟩⟩
          exact endsAt_of_passed hT ht hs hbudget hgo hle hfree' hends
        | some instant =>
          dsimp only
          split
          · exact ⟨b, _, rfl, by rintro ⟨⟩⟩
          · obtain ⟨k, r, hr, -⟩ := ih watch.advance (i + b) (n - b) htracks hlive hgo horder'
              (by omega) (by omega) (.inr hfree')
            rw [← Function.iterate_add_apply] at hr
            exact ⟨k + b, r, hr, by rintro ⟨⟩⟩
    · obtain ⟨k, r, hr, hends, hreports⟩ :=
        runRounds_of_halt perform hT ht hs hbudget horder hrun hgo hle deadline watch fuel
      exact ⟨k, r, hr, fun _ => ⟨hends, hreports⟩⟩

end Chip8.Headless
