import Chip8.Proofs.Pacer.Refinement

/-!
# Pacers whose handle is not current

A pacer that runs meets with its handle before each step.  If the handle is not
current, it stops at once and executes nothing; a paced run then comes to its end
after the next sleep.  A pacer that has paused does not come as far: it stays
paused, whatever has become of its handle, and a paced run over it sleeps without
end.

* `round_of_stale`, `runSteps_of_stale`: a batch of a pacer that runs.
* `runRounds_of_paused`: a paced run over a pacer that has paused.
* `stale_pacer_stops`: both together.
-/

namespace Chip8

namespace HostM

variable (perform : Request → HostM Reply) {p : Nat} {h : Host} {q : Pacer}

/-! ### Batches -/

theorem ahead_stopNow (q : Pacer) : q.stopNow.Ahead :=
  fun _ he => absurd he List.not_mem_nil

/-- The host after a pacer has found its handle not current. -/
def stoppedStale (p : Nat) (q : Pacer) (h : Host) : Host :=
  (h.addLines [staleLine q.handle]).putPacer p q.stopNow

theorem round_of_stale (hq : h.pacers[p]? = some q) (hahead : q.Ahead)
    (hrun : q.power = .running) (hstale : (isCurrent q.handle h).1 = .ok false) :
    round perform p h = (.ok false, stoppedStale p q h) := by
  have hcurrent : isCurrent q.handle h = (.ok false, h) :=
    Prod.ext hstale (isCurrent_unchanged q.handle h)
  have hq' : (h.addLines [staleLine q.handle]).pacers[p]? = some q := hq
  rw [round, bind_of_ok (settle_of_ahead perform hq hahead), bind_of_ok (pacerAt_apply hq),
    if_neg (not_not_intro hrun), bind_of_ok hcurrent]
  show (log (staleLine q.handle) >>= fun _ => _) h = _
  rw [bind_of_ok (log_apply _ _), bind_of_ok (modifyPacer_apply hq' _)]
  rfl

/-- **A batch of a pacer that runs**, whose handle is not current, stops it and does nothing
else. -/
theorem runSteps_of_stale (hq : h.pacers[p]? = some q) (hahead : q.Ahead)
    (hrun : q.power = .running) (hstale : (isCurrent q.handle h).1 = .ok false) {n : Int}
    (hn : 1 ≤ n) : runSteps perform p n h = (.ok q.lastStatus, stoppedStale p q h) := by
  have hstopped : (stoppedStale p q h).pacers[p]? = some q.stopNow :=
    Host.pacers_putPacer (h := h.addLines [staleLine q.handle]) hq
  obtain ⟨k, rfl⟩ : ∃ k : Nat, n = k + 1 := ⟨(n - 1).toNat, by omega⟩
  have hbatch : batch perform p (k + 1) h = (.ok (), stoppedStale p q h) := by
    rw [batch_succ, bind_of_ok (round_of_stale perform hq hahead hrun hstale)]
    exact settle_of_ahead perform hstopped (ahead_stopNow q)
  rw [runSteps_eq]
  show (batch perform p (k + 1) >>= fun _ => report p) h = _
  rw [bind_of_ok hbatch, report, bind_of_ok (pacerAt_apply hstopped), pure_apply]
  rfl

/-! ### Paced runs -/

theorem dueNow_changes (p : Nat) (h : Host) : ∃ clocks, (dueNow p h).2 = { h with clocks } := by
  rw [dueNow]
  cases hq : h.pacers[p]? with
  | none =>
    rw [bind_of_error (pacerAt_of_eq_none hq)]
    exact ⟨_, rfl⟩
  | some q =>
    rw [bind_of_ok (pacerAt_apply hq)]
    split
    · rw [instructionsDue, bind_of_ok (pacerAt_apply hq), bind_apply]
      have hread : (readClock q.clock h).2 = _ := readClock_changes q.clock h
      rcases hr : readClock q.clock h with ⟨r | now, h'⟩ <;> rw [hr] at hread <;> subst hread
      · exact ⟨_, rfl⟩
      · refine ⟨h.clocks.modify q.clock Clock.read, ?_⟩
        dsimp only
        cases Pace.instructionsDue (now - q.base) q.count q.rate <;> rfl
    · exact ⟨_, rfl⟩

theorem sleep_changes {sleeps : Sleeps} {number : Nat}
    (hquiet : sleeps.script.requests number = []) (duration : Float) (h : Host) :
    ∃ clocks, (sleep perform sleeps number duration h).2 = { h with clocks } := by
  rw [sleep, hquiet]
  by_cases hlimit : sleeps.limit < number
  · rw [if_pos hlimit]
    exact ⟨_, rfl⟩
  · rw [if_neg hlimit]
    rcases Binary64.truncate (duration * Pace.second) with failure | ns
    · exact ⟨_, rfl⟩
    · show ∃ clocks, ((advanceClock ns >>= fun _ => performAll perform []) h).2 = _
      rw [advanceClock, currentClock, bind_assoc, bind_assoc, bind_of_ok (get_apply h)]
      rcases Option.eq_none_or_eq_some h.clock with hk | ⟨k, hk⟩
      · have hnone : required .noPacer h.clock h = (.error .noPacer, h) := by
          rw [hk, required_none]
        rw [bind_of_error hnone]
        exact ⟨_, rfl⟩
      · have hsome : required .noPacer h.clock h = (.ok k, h) := by rw [hk, required_some]
        rw [bind_of_ok hsome]
        exact ⟨_, rfl⟩

/-- **A paced run over a pacer that has paused** does not come to its end, if nothing is requested
while it sleeps. -/
theorem runRounds_of_paused {sleeps : Sleeps} (hquiet : ∀ k, sleeps.script.requests k = [])
    (hq : h.pacers[p]? = some q) (hpaused : q.power = .paused) (maxBatch : Int) (slept : Nat)
    (last : Float) (n : Nat) (reply : Reply) :
    (runRounds perform p maxBatch sleeps slept last n h).1 ≠ .ok reply := by
  induction n generalizing h slept last with
  | zero => rintro ⟨⟩
  | succ n ih =>
    have hrun : q.power ≠ .running := by rw [hpaused]; decide
    have hstop : q.power ≠ .stopped := by rw [hpaused]; decide
    have hdue : dueNow p h = (.ok 0, h) := by
      rw [dueNow, bind_of_ok (pacerAt_apply hq), if_neg hrun, pure_apply]
    obtain ⟨clocks, hsleep⟩ := sleep_changes perform (hquiet (slept + 1)) (Pace.period q.rate) h
    rw [runRounds, bind_of_ok (pacerAt_apply hq), if_neg hstop, bind_of_ok hdue]
    dsimp only
    rw [if_neg (not_not_intro rfl), bind_of_ok (pacerAt_apply hq)]
    show ((sleep perform sleeps (slept + 1) (Pace.period q.rate) >>= fun _ => _) h).1 ≠ _
    rw [bind_apply]
    rcases hs : sleep perform sleeps (slept + 1) (Pace.period q.rate) h with ⟨r | _, h'⟩
    · rintro ⟨⟩
    · rw [hs] at hsleep
      exact ih (h := h') (by rw [show h' = _ from hsleep]; exact hq) _ _

/-- **A paced run over a pacer that runs**, whose handle is not current, comes to its end after the
first batch and the sleep that follows it. -/
theorem runRounds_of_stale {sleeps : Sleeps} {maxBatch due : Int} {slept : Nat} {h₁ h₂ : Host}
    (hq : h.pacers[p]? = some q) (hahead : q.Ahead) (hrun : q.power = .running)
    (hstale : (isCurrent q.handle h).1 = .ok false) (hbatch : 1 ≤ maxBatch)
    (hdue : dueNow p h = (.ok due, h₁)) (hpos : 1 ≤ due)
    (hquiet : sleeps.script.requests (slept + 1) = [])
    (hsleep : sleep perform sleeps (slept + 1) 0 (stoppedStale p q h₁) = (.ok (), h₂))
    (last : Float) (n : Nat) :
    runRounds perform p maxBatch sleeps slept last (n + 2) h =
      (.ok (.paced q.lastStatus (slept + 1) 0), h₂) := by
  have hstop : q.power ≠ .stopped := by rw [hrun]; decide
  have hne : due ≠ 0 := by omega
  obtain ⟨clocks, hclocks⟩ := dueNow_changes p h
  rw [hdue] at hclocks
  obtain rfl : h₁ = { h with clocks } := hclocks
  have hstale₁ : (isCurrent q.handle { h with clocks }).1 = .ok false := by
    rw [← hstale]
    exact isCurrent_of_eq rfl rfl
  have hsteps := runSteps_of_stale perform (h := { h with clocks }) hq hahead hrun hstale₁
    (n := min due maxBatch) (by omega)
  obtain ⟨clocks', hclocks'⟩ := sleep_changes perform hquiet 0 (stoppedStale p q { h with clocks })
  rw [hsleep] at hclocks'
  have hstopped : h₂.pacers[p]? = some q.stopNow := by
    rw [show h₂ = _ from hclocks']
    exact Host.pacers_putPacer (h := ({ h with clocks } : Host).addLines [staleLine q.handle]) hq
  rw [runRounds, bind_of_ok (pacerAt_apply hq), if_neg hstop, bind_of_ok hdue]
  dsimp only
  rw [if_pos hne, bind_of_ok hsteps]
  show (sleep perform sleeps (slept + 1) 0 >>= fun _ => _) _ = _
  rw [bind_of_ok hsleep, runRounds, bind_of_ok (pacerAt_apply hstopped),
    if_pos q.power_stopNow, pacedReply,
    bind_of_ok (pacerAt_apply hstopped), pure_apply]
  rfl

end HostM

/-- **A pacer that runs stops when its handle is not current.**  Take a host that requests lead to
and a pacer whose handle is not current.  If the pacer runs, every batch stops it, clears its
schedule and executes no step; a paced run comes to its end after the first batch, whose instruction
is due, and the sleep that follows it.  If the pacer has paused, a batch does nothing, and a paced
run in which nothing is requested does not come to its end, however many sleeps are allowed. -/
theorem stale_pacer_stops {h : Host} (hr : h.Reachable) {p : Nat} {q : Pacer}
    (hq : h.pacers[p]? = some q) (hstale : (HostM.isCurrent q.handle h).1 = .ok false)
    (depth : Nat) :
    (q.power = .running →
      (∀ n, 1 ≤ n → HostM.runSteps (HostM.performWithin depth) p n h =
        (.ok q.lastStatus, HostM.stoppedStale p q h)) ∧
      ∀ (sleeps : HostM.Sleeps) (maxBatch due : Int) (slept n : Nat) (last : Float) (h₁ h₂ : Host),
        1 ≤ maxBatch → HostM.dueNow p h = (.ok due, h₁) → 1 ≤ due →
        sleeps.script.requests (slept + 1) = [] →
        HostM.sleep (HostM.performWithin depth) sleeps (slept + 1) 0 (HostM.stoppedStale p q h₁) =
          (.ok (), h₂) →
        HostM.runRounds (HostM.performWithin depth) p maxBatch sleeps slept last (n + 2) h =
          (.ok (.paced q.lastStatus (slept + 1) 0), h₂)) ∧
    (q.power = .paused →
      (∀ n, HostM.runSteps (HostM.performWithin depth) p n h = (.ok q.lastStatus, h)) ∧
      ∀ (sleeps : HostM.Sleeps) (maxBatch : Int) (reply : Reply),
        (∀ k, sleeps.script.requests k = []) →
        (HostM.run (HostM.performWithin depth) p maxBatch sleeps h).1 ≠ .ok reply) := by
  have hahead := (hr.inOrder p q hq).ahead
  refine ⟨fun hrun => ⟨fun n hn => ?_, ?_⟩, fun hpaused => ⟨fun n => ?_, ?_⟩⟩
  · exact HostM.runSteps_of_stale _ hq hahead hrun hstale hn
  · intro sleeps maxBatch due slept n last h₁ h₂ hbatch hdue hpos hquiet hsleep
    exact HostM.runRounds_of_stale _ hq hahead hrun hstale hbatch hdue hpos hquiet hsleep last n
  · exact HostM.runSteps_of_rests _ hq hr.inOrder (by rw [hpaused]; decide) n
  · intro sleeps maxBatch reply hquiet
    have hon : HostM.ensureOn p h = (.ok (), h) := by
      rw [HostM.ensureOn, HostM.bind_of_ok (HostM.pacerAt_apply hq),
        if_neg (by rw [hpaused]; decide)]
      rfl
    rw [HostM.run, HostM.bind_of_ok hon]
    exact HostM.runRounds_of_paused _ hquiet hq hpaused maxBatch 0 0 _ reply

/-- A host after three steps of a pacer over a session's engine, more requests and a reload. -/
def reloadedHost (requests : List Request) : Host :=
  ((Host.ofFiles ⟨[], []⟩).play ([
    .newSession [] [], .reload [0x12, 0x00] "JUMP", .startSession,
    .newPacer 0 240 60 (1 / 60) none (.steady 0 0), .powerOn, .runSteps 3] ++ requests ++
    [.reload [0x12, 0x00] "JUMP"])).2

def stalePacer : Pacer :=
  (reloadedHost []).pacers[0]?.get (by decide +kernel)

/-- The reload stops the pacer with its fourth step, which is not executed. -/
theorem stale_pacer_stops_of_reload :
    HostM.runSteps (HostM.performWithin 9) 0 5 (reloadedHost []) =
      (.ok stalePacer.lastStatus, HostM.stoppedStale 0 stalePacer (reloadedHost [])) ∧
      stalePacer.count = 3 := by
  have hr : (reloadedHost []).Reachable := (Host.Reachable.start ⟨[], []⟩).play _
  have hq : (reloadedHost []).pacers[0]? = some stalePacer := (Option.some_get _).symm
  have hfacts : stalePacer.power = .running ∧ stalePacer.count = 3 ∧
      (HostM.isCurrent stalePacer.handle (reloadedHost [])).1.toOption = some false := by
    decide +kernel
  obtain ⟨hrun, hcount, hstale⟩ := hfacts
  obtain ⟨hrunning, -⟩ := stale_pacer_stops hr hq (eq_ok_of_toOption hstale) 9
  exact ⟨(hrunning hrun).1 5 (by decide), hcount⟩

def pausedPacer : Pacer :=
  (reloadedHost [.pause]).pacers[0]?.get (by decide +kernel)

/-- **A pacer that has paused does not stop** after the reload of its session: five steps leave it
paused, with its tick of the timers on the schedule. -/
theorem paused_pacer_stays : pausedPacer.power = .paused ∧
    (HostM.isCurrent pausedPacer.handle (reloadedHost [.pause])).1.toOption = some false ∧
    ((HostM.runSteps (HostM.performWithin 9) 0 5 (reloadedHost [.pause])).2.pacers[0]?.map
      fun q => (q.power, q.schedule.size)) = some (.paused, 1) := by
  decide +kernel

end Chip8
