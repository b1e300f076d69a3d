import Chip8.Proofs.Host.Calls

/-!
# Rounds of a pacer

A batch of steps is made of rounds.  In each of them the pacer lets the cues
happen that are due, executes one step and counts it.  A round finds a pacer
that may be behind by the cues of the step before it, and these are all taken
off at its beginning; so the host that it leaves follows the one that it found
without these cues.

* `stepsUpTo_succ`: steps are rounds, as long as these say that there is another.
* `follows_round`, `follows_settle`: what a round keeps.
* `keeps_runSteps`: a batch as a whole.
-/

namespace Chip8

/-- The host without the cues of a pacer that are due. -/
def Host.takeDue (h : Host) (p : Nat) : Host :=
  { h with pacers := h.pacers.modify p Pacer.takeDue }

theorem Host.pacers_takeDue {h : Host} {p : Nat} {q : Pacer} (hq : h.pacers[p]? = some q) :
    (h.takeDue p).pacers[p]? = some q.takeDue := by
  rw [Host.takeDue, Array.getElem?_modify, if_pos rfl, hq]
  rfl

/-- A host in order follows from itself without the cues that are due: there are none. -/
theorem Host.follows_takeDue (h : Host) (p : Nat) : Follows h (h.takeDue p) :=
  .of_pacers <| .modify (fun _ => ⟨rfl, rfl⟩) fun q _ hq => by
    rw [hq.ahead.takeDue_eq_self]
    exact hq

theorem Host.follows_takeDue_modify {h : Host} {p : Nat} {f : Pacer → Pacer}
    (hsetup : ∀ q : Pacer, q.SameSetup (f q)) (hf : ∀ q, q.InOrder → (f q).takeDue.InOrder) :
    Follows h (Host.takeDue { h with pacers := h.pacers.modify p f } p) := by
  rw [Host.takeDue, modify_modify]
  exact .of_pacers (.modify (f := fun q => (f q).takeDue)
    (fun q => (hsetup q).trans ⟨rfl, rfl⟩) fun q _ hq => hf q hq)

namespace HostM

variable (perform : Request → HostM Reply) (p : Nat)

/-- One step with the cues that come before it; whether there may be another one after it. -/
def round : HostM Bool := do
  settle perform p
  let pacer ← pacerAt p
  if pacer.power ≠ .running then return false
  if !(← isCurrent pacer.handle) then
    log (staleLine pacer.handle)
    modifyPacer p Pacer.stopNow
    return false
  let status ← stepHandle perform pacer.handle
  modifyPacer p (·.countStep status)
  if status.isHalted then
    modifyPacer p Pacer.stopNow
    return false
  return true

theorem stepsUpTo_succ (n : Nat) :
    stepsUpTo perform p (n + 1) =
      (round perform p >>= fun go => if go then stepsUpTo perform p n else pure ()) := by
  rw [stepsUpTo, round, bind_assoc]
  refine bind_congr fun _ => ?_
  rw [bind_assoc]
  refine bind_congr fun q => ?_
  by_cases hrun : q.power ≠ .running
  · rw [if_pos hrun, if_pos hrun]
    rfl
  rw [if_neg hrun, if_neg hrun, bind_assoc]
  refine bind_congr fun current => ?_
  cases current with
  | false => rfl
  | true =>
    show (stepHandle perform q.handle >>= fun _ => _) =
      (stepHandle perform q.handle >>= fun _ => _) >>= _
    rw [bind_assoc]
    refine bind_congr fun status => ?_
    rw [bind_assoc]
    refine bind_congr fun _ => ?_
    cases status with
    | halted r => rfl
    | _ => rfl

variable [KeepsRequests perform]

theorem follows_settle (h : Host) : Host.Follows (h.takeDue p) (settle perform p h).2 := by
  rw [settle]
  cases hq : h.pacers[p]? with
  | none =>
    rw [bind_of_error (pacerAt_of_eq_none hq), Host.takeDue, modify_of_eq_none hq]
    exact .refl h
  | some q =>
    rw [bind_of_ok (pacerAt_apply hq)]
    exact Keeps.follows (x := fireAll perform p q.due) (h.takeDue p)

theorem follows_cueNow (cue : Cue) (h : Host) : Host.Follows h (cueNow perform p cue h).2 := by
  have hcue : Host.Follows h (Host.takeDue (modifyPacer p (fun q => q.enqueue cue 0) h).2 p) :=
    Host.follows_takeDue_modify (fun _ => ⟨rfl, rfl⟩) fun q hq => hq.takeDue_enqueue cue
  exact hcue.trans (follows_settle perform p _)

instance keeps_cueNow (cue : Cue) : Keeps (cueNow perform p cue) :=
  ⟨follows_cueNow perform p cue⟩

/-- A pacer of the host that does not run. -/
def Rests (p : Nat) (h : Host) : Prop :=
  ∃ q, h.pacers[p]? = some q ∧ q.power ≠ .running

theorem rests_modify {h : Host} {p : Nat} {q : Pacer} {f : Pacer → Pacer}
    (hq : h.pacers[p]? = some q) (hf : (f q).power = .stopped) :
    Rests p { h with pacers := h.pacers.modify p f } := by
  refine ⟨f q, ?_, by rw [hf]; decide⟩
  rw [Array.getElem?_modify, if_pos rfl, hq]
  rfl

/-- What is kept between the host that a round finds and the outcome and the host that it leaves. -/
def RoundKeeps (p : Nat) (h : Host) : Except Refusal Bool × Host → Prop
  | (.error _, h') => Host.Follows (h.takeDue p) h'
  | (.ok false, h') => Host.Follows (h.takeDue p) h' ∧ Rests p h'
  | (.ok true, h') => Host.Follows (h.takeDue p) (h'.takeDue p)

/-- **What a round keeps**: it leaves a host in order, up to the cues that are due after its
step, and says that there is no other one if the pacer does not run any more. -/
theorem follows_round (h : Host) : RoundKeeps p h (round perform p h) := by
  have hsettle := follows_settle perform p h
  rw [round, bind_apply]
  rcases hs : settle perform p h with ⟨_ | _, h₁⟩
  · rw [hs] at hsettle
    exact hsettle
  rw [hs] at hsettle
  dsimp only
  cases hq : h₁.pacers[p]? with
  | none =>
    rw [bind_of_error (pacerAt_of_eq_none hq)]
    exact hsettle
  | some q =>
    rw [bind_of_ok (pacerAt_apply hq)]
    by_cases hrun : q.power ≠ .running
    · rw [if_pos hrun]
      exact ⟨hsettle, q, hq, hrun⟩
    rw [if_neg hrun, bind_apply]
    have hunchanged := isCurrent_unchanged q.handle h₁
    rcases hc : isCurrent q.handle h₁ with ⟨_ | current, h₂⟩ <;> rw [hc] at hunchanged <;>
      subst hunchanged
    · exact hsettle
    cases current with
    | false =>
      have hstop : Host.Follows h₂
          (modifyPacer p Pacer.stopNow (log (staleLine q.handle) h₂).2).2 :=
        (Keeps.follows h₂).trans (follows_modifyPacer (fun _ => ⟨rfl, rfl⟩) fun _ _ h => h.stopNow)
      exact ⟨hsettle.trans hstop, rests_modify (f := Pacer.stopNow) hq rfl⟩
    | true =>
      show RoundKeeps p h ((stepHandle perform q.handle >>= fun status => _) h₂)
      have hstep : Host.Follows h₂ (stepHandle perform q.handle h₂).2 := Keeps.follows h₂
      rw [bind_apply]
      rcases hr : stepHandle perform q.handle h₂ with ⟨_ | status, h₃⟩
      · rw [hr] at hstep
        exact hsettle.trans hstep
      rw [hr] at hstep
      obtain ⟨q₃, hq₃, -⟩ := hstep.pacers.same_setup hq
      cases status with
      | halted r =>
        have hstop : Host.Follows h₃ { h₃ with pacers :=
            (h₃.pacers.modify p (·.countStep (.halted r))).modify p Pacer.stopNow } := by
          rw [modify_modify]
          exact .of_pacers (.modify (f := fun q => (q.countStep (.halted r)).stopNow)
            (fun _ => ⟨rfl, rfl⟩) fun _ _ hq => hq.stopNow_countStep _)
        refine ⟨(hsettle.trans hstep).trans hstop, ?_⟩
        show Rests p { h₃ with pacers := (h₃.pacers.modify p _).modify p Pacer.stopNow }
        rw [modify_modify]
        exact rests_modify hq₃ rfl
      | _ =>
        exact (hsettle.trans hstep).trans
          (Host.follows_takeDue_modify (fun _ => ⟨rfl, rfl⟩) fun _ hq => hq.takeDue_countStep _)

/-- **What a batch keeps**: it lets the cues of its last step happen. -/
theorem follows_batch (n : Nat) (h : Host) :
    Host.Follows (h.takeDue p) ((stepsUpTo perform p n >>= fun _ => settle perform p) h).2 := by
  induction n generalizing h with
  | zero => exact follows_settle perform p h
  | succ n ih =>
    have hround := follows_round perform p h
    rw [stepsUpTo_succ, bind_assoc, bind_apply]
    rcases hr : round perform p h with ⟨_ | go, h'⟩ <;> rw [hr] at hround
    · exact hround
    cases go with
    | false =>
      have hsettle := (h'.follows_takeDue p).trans (follows_settle perform p h')
      exact hround.1.trans hsettle
    | true => exact hround.trans (ih h')

instance keeps_runSteps (count : Int) : Keeps (runSteps perform p count) where
  follows h := by
    rw [runSteps, ← bind_assoc]
    refine follows_bind ?_ fun _ h' _ => Keeps.follows h'
    exact (h.follows_takeDue p).trans (follows_batch perform p count.toNat h)

end HostM

end Chip8
