import Chip8.Proofs.Host.Sessions
import Chip8.Proofs.Pacer.Spared

/-!
# Runs cut short

A run that is under way when an engine is retired, in the middle of a frame
callback or a sleep, goes on.  To say what it does from then on, three runs are
compared that differ in how they perform the requests that are made in the
middle of them: the run as it is; the run in which direct writes to the engine
are refused once it has been retired; and this one given up as soon as the
engine has been retired and makes no step of its own.  The host that the last of
them leaves is the one at the replacement.

`CutShort` says how three actions are related so.  Put together from actions that
are, an action is again; only the engine's own steps need care, which are never
given up in the middle.

* `stepEngine_eq`: no step of the engine itself is given up.
* `cutShort_performUntil`: requests, nested however deep.
-/

namespace Chip8

/-- The engine has been retired, and no step of it is being made. -/
def Host.isGone (c : Nat) (h : Host) : Bool :=
  (h.engines[c]?).any fun e => e.retired && !e.busy

theorem Host.isGone_congr {c : Nat} {h h' : Host} (he : h'.engines[c]? = h.engines[c]?) :
    h'.isGone c = h.isGone c := by
  rw [isGone, isGone, he]

theorem Host.retired_of_isGone {c : Nat} {h : Host} (hg : h.isGone c = true) : h.Retired c := by
  rw [isGone, Option.any_eq_true] at hg
  obtain ⟨e, he, hgone⟩ := hg
  exact ⟨e, he, (Bool.and_eq_true_iff.mp hgone).1⟩

theorem Host.not_isGone_of_busy {c : Nat} {h : Host} {e : Engine} (he : h.engines[c]? = some e)
    (hb : e.busy = true) : h.isGone c = false := by
  rw [isGone, he, Option.any_some, hb, Bool.not_true, Bool.and_false]

namespace HostM

variable {α β : Type} (c : Nat)

/-- Performs a request as `performSparing` does, but gives up the whole run when engine `c` is gone
after it.  The answer is noted before. -/
def performUntil : Nat → Request → HostM Reply
  | 0, _ => throw .nestedTooDeep
  | depth + 1, r => do
    if r.isWrite && (← get).isOn c then throw .retired
    let a ← respond (performUntil depth) r
    if (← get).isGone c then
      note (.reply a)
      throw .retired
    return a

/-- What three runs have come to: the first as it is, the second with direct writes refused, the
third given up when the engine is gone. -/
structure Results (full sparing cut : Except Refusal α × Host) : Prop where
  unrefused : sparing = full ∨ sparing.1 = .error .retired
  untouched : cut = sparing ∨
    cut.1 = .error .retired ∧ cut.2.isGone c = true ∧ Host.Spared c cut.2 sparing.2

/-- The three actions are one action as it is, with direct writes to the engine refused, and given
up when the engine is gone. -/
class CutShort (full sparing cut : HostM α) : Prop where
  results : ∀ h, Results c (full h) (sparing h) (cut h)

variable {c}

theorem Results.same (result : Except Refusal α × Host) : Results c result result result :=
  ⟨.inl rfl, .inl rfl⟩

/-! ### Actions put together -/

theorem results_bind {x s y : HostM α} {f k l : α → HostM β} {h : Host}
    (hx : Results c (x h) (s h) (y h))
    (hf : ∀ a h', s h = (.ok a, h') → Results c (f a h') (k a h') (l a h'))
    (hk : y h ≠ s h → ∀ a h', s h = (.ok a, h') → h'.Retired c →
      Host.Spared c h' (k a h').2) :
    Results c ((x >>= f) h) ((s >>= k) h) ((y >>= l) h) where
  unrefused := by
    rcases hs : s h with ⟨r | a, h'⟩
    · rw [bind_of_error hs]
      rcases hx.unrefused with heq | hrefused
      · rw [bind_of_error (heq.symm.trans hs)]
        exact .inl rfl
      · rw [hs] at hrefused
        cases hrefused
        exact .inr rfl
    · rw [bind_of_ok hs]
      rcases hx.unrefused with heq | hrefused
      · rw [bind_of_ok (heq.symm.trans hs)]
        exact (hf a h' hs).unrefused
      · rw [hs] at hrefused
        cases hrefused
  untouched := by
    by_cases heq : y h = s h
    · rcases hs : s h with ⟨r | a, h'⟩
      · rw [bind_of_error hs, bind_of_error (heq.trans hs)]
        exact .inl rfl
      · rw [bind_of_ok hs, bind_of_ok (heq.trans hs)]
        exact (hf a h' hs).untouched
    · obtain ⟨hretired, hgone, hspared⟩ := hx.untouched.resolve_left heq
      have hgiven : y h = (.error .retired, (y h).2) := Prod.ext hretired rfl
      rw [bind_of_error hgiven]
      refine .inr ⟨rfl, hgone, ?_⟩
      rcases hs : s h with ⟨r | a, h'⟩ <;> rw [hs] at hspared
      · rw [bind_of_error hs]
        exact hspared
      · rw [bind_of_ok hs]
        have hr : h'.Retired c := hspared.retired (Host.retired_of_isGone hgone)
        exact hspared.trans (hk heq a h' hs hr)

instance cutShort_bind {x s y : HostM α} {f k l : α → HostM β} [hx : CutShort c x s y]
    [hf : ∀ a, CutShort c (f a) (k a) (l a)] [hk : ∀ a, Spares c (k a)] :
    CutShort c (x >>= f) (s >>= k) (y >>= l) where
  results h := results_bind (hx.results h) (fun a h' _ => (hf a).results h')
    fun _ a h' _ hr => (hk a).spares h' hr

/-- An action without requests in the middle of it. -/
instance cutShort_refl (x : HostM α) : CutShort c x x x :=
  ⟨fun h => .same (x h)⟩

/-- What follows an action that is not given up. -/
instance cutShort_after (x : HostM α) {f k l : α → HostM β}
    [hf : ∀ a, CutShort c (f a) (k a) (l a)] : CutShort c (x >>= f) (x >>= k) (x >>= l) where
  results h := results_bind (.same (x h)) (fun a h' _ => (hf a).results h')
    fun hgiven => absurd rfl hgiven

theorem cutShort_then (x : HostM α) {f k l : α → HostM β}
    (hf : ∀ a, CutShort c (f a) (k a) (l a)) : CutShort c (x >>= f) (x >>= k) (x >>= l) :=
  inferInstance

instance cutShort_ite {p : Prop} [Decidable p] {x s y x' s' y' : HostM α}
    [hx : CutShort c x s y] [hy : CutShort c x' s' y'] :
    CutShort c (if p then x else x') (if p then s else s') (if p then y else y') := by
  split
  · exact hx
  · exact hy

theorem cutShort_cond {p : Prop} [Decidable p] {x s y x' s' y' : HostM α}
    (hx : CutShort c x s y) (hy : CutShort c x' s' y') :
    CutShort c (if p then x else x') (if p then s else s') (if p then y else y') :=
  inferInstance

/-! ### Steps -/

section Performing

variable (full sparing cut : Request → HostM Reply)
  [hp : ∀ r, CutShort c (full r) (sparing r) (cut r)] [hs : ∀ r, Spares c (sparing r)]

instance cutShort_byteOf (draw? : Option (Draw Request)) :
    CutShort c (byteOf full draw?) (byteOf sparing draw?) (byteOf cut draw?) := by
  rcases draw? with _ | ⟨_ | r, value⟩ <;> unfold byteOf <;> dsimp only <;> infer_instance

instance cutShort_drawByte (c' : Nat) :
    CutShort c (drawByte full c') (drawByte sparing c') (drawByte cut c') := by
  rw [drawByte_eq, drawByte_eq, drawByte_eq]
  infer_instance

variable [KeepsRequests full] [KeepsRequests sparing] [KeepsRequests cut]

theorem results_stepEngine (c' : Nat) (h : Host) :
    Results c (stepEngine full c' h) (stepEngine sparing c' h) (stepEngine cut c' h) ∧
      (c' = c → stepEngine cut c' h = stepEngine sparing c' h) := by
  cases he : h.engines[c']? with
  | none =>
    rw [stepEngine_of_eq_none he, stepEngine_of_eq_none he, stepEngine_of_eq_none he]
    exact ⟨.same _, fun _ => rfl⟩
  | some e =>
    rcases stepEngine_eq_or_drawing he with ⟨result, hr⟩ | ⟨hstarted, hfree, hrun, m, x, mask, ha⟩
    · rw [hr, hr, hr]
      exact ⟨.same _, fun _ => rfl⟩
    -- The step asks for a number: compare the requests that come before it.
    have hopened : ((h.putEngine c' e.opened).addLines e.fetchLines).engines[c']? =
        some e.opened := Host.engines_putEngine he
    have hdraw : Results c (drawByte full c' _) (drawByte sparing c' _) (drawByte cut c' _) :=
      CutShort.results ((h.putEngine c' e.opened).addLines e.fetchLines)
    rcases hx : drawByte full c' ((h.putEngine c' e.opened).addLines e.fetchLines) with ⟨d₁, h₁⟩
    rcases hs : drawByte sparing c' ((h.putEngine c' e.opened).addLines e.fetchLines) with ⟨d₂, h₂⟩
    rcases hy : drawByte cut c' ((h.putEngine c' e.opened).addLines e.fetchLines) with ⟨d₃, h₃⟩
    obtain ⟨e₁, he₁, -⟩ := exists_drawn full c' hopened rfl hx
    obtain ⟨e₂, he₂, -⟩ := exists_drawn sparing c' hopened rfl hs
    obtain ⟨e₃, he₃, hbusy⟩ := exists_drawn cut c' hopened rfl hy
    rw [hx, hs, hy] at hdraw
    rw [stepEngine_of_drawing he hstarted hfree hrun ha hx he₁,
      stepEngine_of_drawing he hstarted hfree hrun ha hs he₂,
      stepEngine_of_drawing he hstarted hfree hrun ha hy he₃]
    refine ⟨⟨?_, ?_⟩, ?_⟩
    · rcases hdraw.unrefused with heq | hrefused
      · cases heq
        rw [he₁] at he₂
        cases he₂
        exact .inl rfl
      · cases hrefused
        exact .inr rfl
    · rcases hdraw.untouched with heq | ⟨hretired, hgone, hspared⟩
      · cases heq
        rw [he₂] at he₃
        cases he₃
        exact .inl rfl
      · have hne : c' ≠ c := by
          rintro rfl
          rw [Host.not_isGone_of_busy he₃ hbusy] at hgone
          cases hgone
        cases hretired
        refine .inr ⟨rfl, (Host.isGone_congr (Array.getElem?_setIfInBounds_ne hne)).trans hgone, ?_⟩
        refine .trans (.of_eq (Array.getElem?_setIfInBounds_ne hne).symm rfl) (hspared.trans ?_)
        exact .of_eq (Array.getElem?_setIfInBounds_ne hne) rfl
    · rintro rfl
      rcases hdraw.untouched with heq | ⟨-, hgone, -⟩
      · cases heq
        rw [he₂] at he₃
        cases he₃
        rfl
      · rw [Host.not_isGone_of_busy he₃ hbusy] at hgone
        cases hgone

instance cutShort_stepEngine (c' : Nat) :
    CutShort c (stepEngine full c') (stepEngine sparing c') (stepEngine cut c') :=
  ⟨fun h => (results_stepEngine full sparing cut c' h).1⟩

include full in
/-- **No step of the engine itself is given up**: in the middle of it the engine is not gone. -/
theorem stepEngine_eq : stepEngine cut c = stepEngine sparing c :=
  funext fun h => (results_stepEngine full sparing cut c h).2 rfl

/-- What follows a step.  It has to spare the engine after the step of another one only. -/
theorem cutShort_stepEngine_bind (c' : Nat) {f k l : Status → HostM α}
    (hf : ∀ status, CutShort c (f status) (k status) (l status))
    (hk : c' ≠ c → ∀ status, Spares c (k status)) :
    CutShort c (stepEngine full c' >>= f) (stepEngine sparing c' >>= k)
      (stepEngine cut c' >>= l) where
  results h := by
    refine results_bind (CutShort.results h) (fun status h' _ => (hf status).results h') ?_
    intro hgiven status h' _ hr
    have hne : c' ≠ c := by
      rintro rfl
      exact hgiven (congrFun (stepEngine_eq full sparing cut) h)
    exact (hk hne status).spares h' hr

instance cutShort_stepTimes (c' n : Nat) :
    CutShort c (stepTimes full c' n) (stepTimes sparing c' n) (stepTimes cut c' n) := by
  induction n with
  | zero => exact cutShort_refl _
  | succ n ih =>
    unfold stepTimes
    refine cutShort_stepEngine_bind full sparing cut c' (fun status => ?_) fun hne status => ?_
    · infer_instance
    · have : Fact (c' ≠ c) := ⟨hne⟩
      infer_instance

instance cutShort_executeUpTo (c' done : Nat) (last : Option Status) (n : Nat) :
    CutShort c (executeUpTo full c' done last n) (executeUpTo sparing c' done last n)
      (executeUpTo cut c' done last n) := by
  induction n generalizing done last with
  | zero => exact cutShort_refl _
  | succ n ih =>
    unfold executeUpTo
    refine cutShort_stepEngine_bind full sparing cut c' (fun status => ?_) fun hne status => ?_
    · infer_instance
    · have : Fact (c' ≠ c) := ⟨hne⟩
      infer_instance

theorem results_stepHandle (x : Handle) (h : Host) :
    Results c (stepHandle full x h) (stepHandle sparing x h) (stepHandle cut x h) ∧
      (x.engine = c → stepHandle cut x h = stepHandle sparing x h) := by
  have hunchanged := isCurrent_unchanged x h
  rcases hx : isCurrent x h with ⟨r | current, h'⟩ <;> rw [hx] at hunchanged <;> subst hunchanged
  · rw [stepHandle, stepHandle, stepHandle, bind_of_error hx, bind_of_error hx, bind_of_error hx]
    exact ⟨.same _, fun _ => rfl⟩
  cases current with
  | false =>
    rw [stepHandle_of_not_current hx, stepHandle_of_not_current hx, stepHandle_of_not_current hx]
    exact ⟨.same _, fun _ => rfl⟩
  | true =>
    rw [stepHandle_of_current hx, stepHandle_of_current hx, stepHandle_of_current hx]
    exact results_stepEngine full sparing cut x.engine h'

instance cutShort_stepHandle (x : Handle) :
    CutShort c (stepHandle full x) (stepHandle sparing x) (stepHandle cut x) :=
  ⟨fun h => (results_stepHandle full sparing cut x h).1⟩

/-! ### Cues -/

section Cues

variable (p : Nat)

omit [KeepsRequests full] [KeepsRequests sparing] [KeepsRequests cut]

instance cutShort_performAll (requests : List Request) :
    CutShort c (performAll full requests) (performAll sparing requests)
      (performAll cut requests) := by
  induction requests with
  | nil => exact cutShort_refl _
  | cons r rest ih =>
    unfold performAll
    infer_instance

instance cutShort_showFrame (script : Script Request) (count : Nat) :
    CutShort c (showFrame full script count) (showFrame sparing script count)
      (showFrame cut script count) := by
  unfold showFrame
  infer_instance

instance cutShort_fire (cue : Cue) :
    CutShort c (fire full p cue) (fire sparing p cue) (fire cut p cue) := by
  cases cue with
  | showFrame =>
    unfold fire
    have : Spares c (modifyPacer p fun q => q.enqueue .showFrame q.frameInterval) :=
      spares_enqueue p .showFrame Pacer.frameInterval
    refine cutShort_then _ fun q => ?_
    cases q.frames <;> dsimp only <;> infer_instance
  | _ => exact cutShort_refl _

instance cutShort_fireAll (events : List (Event Cue)) :
    CutShort c (fireAll full p events) (fireAll sparing p events) (fireAll cut p events) := by
  induction events with
  | nil => exact cutShort_refl _
  | cons e rest ih =>
    unfold fireAll
    infer_instance

instance cutShort_settle :
    CutShort c (settle full p) (settle sparing p) (settle cut p) := by
  unfold settle
  have : Spares c (modifyPacer p Pacer.takeDue) :=
    spares_modifyPacer p fun _ => ⟨rfl, fun _ => rfl⟩
  infer_instance

instance cutShort_cueNow (cue : Cue) :
    CutShort c (cueNow full p cue) (cueNow sparing p cue) (cueNow cut p cue) := by
  unfold cueNow
  infer_instance

instance cutShort_powerOff :
    CutShort c (powerOff full p) (powerOff sparing p) (powerOff cut p) := by
  unfold powerOff
  infer_instance

instance cutShort_pause : CutShort c (pause full p) (pause sparing p) (pause cut p) := by
  unfold pause
  infer_instance

instance cutShort_resume : CutShort c (resume full p) (resume sparing p) (resume cut p) := by
  unfold resume
  infer_instance

end Cues

/-! ### Batches and paced runs -/

section Batches

variable (p : Nat)

/-- **A step of a pacer.**  If it is given up, it is the step of another engine, and the pacer that
counts it is not one over the engine that is gone. -/
instance cutShort_countedStep :
    CutShort c (countedStep full p) (countedStep sparing p) (countedStep cut p) where
  results h := by
    rw [countedStep, countedStep, countedStep]
    cases hq : h.pacers[p]? with
    | none =>
      rw [bind_of_error (pacerAt_of_eq_none hq), bind_of_error (pacerAt_of_eq_none hq),
        bind_of_error (pacerAt_of_eq_none hq)]
      exact .same _
    | some q =>
      rw [bind_of_ok (pacerAt_apply hq), bind_of_ok (pacerAt_apply hq),
        bind_of_ok (pacerAt_apply hq)]
      by_cases hrun : q.power ≠ .running
      · rw [if_pos hrun, if_pos hrun, if_pos hrun]
        exact .same _
      rw [if_neg hrun, if_neg hrun, if_neg hrun]
      have hunchanged := isCurrent_unchanged q.handle h
      rcases hx : isCurrent q.handle h with ⟨r | current, h'⟩ <;> rw [hx] at hunchanged <;>
        subst hunchanged
      · rw [bind_of_error hx, bind_of_error hx, bind_of_error hx]
        exact .same _
      rw [bind_of_ok hx, bind_of_ok hx, bind_of_ok hx]
      cases current with
      | false =>
        have hstale : (!false) = true := rfl
        rw [if_pos hstale, if_pos hstale, if_pos hstale]
        exact .same _
      | true =>
        have hcurrent : ¬(!true) = true := by decide
        rw [if_neg hcurrent, if_neg hcurrent, if_neg hcurrent]
        have hresults := results_stepHandle (c := c) full sparing cut q.handle h'
        refine results_bind hresults.1 (fun _ _ _ => .same _) fun hgiven status h₁ hstep hr => ?_
        have hother : q.handle.engine ≠ c := fun hc => hgiven (hresults.2 hc)
        refine spared_countStep p hr (fun q₁ hq₁ => ?_) status
        have hkept := (Keeps.follows (x := stepHandle sparing q.handle) h').pacers.same_setup hq
        rw [hstep] at hkept
        obtain ⟨q', hq', hsame⟩ := hkept
        rw [hq₁] at hq'
        cases hq'
        rw [hsame.handle_eq]
        exact hother

instance cutShort_round : CutShort c (round full p) (round sparing p) (round cut p) := by
  rw [round_eq, round_eq, round_eq]
  infer_instance

instance cutShort_stepsUpTo (n : Nat) :
    CutShort c (stepsUpTo full p n) (stepsUpTo sparing p n) (stepsUpTo cut p n) := by
  induction n with
  | zero => exact cutShort_refl _
  | succ n ih =>
    rw [stepsUpTo_succ, stepsUpTo_succ, stepsUpTo_succ]
    infer_instance

instance cutShort_runSteps (count : Int) :
    CutShort c (runSteps full p count) (runSteps sparing p count) (runSteps cut p count) := by
  unfold runSteps
  infer_instance

instance cutShort_sleep (sleeps : Sleeps) (number : Nat) (duration : Float) :
    CutShort c (sleep full sleeps number duration) (sleep sparing sleeps number duration)
      (sleep cut sleeps number duration) := by
  unfold sleep
  infer_instance

instance cutShort_runRounds (maxBatch : Int) (sleeps : Sleeps) (slept : Nat) (last : Float)
    (n : Nat) : CutShort c (runRounds full p maxBatch sleeps slept last n)
      (runRounds sparing p maxBatch sleeps slept last n)
      (runRounds cut p maxBatch sleeps slept last n) := by
  induction n generalizing slept last with
  | zero => exact cutShort_refl _
  | succ n ih =>
    unfold runRounds
    refine cutShort_then _ fun q => cutShort_cond (cutShort_refl _) ?_
    refine cutShort_then _ fun due => cutShort_cond ?_ ?_
    · infer_instance
    · infer_instance

instance cutShort_run (maxBatch : Int) (sleeps : Sleeps) :
    CutShort c (run full p maxBatch sleeps) (run sparing p maxBatch sleeps)
      (run cut p maxBatch sleeps) := by
  unfold run
  infer_instance

instance cutShort_runForRounds (wall : WallClock) (deadline : Float) (maxBatch : Int)
    (sleeps : Sleeps) (reads slept : Nat) (last : Float) (n : Nat) :
    CutShort c (runForRounds full p wall deadline maxBatch sleeps reads slept last n)
      (runForRounds sparing p wall deadline maxBatch sleeps reads slept last n)
      (runForRounds cut p wall deadline maxBatch sleeps reads slept last n) := by
  induction n generalizing reads slept last with
  | zero => exact cutShort_refl _
  | succ n ih =>
    unfold runForRounds
    refine cutShort_then _ fun q => cutShort_cond (cutShort_refl _) ?_
    refine cutShort_then _ fun instant => ?_
    refine cutShort_cond (cutShort_refl _) (cutShort_then _ fun due => cutShort_cond ?_ ?_)
    · infer_instance
    · infer_instance

instance cutShort_runFor (wall : WallClock) (seconds : Float) (maxBatch : Int) (sleeps : Sleeps) :
    CutShort c (runFor full p wall seconds maxBatch sleeps)
      (runFor sparing p wall seconds maxBatch sleeps)
      (runFor cut p wall seconds maxBatch sleeps) := by
  unfold runFor
  infer_instance

end Batches

/-! ### Requests -/

instance cutShort_respond (r : Request) :
    CutShort c (respond full r) (respond sparing r) (respond cut r) := by
  cases r with
  | step | execute | stepHandle | powerOff | pause | resume | runSteps | runFor | run =>
    unfold respond
    infer_instance
  | _ => exact cutShort_refl _

end Performing

section Depth

variable {depth : Nat} {r : Request} {h : Host}

theorem performSparing_succ (depth : Nat) (r : Request) (h : Host) :
    performSparing c (depth + 1) r h =
      if r.isWrite && h.isOn c then (.error .retired, h)
      else respond (performSparing c depth) r h := by
  rw [performSparing, bind_of_ok (get_apply h)]
  cases r.isWrite && h.isOn c <;> rfl

theorem performUntil_succ (depth : Nat) (r : Request) (h : Host) :
    performUntil c (depth + 1) r h =
      if r.isWrite && h.isOn c then (.error .retired, h)
      else match respond (performUntil c depth) r h with
        | (.ok a, h') =>
          if h'.isGone c then (.error .retired, { h' with notes := h'.notes.push (.reply a) })
          else (.ok a, h')
        | (.error refusal, h') => (.error refusal, h') := by
  rw [performUntil, bind_of_ok (get_apply h)]
  cases r.isWrite && h.isOn c with
  | true => rfl
  | false =>
    show (respond (performUntil c depth) r >>= fun a => _) h = _
    rw [bind_apply]
    rcases respond (performUntil c depth) r h with ⟨refusal | a, h'⟩
    · rfl
    · show ((get : HostM Host) >>= fun host => _) h' = _
      rw [bind_of_ok (get_apply h')]
      dsimp only
      cases h'.isGone c <;> rfl

theorem noted_congr {x y : HostM Reply} (hxy : x h = y h) : noted x h = noted y h := by
  rw [noted, noted, bind_apply, bind_apply, hxy]

theorem noted_of_error {x : HostM Reply} {h' : Host} {refusal : Refusal}
    (hx : x h = (.error refusal, h')) : noted x h = (.error refusal, h') :=
  bind_of_error hx _

theorem noted_of_ok {x : HostM Reply} {h' : Host} {a : Reply} (hx : x h = (.ok a, h')) :
    noted x h = (.ok (), { h' with notes := h'.notes.push (.reply a) }) :=
  bind_of_ok hx _

instance keepsRequests_performSparing : KeepsRequests (performSparing c depth) := by
  induction depth with
  | zero => exact ⟨fun _ => .of_unchanged fun _ => rfl⟩
  | succ depth ih =>
    refine ⟨fun r => ⟨fun h => ?_⟩⟩
    have hrespond := ((keepsRequests_respond (performSparing c depth)).keeps_noted r).follows h
    have hperform := performSparing_succ (c := c) depth r h
    by_cases hon : (r.isWrite && h.isOn c) = true
    · rw [if_pos hon] at hperform
      rw [noted_of_error hperform]
      exact .refl h
    · rw [if_neg hon] at hperform
      rw [noted_congr hperform]
      exact hrespond

/-- To give up the run after the note of an answer is nothing to what is kept. -/
instance keepsRequests_performUntil : KeepsRequests (performUntil c depth) := by
  induction depth with
  | zero => exact ⟨fun _ => .of_unchanged fun _ => rfl⟩
  | succ depth ih =>
    refine ⟨fun r => ⟨fun h => ?_⟩⟩
    have hrespond := ((keepsRequests_respond (performUntil c depth)).keeps_noted r).follows h
    have hperform := performUntil_succ (c := c) depth r h
    by_cases hon : (r.isWrite && h.isOn c) = true
    · rw [if_pos hon] at hperform
      rw [noted_of_error hperform]
      exact .refl h
    rw [if_neg hon] at hperform
    rcases hr : respond (performUntil c depth) r h with ⟨refusal | a, h'⟩ <;> rw [hr] at hperform
    · rw [noted_of_error hr] at hrespond
      rw [noted_of_error hperform]
      exact hrespond
    · rw [noted_of_ok hr] at hrespond
      dsimp only at hperform
      by_cases hgone : h'.isGone c = true
      · rw [if_pos hgone] at hperform
        rw [noted_of_error hperform]
        exact hrespond
      · rw [if_neg hgone] at hperform
        rw [noted_of_ok hperform]
        exact hrespond

/-- **The three ways to perform a request**, however deep requests are nested in it. -/
instance cutShort_performUntil :
    CutShort c (performWithin depth r) (performSparing c depth r) (performUntil c depth r) := by
  induction depth generalizing r with
  | zero => exact cutShort_refl _
  | succ depth ih =>
    refine ⟨fun h => ?_⟩
    have hrespond : Results c (respond (performWithin depth) r h)
        (respond (performSparing c depth) r h) (respond (performUntil c depth) r h) :=
      CutShort.results h
    rw [performSparing_succ, performUntil_succ]
    by_cases hon : (r.isWrite && h.isOn c) = true
    · rw [if_pos hon, if_pos hon]
      exact ⟨.inr rfl, .inl rfl⟩
    rw [if_neg hon, if_neg hon]
    refine ⟨hrespond.unrefused, ?_⟩
    rcases hr : respond (performUntil c depth) r h with ⟨refusal | a, h'⟩ <;> rw [hr] at hrespond
    · exact hrespond.untouched
    · have heq := hrespond.untouched.resolve_right fun hgiven => by cases hgiven.1
      by_cases hgone : h'.isGone c = true
      · rw [← heq]
        dsimp only
        rw [if_pos hgone]
        exact .inr ⟨rfl, hgone, .of_eq rfl rfl⟩
      · dsimp only
        rw [if_neg hgone]
        exact .inl heq

end Depth

end HostM

end Chip8
