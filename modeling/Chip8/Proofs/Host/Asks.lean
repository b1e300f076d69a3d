import Chip8.Proofs.Host.Calls

/-!
# Requests in the middle of an action

An action is given a function that performs the requests made in the middle of it.
It asks for a request at a host if it has come to that host when it calls the
function.  The function is all that can be seen of this from outside: if the
request is refused at that host, and everything else is performed as before, then
the whole action is refused.  A refusal that is a reason to halt does not get so
far, as a step halts its program by it; every other one does.

A step asks at most once, for the request before its random number, and in the
middle of the step: its engine is busy, and its program counter has moved.

* `stepEngine_eq_of_stepAsks`: how a step goes depends on nothing else.
* `outcome_of_stepAsks`: how the step ends, by how the request ends.
* `stepEngine_busy`: how a step can be refused because an engine is busy.
-/

namespace Chip8

/-- The engine has a step in progress, or something else that it is kept for. -/
def Host.IsBusy (h : Host) (c : Nat) : Prop :=
  ∃ e, h.engines[c]? = some e ∧ e.busy = true

/-- The host in the middle of an engine's step, which has just taken a random number. -/
def Host.halfway (h : Host) (c : Nat) (e : Engine) : Host :=
  (h.putEngine c { e.opened with source := e.source.advance }).addLines e.fetchLines

theorem Host.engines_halfway {h : Host} {c : Nat} {e : Engine} (he : h.engines[c]? = some e) :
    (h.halfway c e).engines[c]? = some { e.opened with source := e.source.advance } :=
  Host.engines_putEngine he

theorem Host.engines_halfway_of_ne {h : Host} {c c' : Nat} {e : Engine} (hc : c ≠ c') :
    (h.halfway c e).engines[c']? = h.engines[c']? :=
  Array.getElem?_setIfInBounds_ne hc

/-- The request that waits before the random number that the next step takes, if it takes one. -/
def Engine.waiting? (e : Engine) : Option Request :=
  match e.started, e.busy, e.machine.halted, e.machine.advance with
  | true, false, none, .drawing .. => e.source.next?.bind Draw.before
  | _, _, _, _ => none

/-- What an engine is like whose next step makes a request. -/
structure Engine.Waits (e : Engine) (r : Request) : Prop where
  started : e.started = true
  free : e.busy = false
  running : e.machine.halted = none
  draws : ∃ m x mask, e.machine.advance = .drawing m x mask
  next : ∃ value, e.source.next? = some ⟨some r, value⟩

theorem Engine.waiting?_eq_some_iff {e : Engine} {r : Request} :
    e.waiting? = some r ↔ e.Waits r := by
  constructor
  · intro hw
    unfold waiting? at hw
    split at hw
    · next m x mask hs hb hh ha =>
      obtain ⟨⟨before, value⟩, hd, hr⟩ := Option.bind_eq_some_iff.mp hw
      subst hr
      exact ⟨hs, hb, hh, ⟨m, x, mask, ha⟩, value, hd⟩
    · cases hw
  · rintro ⟨hs, hb, hh, ⟨m, x, mask, ha⟩, value, hd⟩
    unfold waiting?
    rw [hs, hb, hh, ha, hd]
    rfl

/-- Only a refusal of the number is a refusal of the step that takes it. -/
theorem Engine.eq_error_of_drawOutcome {drawn : Except Refusal UInt8} {refusal : Refusal}
    (hout : Engine.drawOutcome drawn = .error refusal) : drawn = .error refusal := by
  rcases drawn with r | byte
  · cases r <;> cases hout <;> rfl
  · cases hout

namespace HostM

variable {α : Type} {perform perform' : Request → HostM Reply} {r : Request} {h h' : Host}
  {refusal : Refusal} {c : Nat} {e : Engine}

/-- Requests are performed as before, but for one of them, which is refused at one host. -/
structure Refusing (perform : Request → HostM Reply) (r : Request) (h : Host) (refusal : Refusal)
    (perform' : Request → HostM Reply) : Prop where
  refused : perform' r h = (.error refusal, h)
  others : ∀ r' h', ¬(r' = r ∧ h' = h) → perform' r' h' = perform r' h'

theorem exists_refusing (perform : Request → HostM Reply) (r : Request) (h : Host)
    (refusal : Refusal) : ∃ perform', Refusing perform r h refusal perform' := by
  classical
  exact ⟨fun r' h' => if r' = r ∧ h' = h then (.error refusal, h) else perform r' h',
    if_pos ⟨rfl, rfl⟩, fun _ _ hne => if_neg hne⟩

/-- From a host on, the action comes to make a request at another host: it is refused if the request
is, whatever the refusal, but for one that halts programs. -/
def Asks (action : (Request → HostM Reply) → HostM α) (perform : Request → HostM Reply) (h : Host)
    (r : Request) (h' : Host) : Prop :=
  ∀ refusal perform', (∀ reason, refusal ≠ .halting reason) →
    Refusing perform r h' refusal perform' → (action perform' h).1 = .error refusal

/-- The step of an engine at a host takes a random number, before which a request waits.  The
request is made at the host in the middle of the step. -/
def StepAsks (c : Nat) (h : Host) (r : Request) (h' : Host) : Prop :=
  ∃ e, h.engines[c]? = some e ∧ e.waiting? = some r ∧ h' = h.halfway c e

/-! ### Steps -/

theorem drawByte_opened (perform : Request → HostM Reply) (he : h.engines[c]? = some e) :
    drawByte perform c ((h.putEngine c e.opened).addLines e.fetchLines) =
      byteOf perform e.source.next? (h.halfway c e) := by
  have hopened : ((h.putEngine c e.opened).addLines e.fetchLines).engines[c]? = some e.opened :=
    Host.engines_putEngine he
  rw [drawByte_eq, bind_of_ok (engine_apply hopened), bind_of_ok (modifyEngine_apply hopened _),
    Host.putEngine_addLines, Host.putEngine_putEngine]
  rfl

theorem byteOf_congr {value : Int} (hsame : perform' r h = perform r h) :
    byteOf perform' (some ⟨some r, value⟩) h = byteOf perform (some ⟨some r, value⟩) h := by
  show (perform' r >>= _) h = (perform r >>= _) h
  rw [bind_apply, bind_apply, hsame]

/-- **A step goes the same way** if the request that it makes does. -/
theorem stepEngine_eq_of_stepAsks [KeepsRequests perform]
    (hsame : ∀ r h', StepAsks c h r h' → perform' r h' = perform r h') :
    stepEngine perform' c h = stepEngine perform c h := by
  cases he : h.engines[c]? with
  | none => rw [stepEngine_of_eq_none he, stepEngine_of_eq_none he]
  | some e =>
    rcases stepEngine_eq_or_drawing he with ⟨result, hr⟩ | ⟨hs, hfree, hrun, m, x, mask, ha⟩
    · rw [hr, hr]
    · have hbyte : byteOf perform' e.source.next? (h.halfway c e) =
          byteOf perform e.source.next? (h.halfway c e) := by
        rcases hd : e.source.next? with _ | ⟨_ | r, value⟩
        · rfl
        · rfl
        · refine byteOf_congr (hsame r _ ⟨e, he, ?_, rfl⟩)
          exact Engine.waiting?_eq_some_iff.mpr ⟨hs, hfree, hrun, ⟨m, x, mask, ha⟩, value, hd⟩
      have hdraw : drawByte perform' c ((h.putEngine c e.opened).addLines e.fetchLines) =
          drawByte perform c ((h.putEngine c e.opened).addLines e.fetchLines) := by
        rw [drawByte_opened perform' he, drawByte_opened perform he, hbyte]
      obtain ⟨e', he', -⟩ := exists_drawn perform c (h := (h.putEngine c e.opened).addLines _)
        (Host.engines_putEngine he) rfl rfl
      rw [stepEngine_of_drawing he hs hfree hrun ha hdraw he',
        stepEngine_of_drawing he hs hfree hrun ha rfl he']

/-- **A step that has asked** ends by how the request ends, if its engine is still there. -/
theorem outcome_of_stepAsks (hasks : StepAsks c h r h') {e' : Engine}
    (he' : (perform r h').2.engines[c]? = some e') :
    (stepEngine perform c h).1 = Engine.drawOutcome ((perform r h').1.map fun _ => 0) := by
  obtain ⟨e, he, hwaits, rfl⟩ := hasks
  obtain ⟨hs, hfree, hrun, ⟨m, x, mask, ha⟩, value, hd⟩ := Engine.waiting?_eq_some_iff.mp hwaits
  rcases hr : perform r (h.halfway c e) with ⟨refusal | a, h''⟩ <;> rw [hr] at he'
  · have hdraw : drawByte perform c ((h.putEngine c e.opened).addLines e.fetchLines) =
        (.error refusal, h'') := by
      rw [drawByte_opened perform he, hd]
      exact bind_of_error hr _
    rw [stepEngine_of_drawing he hs hfree hrun ha hdraw he']
    rfl
  · have hdraw : drawByte perform c ((h.putEngine c e.opened).addLines e.fetchLines) =
        (.ok (UInt8.ofInt value), { h'' with notes := h''.notes.push (.reply a) }) := by
      rw [drawByte_opened perform he, hd]
      exact bind_of_ok hr _
    rw [stepEngine_of_drawing he hs hfree hrun ha hdraw he']
    rfl

theorem asks_stepEngine (hasks : StepAsks c h r h') :
    Asks (stepEngine · c) perform h r h' := by
  intro refusal perform' hnot hrefusing
  obtain ⟨e, he, hwaits, rfl⟩ := hasks
  have hstill : (perform' r (h.halfway c e)).2.engines[c]? =
      some { e.opened with source := e.source.advance } := by
    rw [hrefusing.refused]
    exact Host.engines_halfway he
  rw [outcome_of_stepAsks ⟨e, he, hwaits, rfl⟩ hstill, hrefusing.refused]
  cases refusal with
  | halting reason => exact absurd rfl (hnot reason)
  | _ => rfl

/-- **A step is refused because an engine is busy** only if its own engine is, or if the request
that it makes has been refused for this. -/
theorem stepEngine_busy [KeepsRequests perform] {a : Activity}
    (hbusy : (stepEngine perform c h).1 = .error (.busy a)) :
    h.IsBusy c ∨ ∃ r h', StepAsks c h r h' ∧ (perform r h').1 = .error (.busy a) := by
  cases he : h.engines[c]? with
  | none =>
    rw [stepEngine_of_eq_none he] at hbusy
    cases hbusy
  | some e =>
    cases hb : e.busy with
    | true => exact .inl ⟨e, he, hb⟩
    | false =>
      cases hs : e.started with
      | false =>
        rw [stepEngine_of_not_started he hs] at hbusy
        cases hbusy
      | true =>
        have hcases := @stepEngine_of_free perform h c e he hs hb
        rcases hcases with halone | ⟨hrun, hready, m, x, mask, ha⟩
        · rw [halone, Engine.outcome] at hbusy
          cases hst : e.reaction.status <;> rw [hst] at hbusy <;> cases hbusy
        · obtain ⟨r, value, hd⟩ : ∃ r value, e.source.next? = some ⟨some r, value⟩ := by
            rcases hd : e.source.next? with _ | ⟨_ | r, value⟩
            · exact absurd (fun d hd' => by rw [hd] at hd'; cases hd') hready
            · exact absurd (fun d hd' => by rw [hd] at hd'; cases hd'; rfl) hready
            · exact ⟨r, value, rfl⟩
          have hwaits : e.Waits r := ⟨hs, hb, hrun, ⟨m, x, mask, ha⟩, value, hd⟩
          have hasks : StepAsks c h r (h.halfway c e) :=
            ⟨e, he, Engine.waiting?_eq_some_iff.mpr hwaits, rfl⟩
          have hengines : EnginesFollow (h.halfway c e).engines
              (perform r (h.halfway c e)).2.engines := KeepsRequests.engines r _
          obtain ⟨e', he', -⟩ := hengines.kept (Host.engines_halfway he)
          rw [outcome_of_stepAsks hasks he'] at hbusy
          refine .inr ⟨r, _, hasks, ?_⟩
          have hdrawn := Engine.eq_error_of_drawOutcome hbusy
          cases hr : (perform r (h.halfway c e)).1 with
          | error refusal =>
            rw [hr] at hdrawn
            cases hdrawn
            rfl
          | ok answer =>
            rw [hr] at hdrawn
            cases hdrawn

end HostM

end Chip8
