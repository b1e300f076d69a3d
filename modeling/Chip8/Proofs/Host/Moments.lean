import Chip8.Proofs.Host.Callees
import Mathlib.Logic.Relation

/-!
# Engines that have a step in progress

Requests are made in the middle of requests: by random numbers, in the middle of a
step, and by frame callbacks and sleeps, between the steps of a pacer.  A `Moment`
is one of them, with the host at which it is made and the engines that have a step
in progress there.  `Makes` leads from a moment to those in the middle of it, and
every request that is ever made is found in this way (`respond_eq_of_makes`).

At every moment of a script, the engines that are busy are those with a step in
progress.

* `Makes.busyWith`: what one request in the middle of another finds.
* `busy_of_step`: where a refusal because of a busy engine comes from.
* `busy_during_steps`: what follows for the calls on all engines.
-/

namespace Chip8

/-- A request that is made at a host, with requests nested at most so deep in it, and the engines
that have a step in progress, the last one first. -/
structure Moment where
  depth : Nat
  steps : List Nat
  request : Request
  host : Host

namespace Host

variable {h h' : Host} {steps : List Nat} {c : Nat} {e : Engine}

/-- The engines of the list are there and have been started, and of all engines they are the busy
ones. -/
structure BusyWith (h : Host) (steps : List Nat) : Prop where
  busy_iff : ∀ {c : Nat} {e : Engine}, h.engines[c]? = some e → (e.busy = true ↔ c ∈ steps)
  started : ∀ c ∈ steps, ∃ e, h.engines[c]? = some e ∧ e.started = true

theorem Reachable.busyWith (hr : h.Reachable) : h.BusyWith [] where
  busy_iff he := by simp [hr.free he]
  started c hc := by cases hc

namespace BusyWith

theorem of_mem (hb : h.BusyWith steps) (hc : c ∈ steps) :
    ∃ e, h.engines[c]? = some e ∧ e.started = true ∧ e.busy = true := by
  obtain ⟨e, he, hs⟩ := hb.started c hc
  exact ⟨e, he, hs, (hb.busy_iff he).mpr hc⟩

theorem free (hb : h.BusyWith steps) (hc : c ∉ steps) (he : h.engines[c]? = some e) :
    e.busy = false := by
  cases hbusy : e.busy with
  | false => rfl
  | true => exact absurd ((hb.busy_iff he).mp hbusy) hc

theorem follow (hb : h.BusyWith steps) (hf : EnginesFollow h.engines h'.engines) :
    h'.BusyWith steps where
  busy_iff {c e'} he' := by
    constructor
    · intro hbusy
      obtain ⟨e, he, hbusy⟩ := IsBusy.before hf ⟨e', he', hbusy⟩
      exact (hb.busy_iff he).mp hbusy
    · intro hc
      obtain ⟨e, he, -, hbusy⟩ := hb.of_mem hc
      obtain ⟨e'', he'', hfollows⟩ := hf.kept he
      rw [he'] at he''
      cases he''
      exact hfollows.busy_eq.trans hbusy
  started c hc := by
    obtain ⟨e, he, hs⟩ := hb.started c hc
    obtain ⟨e', he', hfollows⟩ := hf.kept he
    exact ⟨e', he', hfollows.started hs⟩

/-- In the middle of a step its engine is busy, too. -/
theorem halfway (hb : h.BusyWith steps) (he : h.engines[c]? = some e) (hs : e.started = true) :
    (h.halfway c e).BusyWith (c :: steps) where
  busy_iff {c' e'} he' := by
    by_cases hc : c = c'
    · subst hc
      rw [engines_halfway he] at he'
      cases he'
      exact iff_of_true rfl (List.mem_cons_self ..)
    · rw [engines_halfway_of_ne hc] at he'
      rw [hb.busy_iff he', List.mem_cons, or_iff_right (Ne.symm hc)]
  started c' hc' := by
    by_cases hc : c = c'
    · subst hc
      exact ⟨_, engines_halfway he, hs⟩
    · obtain ⟨e', he', hs'⟩ := hb.started c' ((List.mem_cons.mp hc').resolve_left (Ne.symm hc))
      exact ⟨e', (engines_halfway_of_ne hc).trans he', hs'⟩

end BusyWith

end Host

namespace Moment

variable {m m' : Moment}

def result (m : Moment) : Except Refusal Reply × Host :=
  HostM.performWithin m.depth m.request m.host

/-- In the course of a request another one is made. -/
inductive Makes : Moment → Moment → Prop
  /-- The request is made in no step that has begun since: by a frame callback, or in a sleep of a
  paced run. -/
  | aside {depth : Nat} {steps : List Nat} {r r' : Request} {h h' : Host}
    (hasks : HostM.Asks (HostM.respond · r) (HostM.performWithin depth) h r' h')
    (hnone : ∀ c h₁, c ∉ steps → ¬HostM.StepAsks c h₁ r' h') :
    Makes ⟨depth + 1, steps, r, h⟩ ⟨depth, steps, r', h'⟩
  /-- The request is made in the middle of a step, before its random number. -/
  | inStep {depth : Nat} {steps : List Nat} {r r' : Request} {h h' h₁ : Host} {c : Nat}
    (hasks : HostM.Asks (HostM.respond · r) (HostM.performWithin depth) h r' h')
    (hc : c ∉ steps) (hstep : HostM.StepAsks c h₁ r' h') :
    Makes ⟨depth + 1, steps, r, h⟩ ⟨depth, c :: steps, r', h'⟩

/-- The moment comes in a script of the host: requests lead to it from one that is made while no
step is in progress. -/
def OfScript (m : Moment) : Prop :=
  ∃ first : Moment, first.host.Reachable ∧ first.steps = [] ∧ Relation.ReflTransGen Makes first m

theorem ofScript_request {h : Host} (hr : h.Reachable) (r : Request) (depth : Nat) :
    OfScript ⟨depth, [], r, h⟩ :=
  ⟨_, hr, rfl, .refl⟩

theorem ofScript_halfway {h : Host} (hr : h.Reachable) {c : Nat} {e : Engine} {r : Request}
    (hcurrent : h.current = some c) (he : h.engines[c]? = some e) (hwaits : e.waiting? = some r)
    (depth : Nat) : OfScript ⟨depth, [c], r, h.halfway c e⟩ := by
  have hstep : HostM.StepAsks c h r (h.halfway c e) := ⟨e, he, hwaits, rfl⟩
  have hengine : HostM.currentEngine h = (.ok c, h) := by
    rw [HostM.currentEngine_eq, hcurrent]
    rfl
  have hrespond (perform : Request → HostM Reply) :
      (HostM.stepEngine perform c >>= fun status => pure (.status (some status))) h =
        HostM.respond perform (.step 1) h := by
    rw [HostM.respond, HostM.bind_of_ok hengine, if_pos rfl]
  have hasks : HostM.Asks (HostM.respond · (.step 1)) (HostM.performWithin depth) h r
      (h.halfway c e) :=
    ((HostM.asks_stepEngine hstep).bind _).congr hrespond
  exact ⟨_, hr, rfl, .single (.inStep hasks List.not_mem_nil hstep)⟩

/-! ### What a moment finds -/

theorem askedFrom_respond {depth : Nat} {h h' : Host} {r r' : Request}
    (hasks : HostM.Asks (HostM.respond · r) (HostM.performWithin depth) h r' h') :
    h.AskedFrom r' h' := by
  obtain ⟨D, action, hcalls, hdrives, hsame⟩ := HostM.calls_respond h r
  exact hcalls.askedFrom hdrives (hasks.congr hsame)

/-- **One request in the middle of another** finds the engines busy that have a step in progress. -/
theorem Makes.busyWith (hm : Makes m m') (hb : m.host.BusyWith m.steps) :
    m'.host.BusyWith m'.steps := by
  cases hm with
  | @aside depth steps r r' h h' hasks hnone =>
    rcases askedFrom_respond hasks with hrest | ⟨c, h₁, hrest, hstep⟩
    · exact hb.follow hrest
    · -- A step would have to be of an engine that had none in progress before.
      have hc : c ∉ steps := fun hc => by
        obtain ⟨e, he, hwaits, -⟩ := hstep
        have hfree := (Engine.waiting?_eq_some_iff.mp hwaits).free
        rw [((hb.follow hrest).busy_iff he).mpr hc] at hfree
        cases hfree
      exact absurd hstep (hnone c h₁ hc)
  | @inStep depth steps r r' h h' h₁ c hasks hc hstep =>
    obtain ⟨e, he, -, rfl⟩ := hstep
    have hopened := Host.engines_halfway he
    rcases askedFrom_respond hasks with hrest | ⟨c₂, h₂, hrest, hstep₂⟩
    · exact absurd (((hb.follow hrest).busy_iff hopened).mp rfl) hc
    · obtain ⟨e₂, he₂, hwaits₂, heq⟩ := hstep₂
      have hstarted := (Engine.waiting?_eq_some_iff.mp hwaits₂).started
      have hbusy := (hb.follow hrest).halfway he₂ hstarted
      rw [← heq] at hbusy
      have hmem := (hbusy.busy_iff hopened).mp rfl
      obtain rfl : c = c₂ := (List.mem_cons.mp hmem).resolve_right hc
      exact hbusy

theorem OfScript.busyWith (hm : m.OfScript) : m.host.BusyWith m.steps := by
  obtain ⟨first, hr, hsteps, hleads⟩ := hm
  induction hleads with
  | refl =>
    rw [hsteps]
    exact hr.busyWith
  | tail _ hmakes ih => exact hmakes.busyWith ih

/-! ### All moments are found -/

theorem exists_makes {depth : Nat} (steps : List Nat) {r r' : Request} {h h' : Host}
    (hasks : HostM.Asks (HostM.respond · r) (HostM.performWithin depth) h r' h') :
    ∃ steps', Makes ⟨depth + 1, steps, r, h⟩ ⟨depth, steps', r', h'⟩ := by
  by_cases hstep : ∃ c h₁, c ∉ steps ∧ HostM.StepAsks c h₁ r' h'
  · obtain ⟨c, h₁, hc, hstep⟩ := hstep
    exact ⟨c :: steps, .inStep hasks hc hstep⟩
  · exact ⟨steps, .aside hasks fun c h₁ hc hasks' => hstep ⟨c, h₁, hc, hasks'⟩⟩

/-- **Nothing is made but moments**: a request ends as it does however others are performed, if the
moments that it makes end as they do. -/
theorem respond_eq_of_makes {depth : Nat} {steps : List Nat} {r : Request} {h : Host}
    {perform' : Request → HostM Reply}
    (hsame : ∀ m', Makes ⟨depth + 1, steps, r, h⟩ m' → perform' m'.request m'.host = m'.result) :
    HostM.respond perform' r h = HostM.performWithin (depth + 1) r h := by
  obtain ⟨D, action, hcalls, hdrives, heq⟩ := HostM.calls_respond h r
  have hsame' (r' : Request) (h' : Host)
      (hasks : HostM.Asks action (HostM.performWithin depth) h r' h') :
      perform' r' h' = HostM.performWithin depth r' h' := by
    obtain ⟨steps', hmakes⟩ := exists_makes steps (hasks.congr fun perform => (heq perform).symm)
    exact hsame _ hmakes
  calc HostM.respond perform' r h = action perform' h := heq perform'
    _ = action (HostM.performWithin depth) h := hcalls.eq_of_asks hdrives hsame'
    _ = HostM.respond (HostM.performWithin depth) r h := (heq _).symm

/-! ### Where a refusal because of a busy engine comes from -/

/-- **A refusal because an engine is busy** comes from a moment at which the engine that is called
has a step in progress. -/
theorem busy_of_step {m : Moment} (hb : m.host.BusyWith m.steps) {a : Activity}
    (hbusy : m.result.1 = .error (.busy a)) :
    ∃ m', Relation.ReflTransGen Makes m m' ∧ m'.result.1 = .error (.busy a) ∧
      ∃ c ∈ m'.steps, m'.host.callee? m'.request = some c := by
  obtain ⟨depth, steps, r, h⟩ := m
  induction depth generalizing steps r h with
  | zero => cases hbusy
  | succ depth ih =>
    obtain ⟨D, action, hcalls, hdrives, heq⟩ := HostM.calls_respond h r
    have haction : (action (HostM.performWithin depth) h).1 = .error (.busy a) :=
      (congrArg Prod.fst (heq (HostM.performWithin depth))).symm.trans hbusy
    rcases hcalls.busy hdrives haction with ⟨c, hc, e, he, hbusy'⟩ | ⟨r', h', hasks, hr'⟩
    · exact ⟨_, .refl, hbusy, c, (hb.busy_iff he).mp hbusy', hc⟩
    · obtain ⟨steps', hmakes⟩ := exists_makes steps (hasks.congr fun perform => (heq perform).symm)
      obtain ⟨m', hleads, hend⟩ := ih steps' r' h' (hmakes.busyWith hb) hr'
      exact ⟨m', .head hmakes hleads, hend⟩

end Moment

/-! ### Calls on engines -/

namespace Host

open HostM

/-- The calls that want the engine for themselves are refused, and the host stays as it is. -/
structure Refuses (h : Host) (c : Nat) : Prop where
  step : ∀ perform, stepEngine perform c h = (.error (.busy .step), h)
  tick : tickEngine c h = (.error (.busy .tickTimers), h)
  key : ∀ code down, setKey c code down h = (.error (.busy .changeKeys), h)
  screen : readScreen c h = (.error (.busy .readDisplay), h)

/-- The calls on the engine do what they do at any time.  A step that takes a random number ends by
how it comes to the number, with what the engine is then. -/
structure Serves (h : Host) (c : Nat) (e : Engine) : Prop where
  not_started : e.started = false → ∀ perform,
    stepEngine perform c h = (.error .notStarted, h)
  step_alone : e.started = true → (e.machine.halted = none → e.Undisturbed) → ∀ perform,
    stepEngine perform c h = (e.outcome, (h.putEngine c e.stepped).addLines e.stepLines)
  step_drawing : e.started = true → e.machine.halted = none →
    ∀ m x mask, e.machine.advance = .drawing m x mask → ∀ perform [KeepsRequests perform],
      ∃ drawn h' e', drawByte perform c ((h.putEngine c e.opened).addLines e.fetchLines) =
          (drawn, h') ∧ h'.engines[c]? = some e' ∧
        stepEngine perform c h = (Engine.drawOutcome drawn,
          (h'.putEngine c (e'.closed x mask e.machine.counter drawn)).addLines
            (Engine.drawLines e.machine.counter drawn))
  tick : tickEngine c h = (.ok (), h.putEngine c { e with machine := e.machine.tickTimers })
  key : ∀ code down,
    setKey c code down h = (Engine.keyOutcome code, h.putEngine c (e.keyed code down))
  screen : readScreen c h = (.ok e.machine.display.hexRows, h)

variable {h : Host} {c : Nat} {e : Engine}

theorem refuses_of_busy (he : h.engines[c]? = some e) (hs : e.started = true)
    (hb : e.busy = true) : h.Refuses c where
  step _ := stepEngine_of_busy he hs hb
  tick := exclusive_of_busy he hb _ _
  key _ _ := exclusive_of_busy he hb _ _
  screen := exclusive_of_busy he hb _ _

theorem serves_of_free (he : h.engines[c]? = some e) (hfree : e.busy = false) :
    h.Serves c e where
  not_started hs _ := stepEngine_of_not_started he hs
  step_alone hs hquiet _ := by
    cases hh : e.machine.halted with
    | some r => exact stepEngine_alone_of_isHalted he hs hfree hh
    | none => exact stepEngine_apply he hs hfree (hquiet hh)
  step_drawing hs hrun m x mask ha perform _ := by
    obtain ⟨e', he', -⟩ := exists_drawn perform c (h := (h.putEngine c e.opened).addLines _)
      (engines_putEngine he) rfl rfl
    exact ⟨_, _, e', rfl, he', stepEngine_of_drawing he hs hfree hrun ha rfl he'⟩
  tick := tickEngine_apply he hfree
  key := setKey_apply he hfree
  screen := readScreen_apply he hfree

end Host

namespace Moment

open HostM

/-- **Engines are kept for their steps.**  At every moment of a script, however deep, the calls on
an engine with a step in progress are refused, and the calls on all other engines do what they
always do.  However a step or a request ends, the engines that are busy after it are those with a
step still in progress.  A refusal because an engine is busy has first been given to a call on an
engine with a step in progress.  And nothing is requested but at moments: a request ends as it does
however others are performed, if those that it makes end as they do. -/
theorem busy_during_steps {m : Moment} (hm : m.OfScript) :
    (∀ c ∈ m.steps, m.host.Refuses c) ∧
    (∀ c e, m.host.engines[c]? = some e → c ∉ m.steps → m.host.Serves c e) ∧
    m.host.BusyWith m.steps ∧
    (∀ depth c, (stepEngine (performWithin depth) c m.host).2.BusyWith m.steps) ∧
    m.result.2.BusyWith m.steps ∧
    (∀ a, m.result.1 = .error (.busy a) →
      ∃ m', Relation.ReflTransGen Makes m m' ∧ m'.result.1 = .error (.busy a) ∧
        ∃ c ∈ m'.steps, m'.host.callee? m'.request = some c) ∧
    ∀ depth, m.depth = depth + 1 → ∀ perform,
      (∀ m', Makes m m' → perform m'.request m'.host = m'.result) →
        respond perform m.request m.host = m.result := by
  have hbusy := hm.busyWith
  refine ⟨fun c hc => ?_, fun c e he hc => ?_, hbusy, fun depth c => ?_, ?_, fun a => ?_,
    fun depth hdepth perform hsame => ?_⟩
  · obtain ⟨e, he, hs, hb⟩ := hbusy.of_mem hc
    exact Host.refuses_of_busy he hs hb
  · exact Host.serves_of_free he (hbusy.free hc he)
  · exact hbusy.follow (Keeps.follows m.host).engines
  · exact hbusy.follow (KeepsRequests.engines m.request m.host)
  · exact busy_of_step hbusy
  · obtain ⟨_, steps, r, h⟩ := m
    cases hdepth
    exact respond_eq_of_makes hsame

/-- A host with two engines that have been started.  The next step of the second takes a random
number, before which the host wants a tick of its timers. -/
def tickingHost : Host :=
  ((Host.ofFiles ⟨[], []⟩).play [
    .newEngine [] [] 0, .loadRom [0x12, 0x00] "JUMP", .start,
    .newEngine [] [⟨some (.tick 1), 7⟩] 0, .loadRom [0xC0, 0xFF] "DRAW", .start]).2

def drawingEngine : Engine :=
  tickingHost.engines[1]?.get (by decide +kernel)

/-- In the middle of the step the second engine refuses all calls, and the first none.  The step is
refused as the tick is, and both engines are free after it. -/
theorem busy_during_steps_of_tick :
    (tickingHost.halfway 1 drawingEngine).Refuses 1 ∧
    (∃ e, (tickingHost.halfway 1 drawingEngine).Serves 0 e) ∧
    (Moment.mk 9 [] (.step 1) tickingHost).result.2.BusyWith [] := by
  have hr : tickingHost.Reachable := (Host.Reachable.start ⟨[], []⟩).play _
  have he : tickingHost.engines[1]? = some drawingEngine := (Option.some_get _).symm
  have hfacts : drawingEngine.waiting?.isSome = true ∧ tickingHost.current = some 1 ∧
      tickingHost.engines[0]?.isSome = true := by decide +kernel
  obtain ⟨hwaits, hcurrent, hother⟩ := hfacts
  obtain ⟨r, hwaits⟩ := Option.isSome_iff_exists.mp hwaits
  obtain ⟨e, hother⟩ := Option.isSome_iff_exists.mp hother
  have hmiddle := ofScript_halfway hr hcurrent he hwaits 8
  have hfirst : (tickingHost.halfway 1 drawingEngine).engines[0]? = some e :=
    (Host.engines_halfway_of_ne (by decide)).trans hother
  obtain ⟨hrefuses, hserves, -⟩ := busy_during_steps hmiddle
  obtain ⟨-, -, -, -, hafter, -⟩ := busy_during_steps (ofScript_request hr (.step 1) 9)
  have hfree : 0 ∉ [1] := by decide
  exact ⟨hrefuses 1 (List.mem_singleton_self 1), ⟨e, hserves 0 e hfirst hfree⟩, hafter⟩

end Moment

end Chip8
