import Chip8.Proofs.Pacer.Batches
import Chip8.Proofs.Pacer.Delayed

/-!
# Time that has passed while a pacer rested

How long a pacer has rested makes no difference to what it does afterwards.  When
it goes on, its base is lined up with the clock anew and the one before is
forgotten (`rebase_withBase`).  So two hosts that have waited for different times
are, from then on, one and the same host at two times, and what drives the pacer
does not tell them apart.

* `sequel_delayed`: everything that is requested later, by induction.
* `rest_is_forgotten`: a pacer that goes on after one rest or another.
-/

namespace Chip8

def Pacer.withBase (base : Int) (q : Pacer) : Pacer :=
  { q with base }

def Pacer.switchOn (q : Pacer) : Pacer :=
  { q with power := .running }

def Pacer.goOn (q : Pacer) : Pacer :=
  { q with nextOrder := q.nextOrder + 1, power := .running }

/-! ### What is requested later -/

namespace Host

/-- Requests one after the other, each with how it has ended and the host after it.  Notes and log
are emptied before each request. -/
def sequel (depth : Nat) : Host → List Request → List (Except Refusal Reply × Host)
  | _, [] => []
  | h, r :: rest =>
    let result := HostM.performWithin depth r h.emptied
    result :: sequel depth result.2 rest

/-- The end of a request and the host after it, at the later time. -/
def resultDelayed (s : Delay) (result : Except Refusal Reply × Host) :
    Except Refusal Reply × Host :=
  (result.1.map (Reply.delayed s.ns), result.2.delayed s)

variable {s : Delay} {h h' : Host}

theorem Led.emptied (hled : h.Led s) : h.emptied.Led s :=
  ⟨hled.current, hled.pacer, hled.source⟩

theorem emptied_delayed (s : Delay) (h : Host) : (h.delayed s).emptied = h.emptied.delayed s :=
  congrArg (fun notes => { (h.delayed s).emptied with notes }) Array.map_empty.symm

/-- **What is requested later** does the same at the later time, request by request. -/
theorem sequel_delayed (depth : Nat) (hled : h.Led s) (hlater : h'.emptied = h.emptied.delayed s)
    {requests : List Request} (hdrives : ∀ r ∈ requests, r.Drives) :
    h'.sequel depth requests = (h.sequel depth requests).map (resultDelayed s) := by
  induction requests generalizing h h' with
  | nil => rfl
  | cons r rest ih =>
    have hshifts : HostM.Shifts s (Reply.delayed s.ns) (HostM.performWithin depth r)
        (HostM.performWithin depth r) :=
      HostM.shifts_performWithin depth (hdrives r List.mem_cons_self)
    have hfirst : HostM.performWithin depth r h'.emptied =
        resultDelayed s (HostM.performWithin depth r h.emptied) := by
      rw [hlater]
      exact hshifts.eq h.emptied hled.emptied
    rw [sequel, sequel, hfirst, List.map_cons]
    refine congrArg _ (ih (hshifts.led h.emptied hled.emptied) (emptied_delayed s _) ?_)
    exact fun r' hr' => hdrives r' (List.mem_cons_of_mem r hr')

def withBase (h : Host) (p : Nat) (base : Int) : Host :=
  { h with pacers := h.pacers.modify p (Pacer.withBase base) }

end Host

/-! ### A base that is forgotten -/

namespace HostM

variable {h : Host} {p : Nat} {q : Pacer} {base : Int}

theorem pacers_withBase (hq : h.pacers[p]? = some q) (base : Int) :
    (h.withBase p base).pacers[p]? = some (q.withBase base) := by
  show (h.pacers.modify p _)[p]? = _
  rw [Array.getElem?_modify, if_pos rfl, hq]
  rfl

/-- **The base before is forgotten** when it is lined up anew. -/
theorem rebase_withBase {h' : Host} (hok : rebase p h = (.ok (), h')) (base : Int) :
    rebase p (h.withBase p base) = (.ok (), h') := by
  obtain ⟨q, h₁, hpacer, hrest⟩ := bind_eq_ok hok
  obtain ⟨hq, rfl⟩ := pacerAt_eq_ok hpacer
  obtain ⟨now, h₂, hread, hrest⟩ := bind_eq_ok hrest
  obtain ⟨base', h₃, hconversion, hmodify⟩ := bind_eq_ok hrest
  obtain ⟨hbase, rfl⟩ := ofConversion_eq_ok hconversion
  rw [readClock_eq] at hread
  obtain ⟨hnow, rfl⟩ := Prod.mk.inj hread
  have hread' : readClock (q.withBase base).clock (h₁.withBase p base) =
      (.ok now, { h₁.withBase p base with clocks := h₁.clocks.modify q.clock Clock.read }) := by
    rw [readClock_eq]
    exact congrArg (·, _) hnow
  rw [rebase, bind_of_ok (pacerAt_apply (pacers_withBase hq base)), bind_of_ok hread']
  show (ofConversion (Pace.baseTime now q.count q.rate) >>= _) _ = _
  rw [hbase, bind_of_ok (ofConversion_ok _ _), ← hmodify]
  have hforgotten : (h₁.pacers.modify p (Pacer.withBase base)).modify p (Pacer.withBase base') =
      h₁.pacers.modify p (Pacer.withBase base') := modify_modify _ _ _ _
  exact congrArg (fun pacers => (Except.ok (), { h₁ with
    clocks := h₁.clocks.modify q.clock Clock.read, pacers })) hforgotten

theorem putPacer_withBase (hq : h.pacers[p]? = some q) (base : Int) (q' : Pacer) :
    (h.withBase p base).putPacer p (q'.withBase base) = (h.putPacer p q').withBase p base := by
  have hbase {h : Host} {q : Pacer} (hq : h.pacers[p]? = some q) :
      h.withBase p base = h.putPacer p (q.withBase base) :=
    congrArg (fun pacers => { h with pacers }) (modify_eq_setIfInBounds hq _)
  rw [hbase hq, hbase (Host.pacers_putPacer hq), Host.putPacer_putPacer, Host.putPacer_putPacer]

/-- A pacer that goes on after a pause: all that is left of it is lined up anew. -/
theorem resume_of_paused (perform : Request → HostM Reply) (hq : h.pacers[p]? = some q)
    (hpaused : q.power = .paused) (hahead : q.Ahead) :
    resume perform p h = rebase p (h.putPacer p q.goOn) := by
  have hq' : (h.putPacer p { q with nextOrder := q.nextOrder + 1 }).pacers[p]? =
      some { q with nextOrder := q.nextOrder + 1 } := Host.pacers_putPacer hq
  have hrests : ({ q with nextOrder := q.nextOrder + 1 } : Pacer).power ≠ .running := by
    show q.power ≠ .running
    rw [hpaused]
    decide
  rw [resume, bind_of_ok (pacerAt_apply hq), if_pos hpaused,
    cueNow_of_ahead perform hq hahead .resume, fire, bind_of_ok (pacerAt_apply hq'),
    if_pos hrests, bind_of_ok (modifyPacer_apply hq' _), Host.putPacer_putPacer]
  rfl

theorem powerOn_eq (hq : h.pacers[p]? = some q) :
    powerOn p h =
      (rebase p >>= fun _ => modifyPacer p Pacer.startPeriodic) (h.putPacer p q.switchOn) := by
  rw [powerOn, bind_of_ok (modifyPacer_apply hq _)]
  rfl

/-! ### Pacers that go on -/

/-- The requests by which a pacer in a state of power goes on. -/
inductive Restarts : Power → Request → Prop
  | resume : Restarts .paused .resume
  | powerOn (power : Power) : Restarts power .powerOn

theorem Restarts.drives {power : Power} {r : Request} (hr : Restarts power r) : r.Drives := by
  cases hr with
  | resume => exact .resume
  | powerOn => exact .powerOn

theorem respond_withBase (perform : Request → HostM Reply) {r : Request} (hr : Restarts q.power r)
    (hp : h.pacer = some p) (hq : h.pacers[p]? = some q) (hahead : q.Ahead) {a : Reply} {h' : Host}
    (hok : respond perform r h = (.ok a, h')) (base : Int) :
    respond perform r (h.withBase p base) = (.ok a, h') := by
  have hq' := pacers_withBase hq base
  have hcurrent : currentPacer h = (.ok p, h) := by
    rw [currentPacer, bind_of_ok (get_apply h), hp, required_some]
  have hcurrent' : currentPacer (h.withBase p base) = (.ok p, h.withBase p base) := by
    rw [currentPacer, bind_of_ok (get_apply _)]
    show required .noPacer h.pacer _ = _
    rw [hp, required_some]
  generalize hpower : q.power = power at hr
  cases hr with
  | resume =>
    rw [respond, bind_of_ok hcurrent] at hok
    obtain ⟨_, h₁, hresume, hpure⟩ := bind_eq_ok hok
    rw [resume_of_paused perform hq hpower hahead] at hresume
    have hresume' : resume perform p (h.withBase p base) = (.ok (), h₁) := by
      have hgo : (q.withBase base).goOn = q.goOn.withBase base := rfl
      rw [resume_of_paused perform hq' hpower hahead, hgo, putPacer_withBase hq]
      exact rebase_withBase hresume base
    rw [respond, bind_of_ok hcurrent', bind_of_ok hresume']
    exact hpure
  | powerOn =>
    rw [respond, bind_of_ok hcurrent] at hok
    obtain ⟨_, h₁, hon, hpure⟩ := bind_eq_ok hok
    rw [powerOn_eq hq] at hon
    obtain ⟨_, h₂, hrebase, hstart⟩ := bind_eq_ok hon
    have hon' : powerOn p (h.withBase p base) = (.ok (), h₁) := by
      have hswitch : (q.withBase base).switchOn = q.switchOn.withBase base := rfl
      rw [powerOn_eq hq', hswitch, putPacer_withBase hq, bind_of_ok (rebase_withBase hrebase base)]
      exact hstart
    rw [respond, bind_of_ok hcurrent', bind_of_ok hon']
    exact hpure

end HostM

/-! ### Rests -/

namespace Host

def afterRest (h : Host) (k : Nat) (ns : Int) : Host :=
  { h with clocks := h.clocks.modify k (·.advance ns) }

/-- After two rests the hosts are one host at two times, but for the base of the pacer. -/
theorem afterRest_eq (h : Host) {q : Pacer} (p c : Nat) (hq : h.pacers[p]? = some q)
    (ns ns' : Int) :
    (h.afterRest q.clock ns').emptied =
      ((h.afterRest q.clock ns).emptied.delayed ⟨p, q.clock, c, ns' - ns⟩).withBase p q.base := by
  have hclocks : h.clocks.modify q.clock (·.advance ns') =
      (h.clocks.modify q.clock (·.advance ns)).modify q.clock (·.advance (ns' - ns)) := by
    rw [modify_modify]
    refine congrArg _ (funext fun clock => congrArg (fun passed => { clock with passed }) ?_)
    show clock.passed + ns' = clock.passed + ns + (ns' - ns)
    omega
  have hpacers : h.pacers =
      (h.pacers.modify p (Pacer.delayed (ns' - ns))).modify p (Pacer.withBase q.base) := by
    rw [modify_modify, modify_eq_setIfInBounds hq]
    exact (congrArg Host.pacers (putPacer_eq_self hq)).symm
  have hnotes : (#[] : Array Note) = (#[] : Array Note).map (Note.delayed (ns' - ns)) :=
    Array.map_empty.symm
  show { h with clocks := h.clocks.modify q.clock (·.advance ns'), notes := #[], log := #[] } =
    { h with
      clocks := (h.clocks.modify q.clock (·.advance ns)).modify q.clock (·.advance (ns' - ns))
      pacers := (h.pacers.modify p (Pacer.delayed (ns' - ns))).modify p (Pacer.withBase q.base)
      notes := (#[] : Array Note).map (Note.delayed (ns' - ns))
      log := #[] }
  rw [← hclocks, ← hpacers, ← hnotes]

theorem restart_eq {h : Host} {p c : Nat} {q : Pacer} (hp : h.pacer = some p)
    (hq : h.pacers[p]? = some q) (hahead : q.Ahead) {ns : Int}
    (hled : ∀ ns', (h.afterRest q.clock ns).emptied.Led ⟨p, q.clock, c, ns'⟩)
    {r : Request} (hgo : HostM.Restarts q.power r) {depth : Nat} {a : Reply}
    (hok : (HostM.performWithin depth r (h.afterRest q.clock ns).emptied).1 = .ok a) (ns' : Int) :
    HostM.performWithin depth r (h.afterRest q.clock ns').emptied =
      resultDelayed ⟨p, q.clock, c, ns' - ns⟩
        (HostM.performWithin depth r (h.afterRest q.clock ns).emptied) := by
  cases depth with
  | zero => cases hok
  | succ depth =>
    have hshifts : HostM.Shifts ⟨p, q.clock, c, ns' - ns⟩ (Reply.delayed (ns' - ns))
        (HostM.respond (HostM.performWithin depth) r)
        (HostM.respond (HostM.performWithin depth) r) := HostM.shifts_respond _ hgo.drives
    have hlater := hshifts.eq _ (hled (ns' - ns))
    have hp' : ((h.afterRest q.clock ns).emptied.delayed
        ⟨p, q.clock, c, ns' - ns⟩).pacer = some p := hp
    have hq' : ((h.afterRest q.clock ns).emptied.delayed
        ⟨p, q.clock, c, ns' - ns⟩).pacers[p]? = some (q.delayed (ns' - ns)) := by
      show (h.pacers.modify p _)[p]? = _
      rw [Array.getElem?_modify, if_pos rfl, hq]
      rfl
    have hgo' : HostM.Restarts (q.delayed (ns' - ns)).power r := hgo
    obtain ⟨h₁, hfirst⟩ := HostM.exists_of_ok hok
    rw [HostM.performWithin] at hfirst ⊢
    rw [hfirst] at hlater ⊢
    rw [afterRest_eq h p c hq ns ns']
    exact HostM.respond_withBase _ hgo' hp' hq' hahead hlater q.base

end Host

/-- **A rest leaves no trace.**  Take any host that requests lead to and its pacer, whose frame
callback and source of numbers make no requests but such as drive the pacer.  Let its clock go on by
one amount or by another, and let it be told to go on, which is not refused.  Then whatever drives
it afterwards ends in the same way after both rests, and leaves the same host, except that clock and
base differ by as much as the rests do. -/
theorem rest_is_forgotten {h : Host} (hr : h.Reachable) {p : Nat} {q : Pacer}
    (hp : h.pacer = some p) (hq : h.pacers[p]? = some q)
    (hframes : ∀ script, q.frames = some script → script.Drives)
    (hsource : ∀ e : Engine, h.engines[q.handle.engine]? = some e → e.source.Drives)
    {r : Request} (hgo : HostM.Restarts q.power r) {depth : Nat} {ns : Int} {a : Reply}
    (hok : (HostM.performWithin depth r (h.afterRest q.clock ns).emptied).1 = .ok a) (ns' : Int)
    {later : List Request} (hlater : ∀ r' ∈ later, r'.Drives) :
    (h.afterRest q.clock ns').sequel depth (r :: later) =
      ((h.afterRest q.clock ns).sequel depth (r :: later)).map
        (Host.resultDelayed ⟨p, q.clock, q.handle.engine, ns' - ns⟩) := by
  have hled (ns'' : Int) : (h.afterRest q.clock ns).emptied.Led
      ⟨p, q.clock, q.handle.engine, ns''⟩ := by
    refine ⟨hp, fun q' hq' => ?_, hsource⟩
    rw [show h.pacers[p]? = some q' from hq'] at hq
    cases hq
    exact ⟨rfl, rfl, hframes⟩
  have hfirst := Host.restart_eq hp hq (hr.inOrder p q hq).ahead hled hgo hok ns'
  rw [Host.sequel, Host.sequel, hfirst, List.map_cons]
  refine congrArg _ (Host.sequel_delayed depth ?_ (Host.emptied_delayed _ _) hlater)
  exact (HostM.shifts_performWithin depth hgo.drives).led _ (hled (ns' - ns))

/-- A host whose pacer has paused.  Its frame callback makes a step more, and changes the rate when
it is called again. -/
def restingHost : Host :=
  jumpingHost 120 (1 / 60) (some ⟨[(1, [.runSteps 1]), (2, [.setRate 240])]⟩) (.steady 0 0)
    [.powerOn, .runSteps 1, .pause]

def restingPacer : Pacer :=
  restingHost.pacers[0]?.get (by decide +kernel)

def laterRequests : List Request :=
  [.instructionsDue, .advanceClock 500000000, .instructionsDue, .runSteps 5, .rates]

def Reply.number? : Reply → Option Int
  | .number n => some n
  | _ => none

/-- After a second nothing is due, and 59 steps are half a second later.  After an hour it is the
same. -/
theorem rest_is_forgotten_of_paused :
    ((restingHost.afterRest 0 1000000000).sequel 9 (.resume :: laterRequests)).map
        (fun result => result.1.toOption.bind Reply.number?) =
      [none, some 0, none, some 59, none, none] ∧
    (restingHost.afterRest 0 3600000000000).sequel 9 (.resume :: laterRequests) =
      ((restingHost.afterRest 0 1000000000).sequel 9 (.resume :: laterRequests)).map
        (Host.resultDelayed ⟨0, 0, 0, 3599000000000⟩) := by
  have hr : restingHost.Reachable := reachable_jumpingHost _ _ _ _ _
  have hq : restingHost.pacers[0]? = some restingPacer := (Option.some_get _).symm
  have hfacts : restingPacer.clock = 0 ∧ restingPacer.handle.engine = 0 ∧
      restingPacer.power = .paused ∧ restingHost.pacer = some 0 ∧
      (restingPacer.frames.all fun script =>
        script.entries.all fun entry => entry.2.all Request.isDrive) = true ∧
      (restingHost.engines[0]?.all fun e => e.source.draws.isEmpty) = true ∧
      (HostM.performWithin 9 .resume (restingHost.afterRest 0 1000000000).emptied).1.isOk = true ∧
      laterRequests.all Request.isDrive = true := by decide +kernel
  obtain ⟨hclock, hengine, hpaused, hp, hscripts, hdraws, hok, hlater⟩ := hfacts
  refine ⟨by decide +kernel, ?_⟩
  have hframes (script : Script Request) (hs : restingPacer.frames = some script) :
      script.Drives := by
    rw [hs] at hscripts
    exact Script.drives_of_all hscripts
  have hsource (e : Engine) (he : restingHost.engines[restingPacer.handle.engine]? = some e) :
      e.source.Drives := by
    rw [hengine] at he
    rw [he] at hdraws
    intro draw hdraw
    rw [List.isEmpty_iff.mp hdraws] at hdraw
    cases hdraw
  have hgo : HostM.Restarts restingPacer.power .resume := by
    rw [hpaused]
    exact .resume
  obtain ⟨a, ha⟩ : ∃ a, (HostM.performWithin 9 .resume
      (restingHost.afterRest 0 1000000000).emptied).1 = .ok a := by
    cases hx : (HostM.performWithin 9 .resume (restingHost.afterRest 0 1000000000).emptied).1 with
    | error refusal =>
      rw [hx] at hok
      cases hok
    | ok a => exact ⟨a, rfl⟩
  rw [← hclock] at ha
  have hsame := rest_is_forgotten hr hp hq hframes hsource hgo ha 3600000000000
    fun r hmem => Request.drives_of_isDrive (List.all_eq_true.mp hlater r hmem)
  rw [hclock, hengine] at hsame
  exact hsame

end Chip8
