import Chip8.Proofs.Pace
import Chip8.Proofs.Pacer.Refinement

/-!
# New pacers

A host that starts an engine gets a handle for it, puts a pacer over the handle
and powers the pacer on.  From then on the pacer tracks the plain run that begins
with this engine.  With a positive rate that is a finite number none of this is
refused.

* `newPacer_eq_ok`, `powerOn_changes`: what the two calls change.
* `newPacer_of_isFinite`, `powerOn_of_isFinite`: when they are not refused.
* `tracks_launched`: a pacer that has been made and powered on.
-/

namespace Chip8

/-- A pacer without frame callback, as it is made over a handle. -/
structure Pacer.New (x : Handle) (rate : Float) (k : Nat) (q : Pacer) : Prop where
  handle_eq : q.handle = x
  clock_eq : q.clock = k
  rate_eq : q.rate = rate
  frames_eq : q.frames = none
  stopped : q.power = .stopped
  count_eq : q.count = 0
  lastStatus_eq : q.lastStatus = none
  inOrder : q.InOrder

/-- The hosts differ in their pacers and in the instants of their clocks only. -/
def Host.SameButPacing (h h' : Host) : Prop :=
  ∃ pacers clocks, h' = { h with pacers, clocks }

theorem Host.SameButPacing.trans {h h' h'' : Host} (hs : h.SameButPacing h')
    (hs' : h'.SameButPacing h'') : h.SameButPacing h'' := by
  obtain ⟨_, _, rfl⟩ := hs
  obtain ⟨pacers, clocks, rfl⟩ := hs'
  exact ⟨pacers, clocks, rfl⟩

namespace HostM

variable {h h' : Host} {c p k : Nat} {e e' : Engine} {x : Handle} {q : Pacer}
  {rate timerFrequency refresh : Float}

/-! ### What the calls change -/

theorem readClock_apply {clock : Clock} (hk : h.clocks[k]? = some clock) :
    readClock k h = (.ok clock.read.now, { h with clocks := h.clocks.modify k Clock.read }) := by
  have hread : (h.clocks.modify k Clock.read)[k]? = some clock.read := by
    rw [Array.getElem?_modify, if_pos rfl, hk]
    rfl
  rw [readClock, bind_of_ok (modify_apply _ h), bind_of_ok (get_apply _), hread,
    bind_of_ok (required_some _ _ _)]
  rfl

theorem readClock_eq_ok {now : Int} (hr : readClock k h = (.ok now, h')) :
    h' = { h with clocks := h.clocks.modify k Clock.read } :=
  (congrArg Prod.snd hr).symm.trans (readClock_changes k h)

/-- **A pacer that has been made** is new, and nothing else but its clock has changed. -/
theorem newPacer_eq_ok (hn : newPacer x rate timerFrequency refresh none k h = (.ok p, h')) :
    p = h.pacers.size ∧ ∃ q, q.New x rate k ∧
      h' = { h with
        pacers := h.pacers.push q
        clocks := (h.clocks.modify k Clock.read).modify k Clock.read } := by
  rw [newPacer] at hn
  obtain ⟨-, hn⟩ := guard_eq_ok hn
  obtain ⟨-, hn⟩ := guard_eq_ok hn
  obtain ⟨-, hn⟩ := guard_eq_ok hn
  obtain ⟨_, h₁, hread, hn⟩ := bind_eq_ok hn
  obtain ⟨timerInterval, _, htimer, hn⟩ := bind_eq_ok hn
  obtain ⟨frameInterval, _, hframe, hn⟩ := bind_eq_ok hn
  obtain ⟨now, h₂, hread', hn⟩ := bind_eq_ok hn
  obtain ⟨base, _, hbase, hmade⟩ := bind_eq_ok hn
  obtain ⟨ht, rfl⟩ := ofConversion_eq_ok htimer
  obtain ⟨hf, rfl⟩ := ofConversion_eq_ok hframe
  obtain ⟨-, rfl⟩ := ofConversion_eq_ok hbase
  obtain rfl := readClock_eq_ok hread
  obtain rfl := readClock_eq_ok hread'
  cases hmade
  refine ⟨rfl, _, ⟨rfl, rfl, rfl, rfl, rfl, rfl, rfl, ?_⟩, rfl⟩
  exact
    { ordered := Schedule.ordered_empty
      ahead := fun _ he => absurd he List.not_mem_nil
      timer_pos := Pace.interval_pos ht
      frame_pos := Pace.interval_pos hf
      silent := fun _ => rfl
      idle := fun _ _ => ⟨rfl, rfl⟩ }

/-- Only with a rate that is a finite number can a pacer be made. -/
theorem isFinite_of_newPacer
    (hn : newPacer x rate Pace.timerFrequency refresh none k h = (.ok p, h')) :
    rate.isFinite = true := by
  rw [newPacer] at hn
  obtain ⟨-, hn⟩ := guard_eq_ok hn
  obtain ⟨-, hn⟩ := guard_eq_ok hn
  obtain ⟨-, hn⟩ := guard_eq_ok hn
  obtain ⟨_, h₁, hread, hn⟩ := bind_eq_ok hn
  obtain ⟨timerInterval, h₂, htimer, hn⟩ := bind_eq_ok hn
  exact Pace.timerInterval_isOk_iff.mp ⟨timerInterval, (ofConversion_eq_ok htimer).1⟩

theorem modifyPacer_changes (p : Nat) (f : Pacer → Pacer) (h : Host) :
    h.SameButPacing (modifyPacer p f h).2 :=
  ⟨_, _, rfl⟩

theorem rebase_sameButPacing (hr : rebase p h = (.ok (), h')) : h.SameButPacing h' := by
  rw [rebase] at hr
  obtain ⟨q, h₁, hq, hr⟩ := bind_eq_ok hr
  obtain ⟨now, h₂, hread, hr⟩ := bind_eq_ok hr
  obtain ⟨base, h₃, hbase, hmodify⟩ := bind_eq_ok hr
  obtain ⟨-, rfl⟩ := pacerAt_eq_ok hq
  obtain ⟨-, rfl⟩ := ofConversion_eq_ok hbase
  obtain rfl := readClock_eq_ok hread
  cases hmodify
  exact ⟨_, _, rfl⟩

/-- **A pacer that has been powered on** has changed, and its clock. -/
theorem powerOn_changes (hon : powerOn p h = (.ok (), h')) : h.SameButPacing h' := by
  rw [powerOn] at hon
  obtain ⟨_, h₁, hpower, hon⟩ := bind_eq_ok hon
  obtain ⟨_, h₂, hrebase, hstart⟩ := bind_eq_ok hon
  cases hpower
  cases hstart
  exact (modifyPacer_changes p _ h).trans
    ((rebase_sameButPacing hrebase).trans (modifyPacer_changes p _ h₂))

/-! ### When they are not refused -/

section Finite

variable {clock : Clock} (hfinite : rate.isFinite = true) (hpos : ¬rate ≤ 0)

include hfinite hpos

/-- **A pacer with a positive rate** that is a finite number can be made. -/
theorem newPacer_of_isFinite (hk : h.clocks[k]? = some clock) :
    (newPacer x rate Pace.timerFrequency Pace.refreshPeriod none k h).1 =
      .ok h.pacers.size := by
  have htimer : ¬Pace.timerFrequency ≤ 0 := by decide
  have hrefresh : ¬Pace.refreshPeriod ≤ 0 := by decide
  obtain ⟨timerInterval, ht⟩ := Pace.timerInterval_of_isFinite hfinite
  obtain ⟨frameInterval, hf⟩ := Pace.frameInterval_of_isFinite hfinite
  have hk' : (h.clocks.modify k Clock.read)[k]? = some clock.read := by
    rw [Array.getElem?_modify, if_pos rfl, hk]
    rfl
  have hread := readClock_apply (h := { h with clocks := h.clocks.modify k Clock.read }) hk'
  rw [newPacer, if_neg hpos, if_neg htimer, if_neg hrefresh]
  dsimp only
  rw [bind_of_ok (readClock_apply hk), ht, hf, bind_of_ok (ofConversion_ok _ _),
    bind_of_ok (ofConversion_ok _ _), bind_of_ok hread, Pace.baseTime_zero hfinite hpos,
    bind_of_ok (ofConversion_ok _ _)]
  rfl

/-- **A new pacer with such a rate** can be powered on. -/
theorem powerOn_of_isFinite (hp : h.pacers[p]? = some q) (hq : q.New x rate k)
    (hk : h.clocks[k]? = some clock) : (powerOn p h).1 = .ok () := by
  obtain rfl := hq.clock_eq
  have hp' : (h.putPacer p { q with power := .running }).pacers[p]? =
      some { q with power := .running } := Host.pacers_putPacer hp
  have hread := readClock_apply (h := h.putPacer p { q with power := .running }) hk
  have hbase : Pace.baseTime clock.read.now q.count q.rate = .ok clock.read.now := by
    rw [hq.count_eq, hq.rate_eq]
    exact Pace.baseTime_zero hfinite hpos _
  rw [powerOn, bind_of_ok (modifyPacer_apply hp _), rebase, bind_assoc,
    bind_of_ok (pacerAt_apply hp'), bind_assoc, bind_of_ok hread, hbase, bind_assoc,
    bind_of_ok (ofConversion_ok _ _)]
  rfl

end Finite

/-! ### The plain run that begins -/

/-- **A pacer that has been made and powered on** tracks the plain run that begins with its
engine. -/
theorem tracks_launched {h₁ : Host} (he : h.engines[x.engine]? = some e)
    (hstarted : e.started = true) (hfree : e.busy = false) (hplain : e.source.IsPlain)
    (hcurrent : (isCurrent x h).1 = .ok true)
    (hnew : newPacer x rate timerFrequency refresh none k h = (.ok p, h₁))
    (hon : powerOn p h₁ = (.ok (), h')) : h'.sessions = h.sessions ∧
      ∃ T, 0 < T ∧ h'.Tracks x p T 0 ⟨e, 0, .running, none⟩ := by
  obtain ⟨rfl, q, hq, hh₁⟩ := newPacer_eq_ok hnew
  have hpacer : h₁.pacers[h.pacers.size]? = some q := by
    rw [hh₁]
    exact Array.getElem?_push_size
  have hengine : h₁.engines[x.engine]? = some e := by
    rw [hh₁]
    exact he
  have hcurrent₁ : (isCurrent x h₁).1 = .ok true := by
    rw [isCurrent_of_eq (h := h) (by rw [hh₁]) (by rw [hh₁])]
    exact hcurrent
  obtain rfl := hq.handle_eq
  have htracks := tracks_powerOn hpacer hq.inOrder hq.frames_eq hq.stopped hengine hstarted hfree
    hplain hcurrent₁ (congrArg Prod.fst hon)
  rw [hon, hq.count_eq, hq.lastStatus_eq] at htracks
  obtain ⟨pacers, clocks, hh'⟩ := powerOn_changes hon
  exact ⟨by rw [hh', hh₁], q.timerInterval, hq.inOrder.timer_pos, htracks⟩

end HostM

end Chip8
