import Chip8.Proofs.Host.Lineage
import Chip8.Proofs.Machine.Frame
import Chip8.Proofs.Pacer.Order

/-!
# What every action of a host keeps

One host follows another if nothing that it holds has been lost on the way,
every engine is as busy as it was, the pacers are in order if they were, and the
sessions are what their reloads have led to if they were.  An action keeps this
relation, `Keeps`, if the host that it leaves follows the host that it found,
however the action ends.  `Keeps` is a class, so that an action that is put
together from actions that keep it is found to keep it too.

A reload keeps the relation only together with the note of its answer, so that
of the requests in the middle of a call this is what is asked for
(`KeepsRequests`).

* `Follows.trans`: the relation holds along every run.
* `keeps_bind`, `keeps_ite`: actions put together.
-/

namespace Chip8

/-! ### Engines -/

/-- What becomes of an engine while a host goes on: it is as busy as it was and draws from the same
numbers, and what is started, retired or halted stays so.  The program of an engine that is busy
waits for the step that is being made. -/
structure Engine.Follows (e e' : Engine) : Prop extends Engine.SameOrigin e e' where
  busy_eq : e'.busy = e.busy
  draws_eq : e'.source.draws = e.source.draws
  started : e.started = true → e'.started = true
  halted : ∀ r, e.machine.halted = some r → e'.machine.halted = some r
  held : e.busy = true → Machine.SameProgress e.machine e'.machine

namespace Engine.Follows

variable {e e' e'' : Engine}

theorem refl (e : Engine) : Follows e e where
  toSameOrigin := .refl e
  busy_eq := rfl
  draws_eq := rfl
  started := id
  halted _ := id
  held _ := .refl _

theorem trans (h : Follows e e') (h' : Follows e' e'') : Follows e e'' where
  toSameOrigin := h.toSameOrigin.trans h'.toSameOrigin
  busy_eq := h'.busy_eq.trans h.busy_eq
  draws_eq := h'.draws_eq.trans h.draws_eq
  started hs := h'.started (h.started hs)
  halted r hr := h'.halted r (h.halted r hr)
  held hb := (h.held hb).trans (h'.held (h.busy_eq.trans hb))

/-- What follows an engine that was marked as busy follows the engine when it is free again. -/
theorem unmark (h : Follows (e.marked true) e') (hfree : e.busy = false) :
    Follows e (e'.marked false) where
  owner_eq := h.owner_eq
  generation_eq := h.generation_eq
  retired := h.retired
  busy_eq := hfree.symm
  draws_eq := h.draws_eq
  started := h.started
  halted := h.halted
  held hb := by
    rw [hfree] at hb
    cases hb

theorem withMachine (e : Engine) {m : Machine} (hm : Machine.SameProgress e.machine m) :
    Follows e { e with machine := m } :=
  { refl e with
    halted := fun _ hr => hm.halted_eq.trans hr
    held := fun _ => hm }

end Engine.Follows

/-- Every engine is still there and follows itself, and the new ones are free. -/
structure EnginesFollow (es es' : Array Engine) : Prop where
  kept : ∀ {c : Nat} {e : Engine}, es[c]? = some e → ∃ e' : Engine, es'[c]? = some e' ∧ e.Follows e'
  new_free : ∀ {c : Nat} {e' : Engine}, es[c]? = none → es'[c]? = some e' → e'.busy = false

namespace EnginesFollow

variable {es es' es'' : Array Engine}

theorem refl (es : Array Engine) : EnginesFollow es es where
  kept he := ⟨_, he, .refl _⟩
  new_free hn he := by
    rw [hn] at he
    cases he

theorem trans (h : EnginesFollow es es') (h' : EnginesFollow es' es'') :
    EnginesFollow es es'' where
  kept he := by
    obtain ⟨e', he', hf⟩ := h.kept he
    obtain ⟨e'', he'', hf'⟩ := h'.kept he'
    exact ⟨e'', he'', hf.trans hf'⟩
  new_free {c e''} hn he'' := by
    cases he' : es'[c]? with
    | none => exact h'.new_free he' he''
    | some e' =>
      obtain ⟨e, he, hf⟩ := h'.kept he'
      rw [he''] at he
      cases he
      rw [hf.busy_eq]
      exact h.new_free hn he'

/-- An engine may be marked, or have another state, for a while. -/
theorem around {c : Nat} {e e₁ e₂ : Engine} (he : es[c]? = some e)
    (h : EnginesFollow (es.setIfInBounds c e₁) es') (hf : e.Follows e₂) :
    EnginesFollow es (es'.setIfInBounds c e₂) where
  kept {c' e'} he' := by
    by_cases hc : c = c'
    · subst hc
      rw [he] at he'
      cases he'
      obtain ⟨hlt, -⟩ := Array.getElem?_eq_some_iff.mp he
      obtain ⟨e₁', he₁', -⟩ := h.kept (Array.getElem?_setIfInBounds_self_of_lt hlt)
      obtain ⟨hlt', -⟩ := Array.getElem?_eq_some_iff.mp he₁'
      exact ⟨e₂, Array.getElem?_setIfInBounds_self_of_lt hlt', hf⟩
    · rw [Array.getElem?_setIfInBounds_ne hc]
      exact h.kept (by rw [Array.getElem?_setIfInBounds_ne hc, he'])
  new_free {c' e'} hn he' := by
    have hc : c ≠ c' := by
      rintro rfl
      rw [hn] at he
      cases he
    rw [Array.getElem?_setIfInBounds_ne hc] at he'
    exact h.new_free (by rw [Array.getElem?_setIfInBounds_ne hc, hn]) he'

theorem put {c : Nat} {e e' : Engine} (he : es[c]? = some e) (hf : e.Follows e') :
    EnginesFollow es (es.setIfInBounds c e') := by
  have hself : EnginesFollow (es.setIfInBounds c e) es := by
    obtain ⟨hc, he⟩ := Array.getElem?_eq_some_iff.mp he
    rw [← he, Array.setIfInBounds_def, dif_pos hc, Array.set_getElem_self]
    exact .refl es
  exact hself.around he hf

theorem push {e : Engine} (hb : e.busy = false) : EnginesFollow es (es.push e) where
  kept {c e'} he' := by
    have hc : c < es.size := (Array.getElem?_eq_some_iff.mp he').1
    rw [Array.getElem?_push, if_neg (Nat.ne_of_lt hc)]
    exact ⟨e', he', .refl e'⟩
  new_free {c e'} hn he' := by
    rw [Array.getElem?_push, hn] at he'
    split at he'
    · cases he'
      exact hb
    · cases he'

end EnginesFollow

/-! ### Pacers -/

/-- Every pacer is in order. -/
def PacersInOrder (qs : Array Pacer) : Prop :=
  ∀ (p : Nat) (q : Pacer), qs[p]? = some q → q.InOrder

/-- Every pacer is still there with its handle and its frame callback, and all are in order if they
were. -/
structure PacersFollow (qs qs' : Array Pacer) : Prop where
  same_setup : ∀ {p : Nat} {q : Pacer}, qs[p]? = some q →
    ∃ q' : Pacer, qs'[p]? = some q' ∧ q.SameSetup q'
  inOrder : PacersInOrder qs → PacersInOrder qs'

theorem PacersInOrder.modify {qs : Array Pacer} {p : Nat} {f : Pacer → Pacer}
    (h : PacersInOrder qs) (hf : ∀ q, qs[p]? = some q → q.InOrder → (f q).InOrder) :
    PacersInOrder (qs.modify p f) := by
  intro p' q' hq'
  rw [Array.getElem?_modify] at hq'
  split at hq'
  · next hp =>
    subst hp
    obtain ⟨q, hq, rfl⟩ := Option.map_eq_some_iff.mp hq'
    exact hf q hq (h p q hq)
  · exact h p' q' hq'

namespace PacersFollow

variable {qs qs' qs'' : Array Pacer}

theorem refl (qs : Array Pacer) : PacersFollow qs qs where
  same_setup hq := ⟨_, hq, .refl _⟩
  inOrder h := h

theorem trans (h : PacersFollow qs qs') (h' : PacersFollow qs' qs'') : PacersFollow qs qs'' where
  same_setup hq := by
    obtain ⟨q', hq', hs⟩ := h.same_setup hq
    obtain ⟨q'', hq'', hs'⟩ := h'.same_setup hq'
    exact ⟨q'', hq'', hs.trans hs'⟩
  inOrder hqs := h'.inOrder (h.inOrder hqs)

theorem same_setup_modify {p : Nat} {f : Pacer → Pacer} (hf : ∀ q : Pacer, q.SameSetup (f q))
    {p' : Nat} {q : Pacer} (hq : qs[p']? = some q) :
    ∃ q' : Pacer, (qs.modify p f)[p']? = some q' ∧ q.SameSetup q' := by
  rw [Array.getElem?_modify, hq]
  by_cases hp : p = p'
  · rw [if_pos hp]
    exact ⟨f q, rfl, hf q⟩
  · rw [if_neg hp]
    exact ⟨q, rfl, .refl q⟩

theorem modify {p : Nat} {f : Pacer → Pacer} (hsetup : ∀ q : Pacer, q.SameSetup (f q))
    (hf : ∀ q, qs[p]? = some q → q.InOrder → (f q).InOrder) : PacersFollow qs (qs.modify p f) where
  same_setup := same_setup_modify hsetup
  inOrder hqs := hqs.modify hf

theorem push {q : Pacer} (hq : q.InOrder) : PacersFollow qs (qs.push q) where
  same_setup {p q'} hq' := by
    have hp : p < qs.size := (Array.getElem?_eq_some_iff.mp hq').1
    rw [Array.getElem?_push, if_neg (Nat.ne_of_lt hp)]
    exact ⟨q', hq', .refl q'⟩
  inOrder hqs p q' hq' := by
    rw [Array.getElem?_push] at hq'
    split at hq'
    · cases hq'
      exact hq
    · exact hqs p q' hq'

end PacersFollow

/-! ### Hosts -/

/-- Nothing has been lost between two hosts, and the second one is as much at rest as the first.
The reloads noted since are those that the sessions have seen since, whatever came before. -/
structure Host.Follows (h h' : Host) : Prop where
  engines : EnginesFollow h.engines h'.engines
  pacers : PacersFollow h.pacers h'.pacers
  lineage : ∀ earlier : List Nat, h.Lineage (earlier ++ h.reloads) →
    h'.Lineage (earlier ++ h'.reloads)

/-- Engines, pacers, sessions, handles and notes are the same; the rest may change. -/
structure Host.SameHoldings (h h' : Host) : Prop where
  engines_eq : h'.engines = h.engines
  pacers_eq : h'.pacers = h.pacers
  sessions_eq : h'.sessions = h.sessions
  handles_eq : h'.handles = h.handles
  notes_eq : h'.notes = h.notes

namespace Host.Follows

variable {h h' h'' : Host}

theorem refl (h : Host) : Follows h h :=
  ⟨.refl _, .refl _, fun _ => id⟩

theorem trans (h₁ : Follows h h') (h₂ : Follows h' h'') : Follows h h'' where
  engines := h₁.engines.trans h₂.engines
  pacers := h₁.pacers.trans h₂.pacers
  lineage earlier hl := h₂.lineage earlier (h₁.lineage earlier hl)

theorem of_sameHoldings (hs : h.SameHoldings h') : Follows h h' where
  engines := by
    rw [hs.engines_eq]
    exact .refl _
  pacers := by
    rw [hs.pacers_eq]
    exact .refl _
  lineage earlier hl := by
    rw [reloads, hs.notes_eq]
    refine hl.of_kept ?_ hs.sessions_eq hs.handles_eq
    rw [hs.engines_eq]
    exact .refl _

theorem pushNote {n : Note} (hn : n.reloaded? = none) :
    Follows h { h with notes := h.notes.push n } where
  engines := .refl _
  pacers := .refl _
  lineage earlier hl := by
    have hsame : reloads { h with notes := h.notes.push n } = h.reloads := by
      rw [reloads, Array.toList_push, List.filterMap_append, List.filterMap_cons_none hn,
        List.filterMap_nil, List.append_nil, reloads]
    rw [hsame]
    exact hl.of_kept (.refl _) rfl rfl

theorem of_pacers {pacers : Array Pacer} (hp : PacersFollow h.pacers pacers) :
    Follows h { h with pacers } :=
  ⟨.refl _, hp, fun _ hl => hl.of_kept (.refl _) rfl rfl⟩

/-- Another engine of the same origin in the place of one is nothing to the sessions. -/
theorem lineage_putEngine {c : Nat} {e e' : Engine} (he : h.engines[c]? = some e)
    (horigin : e.SameOrigin e') {cs : List Nat} (hl : h.Lineage cs) :
    (h.putEngine c e').Lineage cs :=
  hl.of_kept (.put he horigin) rfl rfl

theorem putEngine {c : Nat} {e e' : Engine} (he : h.engines[c]? = some e) (hf : e.Follows e') :
    Follows h (h.putEngine c e') :=
  ⟨.put he hf, .refl _, fun _ => lineage_putEngine he hf.toSameOrigin⟩

theorem pushEngine {e : Engine} (hfree : e.busy = false) (hunowned : e.owner = none) :
    Follows h { h with engines := h.engines.push e } :=
  ⟨.push hfree, .refl _, fun _ hl => hl.of_kept (.push hunowned) rfl rfl⟩

theorem pushHandle {c : Nat} {e : Engine} (he : h.engines[c]? = some e) :
    Follows h { h with handles := h.handles.push ⟨c, e.generation⟩ } :=
  ⟨.refl _, .refl _, fun _ hl => hl.addHandle he⟩

theorem pushSession {session : Session} {current : Option Nat} (hg : session.generation = 0)
    (he : session.engine = none) :
    Follows h { h with sessions := h.sessions.push session, session := current } :=
  ⟨.refl _, .refl _, fun _ hl => (hl.addSession hg he).of_kept (.refl _) rfl rfl⟩

/-- **While something goes on with an engine** it may be in another state, if in the end there is
one in its place that follows the engine of the beginning. -/
theorem around {c : Nat} {e e₁ e₂ e₃ : Engine} (he : h.engines[c]? = some e)
    (horigin : e.SameOrigin e₁) (h₁ : Follows (h.putEngine c e₁) h')
    (he₂ : h'.engines[c]? = some e₂) (horigin' : e₂.SameOrigin e₃) (hf : e.Follows e₃) :
    Follows h (h'.putEngine c e₃) where
  engines := h₁.engines.around he hf
  pacers := h₁.pacers
  lineage earlier hl :=
    lineage_putEngine he₂ horigin' (h₁.lineage earlier (lineage_putEngine he horigin hl))

end Host.Follows

namespace HostM

variable {α β : Type}

/-- **The action keeps what every action keeps**: the host that it leaves follows the one that it
found. -/
class Keeps (x : HostM α) : Prop where
  follows : ∀ h, Host.Follows h (x h).2

/-! ### Actions put together -/

theorem follows_bind {x : HostM α} {f : α → HostM β} {h : Host} (hx : Host.Follows h (x h).2)
    (hf : ∀ a h', x h = (.ok a, h') → Host.Follows h' (f a h').2) :
    Host.Follows h ((x >>= f) h).2 := by
  rw [bind_apply]
  rcases hr : x h with ⟨_ | a, h'⟩
  · rw [hr] at hx
    exact hx
  · rw [hr] at hx
    exact hx.trans (hf a h' hr)

instance keeps_bind {x : HostM α} {f : α → HostM β} [hx : Keeps x] [hf : ∀ a, Keeps (f a)] :
    Keeps (x >>= f) where
  follows h := follows_bind (hx.follows h) fun a h' _ => (hf a).follows h'

theorem keeps_then {x : HostM α} {f : α → HostM β} [Keeps x] (hf : ∀ a, Keeps (f a)) :
    Keeps (x >>= f) :=
  inferInstance

instance keeps_ite {p : Prop} [Decidable p] {x y : HostM α} [hx : Keeps x] [hy : Keeps y] :
    Keeps (if p then x else y) := by
  split
  · exact hx
  · exact hy

instance keeps_attempt {x : HostM α} [hx : Keeps x] : Keeps (attempt x) where
  follows h := hx.follows h

instance keeps_forM {f : α → HostM Unit} [hf : ∀ a, Keeps (f a)] (a? : Option α) :
    Keeps (a?.forM f) := by
  cases a? with
  | none => exact ⟨fun h => .refl h⟩
  | some a => exact hf a

/-! ### Actions that change nothing -/

theorem Keeps.of_unchanged {x : HostM α} (hx : ∀ h, (x h).2 = h) : Keeps x :=
  ⟨fun h => by rw [hx]; exact .refl h⟩

instance keeps_pure (a : α) : Keeps (pure a : HostM α) :=
  .of_unchanged fun _ => rfl

instance keeps_throw (r : Refusal) : Keeps (throw r : HostM α) :=
  .of_unchanged fun _ => rfl

theorem keeps_guard {p : Prop} [Decidable p] {r : Refusal} {x : HostM α} (hx : Keeps x) :
    Keeps (if p then (do throw r; x) else x) :=
  inferInstance

instance keeps_get : Keeps (get : HostM Host) :=
  .of_unchanged fun _ => rfl

instance keeps_ofExcept (x : Except Refusal α) : Keeps (ofExcept x) :=
  .of_unchanged fun h => by rw [ofExcept_apply]

instance keeps_ofConversion (x : Except Binary64.ConversionError α) : Keeps (ofConversion x) :=
  keeps_ofExcept _

instance keeps_ofMemory (x : Except OutOfRange α) : Keeps (ofMemory x) :=
  keeps_ofExcept _

instance keeps_required (r : Refusal) (a? : Option α) : Keeps (required r a?) := by
  cases a? with
  | none => exact keeps_throw r
  | some a => exact keeps_pure a

section Readings

variable (c n p s : Nat)

instance keeps_engine : Keeps (engine c) := by
  unfold engine
  infer_instance

instance keeps_machine : Keeps (machine c) := by
  unfold machine
  infer_instance

instance keeps_currentEngine : Keeps currentEngine := by
  unfold currentEngine
  infer_instance

instance keeps_handle : Keeps (handle n) := by
  unfold handle
  infer_instance

instance keeps_currentSession : Keeps currentSession := by
  unfold currentSession
  infer_instance

instance keeps_sessionAt : Keeps (sessionAt s) := by
  unfold sessionAt
  infer_instance

instance keeps_isCurrent (x : Handle) : Keeps (isCurrent x) := by
  unfold isCurrent
  have (e : Engine) : Keeps (match e.owner with
      | none => pure (x.generation == e.generation)
      | some s => do return x.generation == ((← sessionAt s).generation : Int)) := by
    cases e.owner <;> infer_instance
  infer_instance

instance keeps_pacerAt : Keeps (pacerAt p) := by
  unfold pacerAt
  infer_instance

instance keeps_currentPacer : Keeps currentPacer := by
  unfold currentPacer
  infer_instance

instance keeps_currentClock : Keeps currentClock := by
  unfold currentClock
  infer_instance

instance keeps_now : Keeps now := by
  unfold now
  infer_instance

instance keeps_readWall (wall : WallClock) (number : Nat) : Keeps (readWall wall number) := by
  unfold readWall
  infer_instance

end Readings

theorem follows_ofExcept_bind {x : Except Refusal α} {f : α → HostM β} {h : Host}
    (hf : ∀ a, x = .ok a → Host.Follows h (f a h).2) :
    Host.Follows h ((HostM.ofExcept x >>= f) h).2 := by
  refine follows_bind ((keeps_ofExcept x).follows h) fun a h' hx => ?_
  rw [ofExcept_apply] at hx
  cases hx
  exact hf a rfl

theorem keeps_ofConversion_bind {x : Except Binary64.ConversionError α} {f : α → HostM β}
    (hf : ∀ a, x = .ok a → Keeps (f a)) : Keeps (ofConversion x >>= f) where
  follows h := follows_ofExcept_bind fun a ha => (hf a (by
    cases x with
    | ok b => cases ha; rfl
    | error e => cases ha)).follows h

/-! ### Actions that change neither engines nor pacers -/

theorem keeps_modify {f : Host → Host} (hf : ∀ h, Host.SameHoldings h (f h)) :
    Keeps (modify f : HostM Unit) :=
  ⟨fun h => .of_sameHoldings (hf h)⟩

instance keeps_setCurrent (c : Nat) : Keeps (setCurrent c) :=
  keeps_modify fun _ => ⟨rfl, rfl, rfl, rfl, rfl⟩

instance keeps_readClock (k : Nat) : Keeps (readClock k) := by
  unfold readClock
  have : Keeps (modify fun h => { h with clocks := h.clocks.modify k Clock.read }) :=
    keeps_modify fun _ => ⟨rfl, rfl, rfl, rfl, rfl⟩
  infer_instance

instance keeps_advanceClock (ns : Int) : Keeps (advanceClock ns) := by
  unfold advanceClock
  have (k : Nat) : Keeps (modify fun h =>
      { h with clocks := h.clocks.modify k fun c => c.advance ns }) :=
    keeps_modify fun _ => ⟨rfl, rfl, rfl, rfl, rfl⟩
  infer_instance

instance keeps_log (line : LogLine) : Keeps (log line) :=
  keeps_modify fun _ => ⟨rfl, rfl, rfl, rfl, rfl⟩

instance keeps_logAll (lines : List LogLine) : Keeps (logAll lines) :=
  ⟨fun h => by
    rw [logAll_apply]
    exact .of_sameHoldings ⟨rfl, rfl, rfl, rfl, rfl⟩⟩

/-! ### Notes -/

theorem keeps_note {n : Note} (hn : n.reloaded? = none) : Keeps (note n) :=
  ⟨fun _ => .pushNote hn⟩

instance keeps_note_frame (k count : Nat) : Keeps (note (.frame k count)) :=
  keeps_note rfl

def noted (x : HostM Reply) : HostM Unit := do
  note (.reply (← x))

/-- **The requests keep what every action keeps**, each of them together with the note of its
answer. -/
class KeepsRequests (perform : Request → HostM Reply) : Prop where
  keeps_noted : ∀ r, Keeps (noted (perform r))

theorem noted_apply (x : HostM Reply) (h : Host) :
    ∃ notes, (noted x h).2 = { (x h).2 with notes } := by
  rw [noted, bind_apply]
  rcases x h with ⟨r | a, h'⟩
  · exact ⟨h'.notes, rfl⟩
  · exact ⟨h'.notes.push (.reply a), rfl⟩

theorem KeepsRequests.engines {perform : Request → HostM Reply} [hp : KeepsRequests perform]
    (r : Request) (h : Host) : EnginesFollow h.engines (perform r h).2.engines := by
  obtain ⟨notes, hnoted⟩ := noted_apply (perform r) h
  have hkeeps := (hp.keeps_noted r).follows h
  rw [hnoted] at hkeeps
  exact hkeeps.engines

theorem KeepsRequests.pacers {perform : Request → HostM Reply} [hp : KeepsRequests perform]
    (r : Request) (h : Host) : PacersFollow h.pacers (perform r h).2.pacers := by
  obtain ⟨notes, hnoted⟩ := noted_apply (perform r) h
  have hkeeps := (hp.keeps_noted r).follows h
  rw [hnoted] at hkeeps
  exact hkeeps.pacers

instance keeps_note_then {perform : Request → HostM Reply} [hp : KeepsRequests perform]
    (r : Request) (f : Unit → HostM α) [hf : ∀ u, Keeps (f u)] :
    Keeps (perform r >>= fun a => note (.reply a) >>= f) := by
  have hnoted := hp.keeps_noted r
  have hassoc : (perform r >>= fun a => note (.reply a) >>= f) = noted (perform r) >>= f := by
    rw [noted, bind_assoc]
  rw [hassoc]
  infer_instance

/-! ### Actions that change engines -/

theorem follows_modifyEngine {h : Host} {c : Nat} {f : Engine → Engine}
    (hf : ∀ e, h.engines[c]? = some e → e.Follows (f e)) :
    Host.Follows h (modifyEngine c f h).2 := by
  cases he : h.engines[c]? with
  | none =>
    rw [modifyEngine_of_eq_none he]
    exact .refl h
  | some e =>
    rw [modifyEngine_apply he]
    exact .putEngine he (hf e he)

theorem keeps_modifyEngine (c : Nat) {f : Engine → Engine}
    (hf : ∀ e : Engine, e.Follows (f e)) :
    Keeps (modifyEngine c f) :=
  ⟨fun _ => follows_modifyEngine fun e _ => hf e⟩

theorem keeps_modifyMachine (c : Nat) {f : Machine → Machine}
    (hf : ∀ m : Machine, m.SameProgress (f m)) :
    Keeps (modifyMachine c f) :=
  keeps_modifyEngine c fun e => .withMachine e (hf e.machine)

instance keeps_retire (c : Nat) : Keeps (retire c) :=
  keeps_modifyEngine c fun e => { Engine.Follows.refl e with retired := fun _ => rfl }

theorem keeps_engine_bind (c : Nat) {f : Engine → HostM α}
    (hf : ∀ h e, h.engines[c]? = some e → Host.Follows h (f e h).2) : Keeps (engine c >>= f) where
  follows h := by
    cases he : h.engines[c]? with
    | none =>
      rw [bind_of_error (engine_of_eq_none he)]
      exact .refl h
    | some e =>
      rw [bind_of_ok (engine_apply he)]
      exact hf h e he

theorem keeps_addEngine {e : Engine} (hfree : e.busy = false) (hunowned : e.owner = none) :
    Keeps (addEngine e) :=
  ⟨fun _ => .pushEngine hfree hunowned⟩

/-- **An action that has an engine for itself** leaves it as free as it was. -/
instance keeps_exclusive (c : Nat) (activity : Activity) (x : HostM α) [hx : Keeps x] :
    Keeps (exclusive c activity x) where
  follows h := by
    cases he : h.engines[c]? with
    | none =>
      rw [exclusive_of_eq_none he]
      exact .refl h
    | some e =>
      cases hb : e.busy with
      | true =>
        rw [exclusive_of_busy he hb]
        exact .refl h
      | false =>
        have hmarked : e.SameOrigin (e.marked true) := ⟨rfl, rfl, id⟩
        have hinner := hx.follows (h.putEngine c (e.marked true))
        obtain ⟨e', he', hf⟩ := hinner.engines.kept (Host.engines_putEngine he)
        rw [exclusive_of_free he hb, modifyEngine_apply he']
        exact .around he hmarked hinner he' ⟨rfl, rfl, id⟩ (hf.unmark hb)

/-! ### Actions that change pacers -/

theorem follows_modifyPacer {h : Host} {p : Nat} {f : Pacer → Pacer}
    (hsetup : ∀ q : Pacer, q.SameSetup (f q))
    (hf : ∀ q, h.pacers[p]? = some q → q.InOrder → (f q).InOrder) :
    Host.Follows h (modifyPacer p f h).2 :=
  .of_pacers (.modify hsetup hf)

theorem keeps_modifyPacer (p : Nat) {f : Pacer → Pacer} (hsetup : ∀ q : Pacer, q.SameSetup (f q))
    (hf : ∀ q, q.InOrder → (f q).InOrder) : Keeps (modifyPacer p f) :=
  ⟨fun _ => follows_modifyPacer hsetup fun q _ => hf q⟩

theorem keeps_pacerAt_bind (p : Nat) {f : Pacer → HostM α}
    (hf : ∀ h q, h.pacers[p]? = some q → Host.Follows h (f q h).2) : Keeps (pacerAt p >>= f) where
  follows h := by
    cases hq : h.pacers[p]? with
    | none =>
      rw [bind_of_error (pacerAt_of_eq_none hq)]
      exact .refl h
    | some q =>
      rw [bind_of_ok (pacerAt_apply hq)]
      exact hf h q hq

end HostM

end Chip8
