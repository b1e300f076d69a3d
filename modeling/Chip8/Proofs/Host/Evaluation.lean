import Chip8.Host.Perform

/-!
# How a host's actions evaluate

An action of `HostM` is a function from a host to an outcome and a host.  The
lemmas of this file apply the basic actions to a host, so that a longer action
is evaluated by rewriting.  `Host.putEngine` and `Host.putPacer` write the two
changes that matter most, and `bind_apply` puts actions together.

* `modifyEngine_apply`, `modifyPacer_apply`: a change of an engine or a pacer
  that exists puts the changed one in its place.
* `exclusive_apply`: an action that has an engine for itself leaves the engine
  free.
-/

namespace Chip8

def Engine.marked (busy : Bool) (e : Engine) : Engine :=
  { e with busy }

theorem eq_ok_of_toOption {α : Type} {x : Except Refusal α} {a : α} (hx : x.toOption = some a) :
    x = .ok a := by
  cases x with
  | error r => cases hx
  | ok b => exact congrArg Except.ok (Option.some.inj hx)

/-! ### Changes of a host -/

theorem modify_eq_setIfInBounds {α : Type} {xs : Array α} {i : Nat} {a : α} (ha : xs[i]? = some a)
    (f : α → α) : xs.modify i f = xs.setIfInBounds i (f a) := by
  obtain ⟨hi, -⟩ := Array.getElem?_eq_some_iff.mp ha
  apply Array.ext_getElem?
  intro j
  rw [Array.getElem?_modify]
  split
  · next hj => rw [← hj, ha, Array.getElem?_setIfInBounds_self_of_lt hi]; rfl
  · next hj => rw [Array.getElem?_setIfInBounds_ne hj]

theorem modify_of_eq_none {α : Type} {xs : Array α} {i : Nat} (hn : xs[i]? = none) (f : α → α) :
    xs.modify i f = xs := by
  apply Array.ext_getElem?
  intro j
  rw [Array.getElem?_modify]
  split
  · next hj => rw [← hj, hn]; rfl
  · rfl

theorem modify_modify {α : Type} (xs : Array α) (i : Nat) (f g : α → α) :
    (xs.modify i f).modify i g = xs.modify i fun a => g (f a) := by
  apply Array.ext_getElem?
  intro j
  rw [Array.getElem?_modify, Array.getElem?_modify, Array.getElem?_modify]
  split
  · rw [Option.map_map]
    rfl
  · rfl

namespace Host

def putEngine (h : Host) (c : Nat) (e : Engine) : Host :=
  { h with engines := h.engines.setIfInBounds c e }

def putPacer (h : Host) (p : Nat) (q : Pacer) : Host :=
  { h with pacers := h.pacers.setIfInBounds p q }

def addLines (h : Host) (lines : List LogLine) : Host :=
  { h with log := h.log ++ lines }

theorem engines_putEngine {h : Host} {c : Nat} {e e' : Engine} (he : h.engines[c]? = some e) :
    (h.putEngine c e').engines[c]? = some e' := by
  obtain ⟨hc, -⟩ := Array.getElem?_eq_some_iff.mp he
  exact Array.getElem?_setIfInBounds_self_of_lt hc

theorem putEngine_putEngine (h : Host) (c : Nat) (e e' : Engine) :
    (h.putEngine c e).putEngine c e' = h.putEngine c e' :=
  congrArg (fun engines => { h with engines }) (Array.setIfInBounds_setIfInBounds _)

theorem putEngine_eq_self {h : Host} {c : Nat} {e : Engine} (he : h.engines[c]? = some e) :
    h.putEngine c e = h := by
  obtain ⟨hc, he⟩ := Array.getElem?_eq_some_iff.mp he
  refine congrArg (fun engines => { h with engines }) ?_
  rw [← he, Array.setIfInBounds_def, dif_pos hc, Array.set_getElem_self]

theorem putEngine_addLines (h : Host) (c : Nat) (e : Engine) (lines : List LogLine) :
    (h.addLines lines).putEngine c e = (h.putEngine c e).addLines lines := rfl

theorem pacers_putPacer {h : Host} {p : Nat} {q q' : Pacer} (hp : h.pacers[p]? = some q) :
    (h.putPacer p q').pacers[p]? = some q' := by
  obtain ⟨hlt, -⟩ := Array.getElem?_eq_some_iff.mp hp
  exact Array.getElem?_setIfInBounds_self_of_lt hlt

theorem putPacer_putPacer (h : Host) (p : Nat) (q q' : Pacer) :
    (h.putPacer p q).putPacer p q' = h.putPacer p q' :=
  congrArg (fun pacers => { h with pacers }) (Array.setIfInBounds_setIfInBounds _)

theorem putPacer_eq_self {h : Host} {p : Nat} {q : Pacer} (hp : h.pacers[p]? = some q) :
    h.putPacer p q = h := by
  obtain ⟨hlt, hq⟩ := Array.getElem?_eq_some_iff.mp hp
  refine congrArg (fun pacers => { h with pacers }) ?_
  rw [← hq, Array.setIfInBounds_def, dif_pos hlt, Array.set_getElem_self]

theorem addLines_nil (h : Host) : h.addLines [] = h :=
  congrArg (fun log => { h with log }) Array.appendList_nil

theorem addLines_append (h : Host) (l₁ l₂ : List LogLine) :
    h.addLines (l₁ ++ l₂) = (h.addLines l₁).addLines l₂ := by
  refine congrArg (fun log => { h with log }) (Array.ext' ?_)
  simp only [addLines, Array.toList_appendList, List.append_assoc]

end Host

/-! ### Actions -/

namespace HostM

variable {α β : Type}

/-! These lemmas are about actions on a state of any kind. -/

section AnyState

variable {σ : Type} {s s' : σ}

theorem bind_apply (x : ExceptT Refusal (StateM σ) α) (f : α → ExceptT Refusal (StateM σ) β)
    (s : σ) : (x >>= f) s = match x s with
      | (.ok a, s') => f a s'
      | (.error r, s') => (.error r, s') := by
  have hbind : (x >>= f) s = ExceptT.bindCont f (x s).1 (x s).2 := rfl
  rw [hbind]
  rcases x s with ⟨_ | _, _⟩ <;> rfl

theorem bind_of_ok {x : ExceptT Refusal (StateM σ) α} {a : α} (hx : x s = (.ok a, s'))
    (f : α → ExceptT Refusal (StateM σ) β) : (x >>= f) s = f a s' := by
  rw [bind_apply, hx]

theorem bind_of_error {x : ExceptT Refusal (StateM σ) α} {r : Refusal}
    (hx : x s = (.error r, s')) (f : α → ExceptT Refusal (StateM σ) β) :
    (x >>= f) s = (.error r, s') := by
  rw [bind_apply, hx]

theorem exists_of_ok {x : ExceptT Refusal (StateM σ) α} {a : α} (hx : (x s).1 = .ok a) :
    ∃ s', x s = (.ok a, s') :=
  ⟨(x s).2, Prod.ext hx rfl⟩

theorem bind_eq_ok {x : ExceptT Refusal (StateM σ) α} {f : α → ExceptT Refusal (StateM σ) β}
    {b : β} (hx : (x >>= f) s = (.ok b, s')) :
    ∃ a s₁, x s = (.ok a, s₁) ∧ f a s₁ = (.ok b, s') := by
  rw [bind_apply] at hx
  rcases hr : x s with ⟨r | a, s₁⟩ <;> rw [hr] at hx
  · cases hx
  · exact ⟨a, s₁, rfl, hx⟩

theorem get_apply (s : σ) : (get : ExceptT Refusal (StateM σ) σ) s = (.ok s, s) := rfl

end AnyState

theorem guard_eq_ok {c : Prop} [Decidable c] {r : Refusal} {x : HostM α} {h h' : Host} {a : α}
    (hx : (if c then (do throw r; x) else x) h = (.ok a, h')) : ¬c ∧ x h = (.ok a, h') := by
  by_cases hc : c
  · rw [if_pos hc] at hx
    cases hx
  · rw [if_neg hc] at hx
    exact ⟨hc, hx⟩

theorem pure_apply (a : α) (h : Host) : (pure a : HostM α) h = (.ok a, h) := rfl

theorem modify_apply (f : Host → Host) (h : Host) :
    (modify f : HostM Unit) h = (.ok (), f h) := rfl

theorem attempt_apply (x : HostM α) (h : Host) : attempt x h = (.ok (x h).1, (x h).2) := rfl

theorem ofExcept_apply (x : Except Refusal α) (h : Host) : ofExcept x h = (x, h) := by
  cases x <;> rfl

theorem ofConversion_ok (a : α) (h : Host) : ofConversion (.ok a) h = (.ok a, h) := rfl

theorem ofConversion_eq_ok {x : Except Binary64.ConversionError α} {h h' : Host} {a : α}
    (hx : ofConversion x h = (.ok a, h')) : x = .ok a ∧ h' = h := by
  cases x with
  | error e => cases hx
  | ok b =>
    cases hx
    exact ⟨rfl, rfl⟩

theorem ofMemory_ok (a : α) (h : Host) : ofMemory (.ok a) h = (.ok a, h) := rfl

theorem ofMemory_error (o : OutOfRange) (h : Host) :
    (ofMemory (.error o) : HostM α) h = (.error (.ofOutOfRange o), h) := rfl

theorem required_some (r : Refusal) (a : α) (h : Host) :
    required r (some a) h = (.ok a, h) := rfl

theorem required_none (r : Refusal) (h : Host) :
    (required r none : HostM α) h = (.error r, h) := rfl

theorem required_eq_ok {r : Refusal} {x : Option α} {h h' : Host} {a : α}
    (hx : required r x h = (.ok a, h')) : x = some a ∧ h' = h := by
  cases x with
  | none => cases hx
  | some b =>
    cases hx
    exact ⟨rfl, rfl⟩

theorem log_apply (line : LogLine) (h : Host) : log line h = (.ok (), h.addLines [line]) := by
  show (Except.ok (), { h with log := _ }) = (_, { h with log := _ })
  rw [Array.appendList_cons, Array.appendList_nil]

theorem logAll_apply (lines : List LogLine) (h : Host) :
    logAll lines h = (.ok (), h.addLines lines) := by
  induction lines generalizing h with
  | nil => rw [Host.addLines_nil]; rfl
  | cons line lines ih =>
    show (log line >>= fun _ => logAll lines) h = _
    rw [bind_of_ok (log_apply line h), ih, ← Host.addLines_append, List.singleton_append]

/-! ### Engines -/

theorem engine_apply {h : Host} {c : Nat} {e : Engine} (he : h.engines[c]? = some e) :
    engine c h = (.ok e, h) := by
  rw [engine, bind_of_ok (get_apply h), he, required_some]

theorem engine_of_eq_none {h : Host} {c : Nat} (he : h.engines[c]? = none) :
    engine c h = (.error .noEngine, h) := by
  rw [engine, bind_of_ok (get_apply h), he, required_none]

theorem engine_eq_ok {h h' : Host} {c : Nat} {e : Engine} (he : engine c h = (.ok e, h')) :
    h.engines[c]? = some e ∧ h' = h := by
  rw [engine, bind_of_ok (get_apply h)] at he
  exact required_eq_ok he

theorem machine_apply {h : Host} {c : Nat} {e : Engine} (he : h.engines[c]? = some e) :
    machine c h = (.ok e.machine, h) := by
  rw [machine, bind_of_ok (engine_apply he), pure_apply]

theorem modifyEngine_apply {h : Host} {c : Nat} {e : Engine} (he : h.engines[c]? = some e)
    (f : Engine → Engine) : modifyEngine c f h = (.ok (), h.putEngine c (f e)) := by
  show (Except.ok (), { h with engines := h.engines.modify c f }) = _
  rw [modify_eq_setIfInBounds he]
  rfl

theorem modifyEngine_of_eq_none {h : Host} {c : Nat} (he : h.engines[c]? = none)
    (f : Engine → Engine) : modifyEngine c f h = (.ok (), h) := by
  show (Except.ok (), { h with engines := h.engines.modify c f }) = _
  rw [modify_of_eq_none he]

theorem exclusive_of_eq_none {h : Host} {c : Nat} (he : h.engines[c]? = none) (activity : Activity)
    (x : HostM α) : exclusive c activity x h = (.error .noEngine, h) := by
  rw [exclusive, bind_of_error (engine_of_eq_none he)]

theorem exclusive_of_busy {h : Host} {c : Nat} {e : Engine} (he : h.engines[c]? = some e)
    (hbusy : e.busy = true) (activity : Activity) (x : HostM α) :
    exclusive c activity x h = (.error (.busy activity), h) := by
  rw [exclusive, bind_of_ok (engine_apply he), hbusy]
  rfl

theorem exclusive_of_free {h : Host} {c : Nat} {e : Engine} (he : h.engines[c]? = some e)
    (hfree : e.busy = false) (activity : Activity) (x : HostM α) :
    exclusive c activity x h =
      ((x (h.putEngine c (e.marked true))).1,
        (modifyEngine c (Engine.marked false) (x (h.putEngine c (e.marked true))).2).2) := by
  rw [exclusive, bind_of_ok (engine_apply he), hfree]
  show (modifyEngine c (Engine.marked true) >>= fun _ => _) h = _
  rw [bind_of_ok (modifyEngine_apply he _), bind_of_ok (attempt_apply x _)]
  exact ofExcept_apply _ _

/-- **An action that has an engine for itself** is made on the engine marked as busy, and leaves
it free. -/
theorem exclusive_apply {h : Host} {c : Nat} {e e' : Engine} (he : h.engines[c]? = some e)
    (hfree : e.busy = false) (activity : Activity) {x : HostM α} {lines : List LogLine}
    {outcome : Except Refusal α}
    (hx : x (h.putEngine c (e.marked true)) = (outcome, (h.putEngine c e').addLines lines)) :
    exclusive c activity x h = (outcome, (h.putEngine c (e'.marked false)).addLines lines) := by
  have he' : ((h.putEngine c e').addLines lines).engines[c]? = some e' :=
    Host.engines_putEngine he
  rw [exclusive_of_free he hfree, hx, modifyEngine_apply he', Host.putEngine_addLines,
    Host.putEngine_putEngine]

theorem sessionAt_apply (s : Nat) (h : Host) :
    sessionAt s h = (h.sessions[s]?.elim (.error .noSession) .ok, h) := by
  rw [sessionAt, bind_of_ok (get_apply h)]
  cases h.sessions[s]? <;> rfl

theorem handle_apply {h : Host} {n : Nat} {x : Handle} (hx : h.handles[n]? = some x) :
    handle n h = (.ok x, h) := by
  rw [handle, bind_of_ok (get_apply h), hx, required_some]

theorem isCurrent_unchanged (x : Handle) (h : Host) : (isCurrent x h).2 = h := by
  rw [isCurrent]
  cases he : h.engines[x.engine]? with
  | none => rw [bind_of_error (engine_of_eq_none he)]
  | some e =>
    rw [bind_of_ok (engine_apply he)]
    cases e.retired with
    | true => rfl
    | false =>
      cases e.owner with
      | none => rfl
      | some s =>
        show ((sessionAt s >>= fun session => pure _) h).2 = h
        rw [bind_apply, sessionAt_apply]
        cases h.sessions[s]? <;> rfl

theorem isCurrent_congr {x : Handle} {h h' : Host} {e e' : Engine}
    (he : h.engines[x.engine]? = some e) (he' : h'.engines[x.engine]? = some e')
    (hretired : e'.retired = e.retired)
    (howner : e'.owner = e.owner) (hgeneration : e'.generation = e.generation)
    (hsessions : h'.sessions = h.sessions) : (isCurrent x h').1 = (isCurrent x h).1 := by
  rw [isCurrent, bind_of_ok (engine_apply he), bind_of_ok (engine_apply he'), hretired, howner,
    hgeneration]
  cases e.retired with
  | true => rfl
  | false =>
    cases e.owner with
    | none => rfl
    | some k =>
      show ((sessionAt k >>= fun session => pure _) h').1 =
        ((sessionAt k >>= fun session => pure _) h).1
      rw [bind_apply, bind_apply, sessionAt_apply, sessionAt_apply, hsessions]
      cases h.sessions[k]? <;> rfl

theorem isCurrent_of_eq {x : Handle} {h h' : Host} (hengines : h'.engines = h.engines)
    (hsessions : h'.sessions = h.sessions) : (isCurrent x h').1 = (isCurrent x h).1 := by
  cases he : h.engines[x.engine]? with
  | none =>
    have he' : h'.engines[x.engine]? = none := by rw [hengines, he]
    rw [isCurrent, bind_of_error (engine_of_eq_none he), bind_of_error (engine_of_eq_none he')]
  | some e =>
    have he' : h'.engines[x.engine]? = some e := by rw [hengines, he]
    exact isCurrent_congr he he' rfl rfl rfl hsessions

/-! ### Calls on handles -/

section Handles

variable {perform : Request → HostM Reply} {x : Handle} {h : Host}

theorem stepHandle_of_current (hx : isCurrent x h = (.ok true, h)) :
    stepHandle perform x h = stepEngine perform x.engine h := by
  rw [stepHandle, bind_of_ok hx]
  rfl

theorem stepHandle_of_not_current (hx : isCurrent x h = (.ok false, h)) :
    stepHandle perform x h = (.error (.stale x.generation), h) := by
  rw [stepHandle, bind_of_ok hx]
  rfl

theorem tickHandle_of_not_current (hx : isCurrent x h = (.ok false, h)) :
    tickHandle x h = (.ok (), h) := by
  rw [tickHandle, bind_of_ok hx]
  rfl

end Handles

/-! ### Pacers -/

theorem pacerAt_apply {h : Host} {p : Nat} {q : Pacer} (hp : h.pacers[p]? = some q) :
    pacerAt p h = (.ok q, h) := by
  rw [pacerAt, bind_of_ok (get_apply h), hp, required_some]

theorem pacerAt_of_eq_none {h : Host} {p : Nat} (hp : h.pacers[p]? = none) :
    pacerAt p h = (.error .noPacer, h) := by
  rw [pacerAt, bind_of_ok (get_apply h), hp, required_none]

theorem pacerAt_eq_ok {h h' : Host} {p : Nat} {q : Pacer} (hq : pacerAt p h = (.ok q, h')) :
    h.pacers[p]? = some q ∧ h' = h := by
  rw [pacerAt, bind_of_ok (get_apply h)] at hq
  exact required_eq_ok hq

theorem modifyPacer_apply {h : Host} {p : Nat} {q : Pacer} (hp : h.pacers[p]? = some q)
    (f : Pacer → Pacer) : modifyPacer p f h = (.ok (), h.putPacer p (f q)) := by
  show (Except.ok (), { h with pacers := h.pacers.modify p f }) = _
  rw [modify_eq_setIfInBounds hp]
  rfl

end HostM

end Chip8
