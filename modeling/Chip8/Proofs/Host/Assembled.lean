import Chip8.Proofs.Host.Asks

/-!
# Actions put together from calls

An action that makes requests is put together from parts that make none, from
requests that are made for themselves, and from steps.  `Assembled C D` says so of
an action all of whose calls are on engines in `C`, or on pacers in `D`, which
drive engines in `C`.  Every fact about such actions is proved by induction on how
they are put together.

* `Assembled.askedFrom`: where a request is made in the middle of such an action,
  the engines are as busy as they were, unless it is made in the middle of a step.
* `Assembled.busy`: where such an action is refused because an engine is busy, one
  of its engines is, or a request in the middle of it has been refused for this.
-/

namespace Chip8

/-! ### Hosts that go on -/

namespace Host

variable {h h' h'' : Host} {c : Nat}

/-- The engines are as busy as they were, and every pacer still has its handle. -/
structure GoesOn (h h' : Host) : Prop where
  engines : EnginesFollow h.engines h'.engines
  pacers : ∀ {p : Nat} {q : Pacer}, h.pacers[p]? = some q →
    ∃ q' : Pacer, h'.pacers[p]? = some q' ∧ q.SameSetup q'

theorem GoesOn.trans (h₁ : GoesOn h h') (h₂ : GoesOn h' h'') : GoesOn h h'' where
  engines := h₁.engines.trans h₂.engines
  pacers hq := by
    obtain ⟨q', hq', hsame⟩ := h₁.pacers hq
    obtain ⟨q'', hq'', hsame'⟩ := h₂.pacers hq'
    exact ⟨q'', hq'', hsame.trans hsame'⟩

theorem Follows.goesOn (hf : Follows h h') : GoesOn h h' :=
  ⟨hf.engines, hf.pacers.same_setup⟩

theorem IsBusy.before (hf : EnginesFollow h.engines h'.engines) (hb : h'.IsBusy c) :
    h.IsBusy c := by
  obtain ⟨e', he', hb⟩ := hb
  cases he : h.engines[c]? with
  | none =>
    rw [hf.new_free he he'] at hb
    cases hb
  | some e =>
    obtain ⟨e'', he'', hfollows⟩ := hf.kept he
    rw [he'] at he''
    cases he''
    exact ⟨e, he, hfollows.busy_eq.symm.trans hb⟩

/-- The pacers in `D` are there, and drive engines in `C`. -/
def Drives (h : Host) (C D : Nat → Prop) : Prop :=
  ∀ p, D p → ∃ q, h.pacers[p]? = some q ∧ C q.handle.engine

theorem Drives.after {C D : Nat → Prop} (hd : h.Drives C D) (hg : h.GoesOn h') :
    h'.Drives C D := by
  intro p hp
  obtain ⟨q, hq, hc⟩ := hd p hp
  obtain ⟨q', hq', hsame⟩ := hg.pacers hq
  exact ⟨q', hq', by rw [hsame.handle_eq]; exact hc⟩

/-- In the course of something that goes on from the host, the request is made at another: outside
of the steps that are made, or in the middle of one. -/
def AskedFrom (h : Host) (r : Request) (h' : Host) : Prop :=
  EnginesFollow h.engines h'.engines ∨
    ∃ c h₁, EnginesFollow h.engines h₁.engines ∧ HostM.StepAsks c h₁ r h'

theorem AskedFrom.before {r : Request} (hf : EnginesFollow h.engines h'.engines)
    (hasked : h'.AskedFrom r h'') : h.AskedFrom r h'' := by
  rcases hasked with hrest | ⟨c, h₁, hrest, hstep⟩
  · exact .inl (hf.trans hrest)
  · exact .inr ⟨c, h₁, hf.trans hrest, hstep⟩

end Host

namespace HostM

variable {α β : Type} {C D : Nat → Prop}

/-- The action is put together from parts without requests, from requests and from steps.  Its calls
are on engines in `C`, and on pacers in `D`. -/
class inductive Assembled (C D : Nat → Prop) :
    {α : Type} → ((Request → HostM Reply) → HostM α) → Prop
  /-- No request is made. -/
  | alone {α : Type} {x : HostM α} (hgoes : ∀ h, Host.GoesOn h (x h).2)
    (hbusy : ∀ h a, (x h).1 = .error (.busy a) → ∃ c, C c ∧ Host.IsBusy h c) :
    Assembled C D fun _ => x
  | ask (r : Request) : Assembled C D fun perform => noted (perform r)
  | step {c : Nat} (hc : C c) : Assembled C D fun perform => stepEngine perform c
  | bind {α β : Type} {x : (Request → HostM Reply) → HostM α}
    {f : α → (Request → HostM Reply) → HostM β} (hx : Assembled C D x)
    (hf : ∀ a, Assembled C D (f a)) : Assembled C D fun perform => x perform >>= (f · perform)
  /-- A look at a pacer. -/
  | pacer {α : Type} {p : Nat} {f : Pacer → (Request → HostM Reply) → HostM α} (hp : D p)
    (hf : ∀ q : Pacer, C q.handle.engine → Assembled C D (f q)) :
    Assembled C D fun perform => pacerAt p >>= (f · perform)

/-! ### What parts of an action ask for -/

section Asks

variable {perform : Request → HostM Reply} {r : Request} {h h' h₁ : Host}

theorem asks_noted : Asks (fun perform => noted (perform r)) perform h r h :=
  fun _ _ _ hr => congrArg Prod.fst (bind_of_error hr.refused _)

theorem Asks.congr {action action' : (Request → HostM Reply) → HostM α}
    (hasks : Asks action perform h r h') (heq : ∀ perform, action perform h = action' perform h) :
    Asks action' perform h r h' := by
  intro refusal perform' hnot hr
  rw [← heq perform']
  exact hasks refusal perform' hnot hr

theorem Asks.bind {x : (Request → HostM Reply) → HostM α} (hasks : Asks x perform h r h')
    (f : α → (Request → HostM Reply) → HostM β) :
    Asks (fun perform => x perform >>= (f · perform)) perform h r h' :=
  fun refusal perform' hnot hr =>
    congrArg Prod.fst (bind_of_error (Prod.ext (hasks refusal perform' hnot hr) rfl) _)

theorem Asks.after {x : HostM α} {a : α} (hx : x h = (.ok a, h₁))
    {f : α → (Request → HostM Reply) → HostM β} (hasks : Asks (f a) perform h₁ r h') :
    Asks (fun perform => x >>= (f · perform)) perform h r h' :=
  fun refusal perform' hnot hr =>
    (congrArg Prod.fst (bind_of_ok hx _)).trans (hasks refusal perform' hnot hr)

end Asks

namespace Assembled

variable {action : (Request → HostM Reply) → HostM α} {perform perform' : Request → HostM Reply}
  {r : Request} {h h' : Host} {refusal : Refusal}

theorem goesOn (hx : Assembled C D action) (perform : Request → HostM Reply)
    [hp : KeepsRequests perform] (hd : h.Drives C D) : h.GoesOn (action perform h).2 := by
  induction hx generalizing h with
  | alone hgoes => exact hgoes h
  | ask r => exact ((hp.keeps_noted r).follows h).goesOn
  | step => exact (Keeps.follows h).goesOn
  | @bind _ _ x f _ _ ihx ihf =>
    have hfirst := ihx hd
    dsimp only
    rw [bind_apply]
    rcases hx : x perform h with ⟨refusal | a, h₁⟩ <;> rw [hx] at hfirst
    · exact hfirst
    · exact hfirst.trans (ihf a (hd.after hfirst))
  | pacer hp _ ih =>
    obtain ⟨q, hq, hc⟩ := hd _ hp
    dsimp only
    rw [bind_of_ok (pacerAt_apply hq)]
    exact ih q hc hd

/-- **If one of the requests is refused**, the action goes on as before, or it has come to make this
request and is refused. -/
theorem refused (hx : Assembled C D action) [KeepsRequests perform]
    (hnot : ∀ reason, refusal ≠ .halting reason) (hr : Refusing perform r h' refusal perform')
    (hd : h.Drives C D) :
    action perform' h = action perform h ∨
      (action perform' h).1 = .error refusal ∧ h.AskedFrom r h' := by
  induction hx generalizing h with
  | alone => exact .inl rfl
  | ask r' =>
    by_cases hsame : r' = r ∧ h = h'
    · obtain ⟨rfl, rfl⟩ := hsame
      exact .inr ⟨congrArg Prod.fst (bind_of_error hr.refused _), .inl (.refl _)⟩
    · dsimp only
      rw [noted, noted, bind_apply, bind_apply, hr.others r' h hsame]
      exact .inl rfl
  | @step c _ =>
    by_cases hasks : StepAsks c h r h'
    · exact .inr ⟨asks_stepEngine hasks refusal perform' hnot hr, .inr ⟨c, h, .refl _, hasks⟩⟩
    · refine .inl (stepEngine_eq_of_stepAsks fun r' h₁ hasks' => hr.others r' h₁ ?_)
      rintro ⟨rfl, rfl⟩
      exact hasks hasks'
  | @bind _ _ x f hx _ ihx ihf =>
    rcases ihx hd with hsame | ⟨hrefused, hasked⟩
    · have hfirst := hx.goesOn perform hd
      dsimp only
      rw [bind_apply, bind_apply, hsame]
      rcases hx' : x perform h with ⟨refusal' | a, h₁⟩ <;> rw [hx'] at hfirst
      · exact .inl rfl
      · rcases ihf a (hd.after hfirst) with hrest | ⟨hrefused, hasked⟩
        · exact .inl hrest
        · exact .inr ⟨hrefused, hasked.before hfirst.engines⟩
    · exact .inr ⟨congrArg Prod.fst (bind_of_error (Prod.ext hrefused rfl) _), hasked⟩
  | pacer hp _ ih =>
    obtain ⟨q, hq, hc⟩ := hd _ hp
    dsimp only
    rw [bind_of_ok (pacerAt_apply hq), bind_of_ok (pacerAt_apply hq)]
    exact ih q hc hd

/-- **Where a request is made** in the middle of the action, the engines are as busy as they were,
but for one that is in the middle of a step. -/
theorem askedFrom (hx : Assembled C D action) [KeepsRequests perform] (hd : h.Drives C D)
    (hasks : Asks action perform h r h') : h.AskedFrom r h' := by
  have hdecide (refusal : Refusal) (hnot : ∀ reason, refusal ≠ .halting reason) :
      (action perform h).1 = .error refusal ∨ h.AskedFrom r h' := by
    obtain ⟨perform', hr⟩ := exists_refusing perform r h' refusal
    rcases hx.refused hnot hr hd with hsame | ⟨-, hasked⟩
    · exact .inl (hsame ▸ hasks refusal perform' hnot hr)
    · exact .inr hasked
  rcases hdecide .noEngine (by simp) with hone | hasked
  · rcases hdecide .noHandle (by simp) with htwo | hasked
    · rw [hone] at htwo
      cases htwo
    · exact hasked
  · exact hasked

theorem asks_bind {α β : Type} {x : (Request → HostM Reply) → HostM α}
    {f : α → (Request → HostM Reply) → HostM β} (hx : Assembled C D x) [KeepsRequests perform]
    (hd : h.Drives C D) {a : α} {h₁ : Host} (hfirst : x perform h = (.ok a, h₁))
    (hasks : Asks (f a) perform h₁ r h') :
    Asks (fun perform => x perform >>= (f · perform)) perform h r h' := by
  intro refusal perform' hnot hr
  rcases hx.refused hnot hr hd with hsame | ⟨hrefused, -⟩
  · exact (congrArg Prod.fst (bind_of_ok (hsame.trans hfirst) _)).trans
      (hasks refusal perform' hnot hr)
  · exact congrArg Prod.fst (bind_of_error (Prod.ext hrefused rfl) _)

/-- **The action goes the same way** if the requests do that it comes to make. -/
theorem eq_of_asks (hx : Assembled C D action) [KeepsRequests perform] (hd : h.Drives C D)
    (hsame : ∀ r h', Asks action perform h r h' → perform' r h' = perform r h') :
    action perform' h = action perform h := by
  induction hx generalizing h with
  | alone => rfl
  | ask r =>
    have hr : perform' r h = perform r h := hsame r h asks_noted
    dsimp only
    rw [noted, noted, bind_apply, bind_apply, hr]
  | step => exact stepEngine_eq_of_stepAsks fun r h' hasks => hsame r h' (asks_stepEngine hasks)
  | @bind _ _ x f hx _ ihx ihf =>
    have hfirst := ihx hd fun r h' hasks => hsame r h' (hasks.bind _)
    have hgoes := hx.goesOn perform hd
    dsimp only
    rw [bind_apply, bind_apply, hfirst]
    rcases hx' : x perform h with ⟨refusal | a, h₁⟩ <;> rw [hx'] at hgoes
    exact ihf a (hd.after hgoes) fun r h' hasks => hsame r h' (hx.asks_bind hd hx' hasks)
  | pacer hp _ ih =>
    obtain ⟨q, hq, hc⟩ := hd _ hp
    dsimp only
    rw [bind_of_ok (pacerAt_apply hq), bind_of_ok (pacerAt_apply hq)]
    exact ih q hc hd fun r h' hasks => hsame r h' (Asks.after (pacerAt_apply hq) hasks)

/-- **Where the action is refused because an engine is busy**, one of its own engines is busy, or it
has come to make a request that is refused for this. -/
theorem busy (hx : Assembled C D action) [KeepsRequests perform] (hd : h.Drives C D) {a : Activity}
    (hbusy : (action perform h).1 = .error (.busy a)) :
    (∃ c, C c ∧ h.IsBusy c) ∨
      ∃ r h', Asks action perform h r h' ∧ (perform r h').1 = .error (.busy a) := by
  induction hx generalizing h with
  | alone _ hbusy' => exact .inl (hbusy' h a hbusy)
  | ask r =>
    refine .inr ⟨r, h, asks_noted, ?_⟩
    dsimp only at hbusy
    rw [noted, bind_apply] at hbusy
    rcases hr : perform r h with ⟨refusal | answer, h₁⟩ <;> rw [hr] at hbusy
    · cases hbusy
      rfl
    · cases hbusy
  | @step c hc =>
    rcases stepEngine_busy hbusy with hb | ⟨r, h', hasks, hr⟩
    · exact .inl ⟨c, hc, hb⟩
    · exact .inr ⟨r, h', asks_stepEngine hasks, hr⟩
  | @bind _ _ x f hx _ ihx ihf =>
    have hfirst := hx.goesOn perform hd
    dsimp only at hbusy
    rw [bind_apply] at hbusy
    rcases hx' : x perform h with ⟨refusal | b, h₁⟩ <;> rw [hx'] at hbusy hfirst
    · cases hbusy
      rcases ihx hd (congrArg Prod.fst hx') with hb | ⟨r, h', hasks, hr⟩
      · exact .inl hb
      · exact .inr ⟨r, h', hasks.bind _, hr⟩
    · rcases ihf b (hd.after hfirst) hbusy with ⟨c, hc, hb⟩ | ⟨r, h', hasks, hr⟩
      · exact .inl ⟨c, hc, hb.before hfirst.engines⟩
      · exact .inr ⟨r, h', hx.asks_bind hd hx' hasks, hr⟩
  | pacer hp _ ih =>
    obtain ⟨q, hq, hc⟩ := hd _ hp
    dsimp only at hbusy
    rw [bind_of_ok (pacerAt_apply hq)] at hbusy
    rcases ih q hc hd hbusy with hb | ⟨r, h', hasks, hr⟩
    · exact .inl hb
    · exact .inr ⟨r, h', Asks.after (pacerAt_apply hq) hasks, hr⟩

end Assembled

end HostM

end Chip8
