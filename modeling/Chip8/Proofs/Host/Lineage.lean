import Chip8.Proofs.Host.Evaluation

/-!
# Sessions and the engines that they have had

A reload that is not refused answers with the number of the engine that it has
made.  So the notes of a host tell which engines the sessions have had, and
`Host.Lineage` says that the host is what these reloads have led to: the engines
of a session carry the generations from one on, the last of them is the engine of
the session, and those before it are retired.

* `Lineage.of_kept`: what keeps the origin of every engine keeps the lineage.
* `Lineage.reload`: a reload adds an engine to the lineage.
-/

namespace Chip8

/-! ### Reloads -/

/-- The engine that an answer reports as the new one of a session. -/
def Reply.reloaded? : Reply → Option Nat
  | .reloaded engine _ => engine
  | .reloadedFile engine _ _ => some engine
  | _ => none

def Note.reloaded? : Note → Option Nat
  | .frame _ _ => none
  | .reply r => r.reloaded?

/-- The engines that the notes report as new ones of sessions. -/
def Host.reloads (h : Host) : List Nat :=
  h.notes.toList.filterMap Note.reloaded?

/-! ### Where engines come from -/

/-- Session and generation of an engine do not change, and it stays retired. -/
structure Engine.SameOrigin (e e' : Engine) : Prop where
  owner_eq : e'.owner = e.owner
  generation_eq : e'.generation = e.generation
  retired : e.retired = true → e'.retired = true

theorem Engine.SameOrigin.refl (e : Engine) : e.SameOrigin e :=
  ⟨rfl, rfl, id⟩

theorem Engine.SameOrigin.trans {e e' e'' : Engine} (h : e.SameOrigin e')
    (h' : e'.SameOrigin e'') : e.SameOrigin e'' where
  owner_eq := h'.owner_eq.trans h.owner_eq
  generation_eq := h'.generation_eq.trans h.generation_eq
  retired hr := h'.retired (h.retired hr)

/-- Every engine is still there with its origin, and the new ones belong to no session. -/
structure OriginsKept (es es' : Array Engine) : Prop where
  kept : ∀ {c : Nat} {e : Engine}, es[c]? = some e →
    ∃ e' : Engine, es'[c]? = some e' ∧ e.SameOrigin e'
  new_unowned : ∀ {c : Nat} {e' : Engine}, es[c]? = none → es'[c]? = some e' → e'.owner = none

/-- The session that an engine belongs to. -/
def ownerIn (es : Array Engine) (c : Nat) : Option Nat :=
  es[c]?.bind Engine.owner

/-- Those of the engines that belong to a session. -/
def enginesOf (es : Array Engine) (s : Nat) (cs : List Nat) : List Nat :=
  cs.filter fun c => ownerIn es c == some s

theorem ownerIn_of_some {es : Array Engine} {c : Nat} {e : Engine} (he : es[c]? = some e) :
    ownerIn es c = e.owner := by
  rw [ownerIn, he]
  rfl

theorem mem_enginesOf {es : Array Engine} {s c : Nat} {cs : List Nat} :
    c ∈ enginesOf es s cs ↔ c ∈ cs ∧ ownerIn es c = some s := by
  rw [enginesOf, List.mem_filter, beq_iff_eq]

namespace OriginsKept

variable {es es' : Array Engine}

theorem refl (es : Array Engine) : OriginsKept es es where
  kept he := ⟨_, he, .refl _⟩
  new_unowned hn he := by
    rw [hn] at he
    cases he

theorem ownerIn_eq (h : OriginsKept es es') : ownerIn es' = ownerIn es := by
  funext c
  cases he : es[c]? with
  | some e =>
    obtain ⟨e', he', horigin⟩ := h.kept he
    rw [ownerIn_of_some he, ownerIn_of_some he', horigin.owner_eq]
  | none =>
    rw [ownerIn, ownerIn, he]
    cases he' : es'[c]? with
    | none => rfl
    | some e' => exact h.new_unowned he he'

theorem enginesOf_eq (h : OriginsKept es es') : enginesOf es' = enginesOf es := by
  funext s cs
  rw [enginesOf, enginesOf, h.ownerIn_eq]

theorem put {c : Nat} {e e' : Engine} (he : es[c]? = some e) (horigin : e.SameOrigin e') :
    OriginsKept es (es.setIfInBounds c e') where
  kept {c₁ e₁} he₁ := by
    by_cases hc : c = c₁
    · subst hc
      rw [he] at he₁
      cases he₁
      obtain ⟨hlt, -⟩ := Array.getElem?_eq_some_iff.mp he
      exact ⟨e', Array.getElem?_setIfInBounds_self_of_lt hlt, horigin⟩
    · exact ⟨e₁, by rw [Array.getElem?_setIfInBounds_ne hc, he₁], .refl _⟩
  new_unowned {c₁ e₁} hn he₁ := by
    by_cases hc : c = c₁
    · subst hc
      rw [hn] at he
      cases he
    · rw [Array.getElem?_setIfInBounds_ne hc, hn] at he₁
      cases he₁

theorem push {e : Engine} (hunowned : e.owner = none) : OriginsKept es (es.push e) where
  kept {c e'} he' := by
    have hc : c < es.size := (Array.getElem?_eq_some_iff.mp he').1
    rw [Array.getElem?_push, if_neg (Nat.ne_of_lt hc)]
    exact ⟨e', he', .refl _⟩
  new_unowned {c e'} hn he' := by
    rw [Array.getElem?_push, hn] at he'
    split at he'
    · cases he'
      exact hunowned
    · cases he'

end OriginsKept

/-! ### Lineages -/

/-- The engines that a session has had: they carry the generations from one on, the last one is
the session's engine, and those before it are retired. -/
structure Session.Lineage (session : Session) (es : Array Engine) (cs : List Nat) : Prop where
  generation_eq : session.generation = cs.length
  engine_eq : session.engine = cs.getLast?
  carried : ∀ {i c : Nat}, cs[i]? = some c → ∃ e : Engine, es[c]? = some e ∧
    e.generation = i + 1 ∧ (i + 1 < cs.length → e.retired = true)

/-- The engines reported are those that belong to sessions, every session has had its own of them,
and every handle carries the generation of its engine. -/
structure Host.Lineage (h : Host) (cs : List Nat) : Prop where
  reported : ∀ {c s : Nat}, ownerIn h.engines c = some s → c ∈ cs
  owned : ∀ {c : Nat}, c ∈ cs → ∃ s : Nat, ownerIn h.engines c = some s ∧ s < h.sessions.size
  sessions : ∀ {s : Nat} {session : Session}, h.sessions[s]? = some session →
    session.Lineage h.engines (enginesOf h.engines s cs)
  issued : ∀ {n : Nat} {x : Handle}, h.handles[n]? = some x →
    ∃ e : Engine, h.engines[x.engine]? = some e ∧ x.generation = e.generation

theorem Session.Lineage.of_kept {session : Session} {es es' : Array Engine} {cs : List Nat}
    (h : session.Lineage es cs) (hkept : OriginsKept es es') : session.Lineage es' cs where
  generation_eq := h.generation_eq
  engine_eq := h.engine_eq
  carried hc := by
    obtain ⟨e, he, hgeneration, hretired⟩ := h.carried hc
    obtain ⟨e', he', horigin⟩ := hkept.kept he
    exact ⟨e', he', horigin.generation_eq.trans hgeneration,
      fun hi => horigin.retired (hretired hi)⟩

namespace Host.Lineage

variable {h h' : Host} {cs : List Nat} {s : Nat} {session : Session}

theorem ofFiles (files : Files) : (Host.ofFiles files).Lineage [] where
  reported ho := by cases ho
  owned hc := absurd hc List.not_mem_nil
  sessions hs := by cases hs
  issued hx := by cases hx

/-- Only engines, sessions and handles count, and of the engines only where they come from. -/
theorem of_kept (hl : h.Lineage cs) (hkept : OriginsKept h.engines h'.engines)
    (hs : h'.sessions = h.sessions) (hx : h'.handles = h.handles) : h'.Lineage cs where
  reported ho := by
    rw [hkept.ownerIn_eq] at ho
    exact hl.reported ho
  owned hc := by
    rw [hkept.ownerIn_eq, hs]
    exact hl.owned hc
  sessions hsession := by
    rw [hs] at hsession
    rw [hkept.enginesOf_eq]
    exact (hl.sessions hsession).of_kept hkept
  issued hhandle := by
    rw [hx] at hhandle
    obtain ⟨e, he, hgeneration⟩ := hl.issued hhandle
    obtain ⟨e', he', horigin⟩ := hkept.kept he
    exact ⟨e', he', hgeneration.trans horigin.generation_eq.symm⟩

theorem addHandle (hl : h.Lineage cs) {c : Nat} {e : Engine} (he : h.engines[c]? = some e) :
    Lineage { h with handles := h.handles.push ⟨c, e.generation⟩ } cs :=
  { hl with
    issued := fun {n x} hx => by
      rw [Array.getElem?_push] at hx
      split at hx
      · cases hx
        exact ⟨e, he, rfl⟩
      · exact hl.issued hx }

theorem addSession (hl : h.Lineage cs) (hgeneration : session.generation = 0)
    (hengine : session.engine = none) :
    Lineage { h with sessions := h.sessions.push session } cs where
  reported := hl.reported
  owned hc := by
    obtain ⟨s, ho, hlt⟩ := hl.owned hc
    refine ⟨s, ho, ?_⟩
    rw [Array.size_push]
    omega
  sessions {s session'} hs := by
    rw [Array.getElem?_push] at hs
    split at hs
    · next hsize =>
      cases hs
      -- No engine belongs to a session that is not there yet.
      have hnone : enginesOf h.engines s cs = [] := by
        refine List.eq_nil_iff_forall_not_mem.mpr fun c hc => ?_
        obtain ⟨hmem, howner⟩ := mem_enginesOf.mp hc
        obtain ⟨s', howner', hlt⟩ := hl.owned hmem
        rw [howner] at howner'
        cases howner'
        omega
      rw [hnone]
      exact ⟨hgeneration, hengine, fun hi => by cases hi⟩
    · exact hl.sessions hs
  issued := hl.issued

end Host.Lineage

/-! ### A reload -/

/-- The engines without the one that a session holds: it is retired. -/
def retirePrevious (es : Array Engine) (previous : Option Nat) : Array Engine :=
  previous.elim es fun c => es.modify c fun e => { e with retired := true }

theorem originsKept_retire (es : Array Engine) (c : Nat) :
    OriginsKept es (es.modify c fun e => { e with retired := true }) := by
  cases he : es[c]? with
  | none =>
    rw [modify_of_eq_none he]
    exact .refl es
  | some e =>
    rw [modify_eq_setIfInBounds he]
    exact .put he ⟨rfl, rfl, fun _ => rfl⟩

theorem originsKept_retirePrevious (es : Array Engine) (previous : Option Nat) :
    OriginsKept es (retirePrevious es previous) := by
  cases previous with
  | none => exact .refl es
  | some c => exact originsKept_retire es c

theorem size_retirePrevious (es : Array Engine) (previous : Option Nat) :
    (retirePrevious es previous).size = es.size := by
  cases previous with
  | none => rfl
  | some c => rw [retirePrevious, Option.elim_some, Array.size_modify]

theorem retired_of_retirePrevious {es : Array Engine} {c : Nat} {e : Engine}
    (he : (retirePrevious es (some c))[c]? = some e) : e.retired = true := by
  rw [retirePrevious, Option.elim_some, Array.getElem?_modify, if_pos rfl] at he
  obtain ⟨e₀, -, rfl⟩ := Option.map_eq_some_iff.mp he
  rfl

/-- The host with a new engine in the place of the one that a session holds. -/
def Host.replaceEngine (h : Host) (s : Nat) (session : Session) (e : Engine) : Host :=
  { h with
    engines := (retirePrevious h.engines session.engine).push e
    sessions := h.sessions.setIfInBounds s
      { session with generation := session.generation + 1, engine := some h.engines.size } }

theorem ownerIn_push_of_lt {es : Array Engine} {c : Nat} (e : Engine) (hc : c < es.size) :
    ownerIn (es.push e) c = ownerIn es c := by
  rw [ownerIn, ownerIn, Array.getElem?_push, if_neg (Nat.ne_of_lt hc)]

theorem ownerIn_push_size (es : Array Engine) (e : Engine) :
    ownerIn (es.push e) es.size = e.owner := by
  rw [ownerIn, Array.getElem?_push, if_pos rfl]
  rfl

theorem lt_size_of_ownerIn {es : Array Engine} {c s : Nat} (ho : ownerIn es c = some s) :
    c < es.size := by
  obtain ⟨e, he, -⟩ := Option.bind_eq_some_iff.mp ho
  exact (Array.getElem?_eq_some_iff.mp he).1

theorem enginesOf_push {es : Array Engine} {e : Engine} {s : Nat} (howner : e.owner = some s)
    {cs : List Nat} (hcs : ∀ c ∈ cs, c < es.size) (s' : Nat) :
    enginesOf (es.push e) s' (cs ++ [es.size]) =
      enginesOf es s' cs ++ if s' = s then [es.size] else [] := by
  have hold : cs.filter (fun c => ownerIn (es.push e) c == some s') =
      cs.filter fun c => ownerIn es c == some s' :=
    List.filter_congr fun c hc => by rw [ownerIn_push_of_lt e (hcs c hc)]
  rw [enginesOf, enginesOf, List.filter_append, hold, List.filter_cons, List.filter_nil,
    ownerIn_push_size, howner]
  refine congrArg (enginesOf es s' cs ++ ·) ?_
  by_cases hs : s' = s
  · rw [if_pos hs, if_pos (by rw [hs, beq_self_eq_true])]
  · rw [if_neg hs, if_neg fun h => hs (Option.some.inj (beq_iff_eq.mp h)).symm]

/-- A new engine at the end of a session's lineage: the one before it must have been retired. -/
theorem Session.Lineage.snoc {session : Session} {es : Array Engine} {cs : List Nat} {e : Engine}
    (hl : session.Lineage es cs) (hlt : ∀ c ∈ cs, c < es.size)
    (hgeneration : e.generation = session.generation + 1)
    (hprevious : ∀ c e', session.engine = some c → es[c]? = some e' → e'.retired = true) :
    Lineage { session with generation := session.generation + 1, engine := some es.size }
      (es.push e) (cs ++ [es.size]) where
  generation_eq := by
    show session.generation + 1 = _
    rw [hl.generation_eq, List.length_append]
    rfl
  engine_eq := List.getLast?_concat.symm
  carried {i c} hi := by
    rw [List.length_append, List.length_singleton]
    by_cases hold : i < cs.length
    · rw [List.getElem?_append_left hold] at hi
      obtain ⟨e', he', hgen, hretired⟩ := hl.carried hi
      have hc : c < es.size := hlt c (List.mem_of_getElem? hi)
      refine ⟨e', by rw [Array.getElem?_push, if_neg (Nat.ne_of_lt hc), he'], hgen, fun _ => ?_⟩
      by_cases hlast : i + 1 < cs.length
      · exact hretired hlast
      · refine hprevious c e' ?_ he'
        rw [hl.engine_eq, List.getLast?_eq_getElem?, ← hi]
        exact congrArg _ (by omega)
    · have hlength : i < cs.length + 1 := by
        have := (List.getElem?_eq_some_iff.mp hi).1
        rwa [List.length_append, List.length_singleton] at this
      have hlast : i = cs.length := by omega
      subst hlast
      rw [List.getElem?_concat_length] at hi
      cases hi
      refine ⟨e, by rw [Array.getElem?_push, if_pos rfl], ?_, fun hi => by omega⟩
      rw [hgeneration, hl.generation_eq]

/-- **A reload adds an engine to the lineage.** -/
theorem Host.Lineage.reload {h : Host} {cs : List Nat} {s : Nat} {session : Session} {e : Engine}
    (hl : h.Lineage cs) (hsession : h.sessions[s]? = some session) (howner : e.owner = some s)
    (hgeneration : e.generation = session.generation + 1) :
    (h.replaceEngine s session e).Lineage (cs ++ [h.engines.size]) := by
  obtain ⟨hs, -⟩ := Array.getElem?_eq_some_iff.mp hsession
  -- To retire the engine before is a change that keeps every origin.
  have hl' : Lineage { h with engines := retirePrevious h.engines session.engine } cs :=
    hl.of_kept (originsKept_retirePrevious _ _) rfl rfl
  have hsize := size_retirePrevious h.engines session.engine
  have hlt : ∀ c ∈ cs, c < (retirePrevious h.engines session.engine).size := fun c hc => by
    obtain ⟨s', ho, -⟩ := hl'.owned hc
    exact lt_size_of_ownerIn ho
  rw [← hsize]
  rw [replaceEngine, ← hsize]
  refine ⟨fun {c s'} ho => ?_, fun {c} hc => ?_, fun {s' session'} hs' => ?_, fun {n x} hx => ?_⟩
  · by_cases hc : c < (retirePrevious h.engines session.engine).size
    · rw [ownerIn_push_of_lt e hc] at ho
      exact List.mem_append_left _ (hl'.reported ho)
    · have hlt' := lt_size_of_ownerIn ho
      rw [Array.size_push] at hlt'
      exact List.mem_append_right _ (List.mem_singleton.mpr (by omega))
  · show ∃ s', _ ∧ s' < (h.sessions.setIfInBounds s _).size
    rw [Array.size_setIfInBounds]
    rcases List.mem_append.mp hc with hc | hc
    · rw [ownerIn_push_of_lt e (hlt c hc)]
      exact hl'.owned hc
    · rw [List.mem_singleton.mp hc, ownerIn_push_size]
      exact ⟨s, howner, hs⟩
  · rw [enginesOf_push howner hlt]
    by_cases hsame : s' = s
    · subst hsame
      rw [Array.getElem?_setIfInBounds_self_of_lt hs] at hs'
      cases hs'
      rw [if_pos rfl]
      refine (hl'.sessions hsession).snoc (fun c hc => hlt c (mem_enginesOf.mp hc).1) hgeneration ?_
      intro c e' hengine he'
      rw [hengine] at he'
      exact retired_of_retirePrevious he'
    · rw [Array.getElem?_setIfInBounds_ne (Ne.symm hsame)] at hs'
      rw [if_neg hsame, List.append_nil]
      obtain hold := hl'.sessions hs'
      refine ⟨hold.generation_eq, hold.engine_eq, fun {i c} hi => ?_⟩
      obtain ⟨e', he', hcarried⟩ := hold.carried hi
      have hc : c < (retirePrevious h.engines session.engine).size :=
        hlt c (mem_enginesOf.mp (List.mem_of_getElem? hi)).1
      exact ⟨e', by rw [Array.getElem?_push, if_neg (Nat.ne_of_lt hc), he'], hcarried⟩
  · obtain ⟨e', he', hcarried⟩ := hl'.issued hx
    have hc : x.engine < (retirePrevious h.engines session.engine).size :=
      (Array.getElem?_eq_some_iff.mp he').1
    exact ⟨e', by rw [Array.getElem?_push, if_neg (Nat.ne_of_lt hc), he'], hcarried⟩

end Chip8
