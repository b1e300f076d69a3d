import Chip8.Proofs.Host.Reachable

/-!
# Sessions, their engines and handles

What a host sees of a script tells which reloads were carried out, those in the
middle of other requests among them.  In every host that a script leads to, a
session has counted its reloads, holds the engine of the last one and has
retired the others; and a handle on one of its engines is current exactly if it
is one of the engine that the session holds and this one has not been retired.

* `lineage_play`: a host is what the reloads of its script have led to.
* `sessions_of_play`: sessions and handles after a script, and reloads that fail.
-/

namespace Chip8

/-! ### The reloads of a script -/

/-- The engines that a request has reported as new ones of sessions, in the order of the reports;
its own answer is the last of them. -/
def Record.reloads (r : Record) : List Nat :=
  r.notes.filterMap Note.reloaded? ++ (r.outcome.toOption.bind Reply.reloaded?).toList

/-- The engines of the reloads of a session that were carried out, in their order. -/
def Host.reloadsOf (h : Host) (s : Nat) (records : List Record) : List Nat :=
  enginesOf h.engines s (records.flatMap Record.reloads)

namespace Host

variable {h : Host} {cs : List Nat}

theorem lineage_observe (hl : h.Lineage cs) (r : Request) :
    (h.observe r).2.Lineage (cs ++ (h.observe r).1.reloads) := by
  have hkeeps := (HostM.keepsRequests_performWithin HostM.nestingLimit).keeps_noted r
  have hbegin : Lineage { h with notes := #[], log := #[] }
      (cs ++ reloads { h with notes := #[], log := #[] }) := by
    rw [show reloads { h with notes := #[], log := #[] } = [] from rfl, List.append_nil]
    exact hl.of_kept (.refl _) rfl rfl
  have hend := (hkeeps.follows _).lineage cs hbegin
  rw [observe, HostM.perform]
  rw [HostM.noted, HostM.bind_apply] at hend
  rcases hr : HostM.performWithin HostM.nestingLimit r { h with notes := #[], log := #[] } with
    ⟨refusal | a, h'⟩ <;> rw [hr] at hend
  · rw [Record.reloads]
    show h'.Lineage (cs ++ (h'.reloads ++ []))
    rw [List.append_nil]
    exact hend
  · have hreloads : reloads { h' with notes := h'.notes.push (.reply a) } =
        h'.reloads ++ (Note.reply a).reloaded?.toList := by
      rw [reloads, Array.toList_push, List.filterMap_append, reloads]
      cases ha : (Note.reply a).reloaded? with
      | none => rw [List.filterMap_cons_none ha]; rfl
      | some c => rw [List.filterMap_cons_some ha]; rfl
    have hnoted : Lineage { h' with notes := h'.notes.push (.reply a) }
        (cs ++ (h'.reloads ++ (Note.reply a).reloaded?.toList)) := by
      rw [← hreloads]
      exact hend
    exact hnoted.of_kept (.refl _) rfl rfl

/-- **A host is what the reloads of its script have led to.** -/
theorem lineage_play (hl : h.Lineage cs) (requests : List Request) :
    (h.play requests).2.Lineage (cs ++ (h.play requests).1.flatMap Record.reloads) := by
  induction requests generalizing h cs with
  | nil =>
    rw [play, List.flatMap_nil, List.append_nil]
    exact hl
  | cons r rest ih =>
    have hrest := ih (lineage_observe hl r)
    rw [play, List.flatMap_cons, ← List.append_assoc]
    exact hrest

end Host

/-! ### Handles -/

namespace HostM

variable {h : Host} {x : Handle} {e : Engine} {s : Nat} {session : Session}

theorem isCurrent_of_owner (he : h.engines[x.engine]? = some e) (howner : e.owner = some s)
    (hs : h.sessions[s]? = some session) :
    isCurrent x h = (.ok (!e.retired && x.generation == (session.generation : Int)), h) := by
  rw [isCurrent, bind_of_ok (engine_apply he), howner]
  cases e.retired with
  | true => rfl
  | false => exact bind_of_ok (sessionAt_of_some hs) _

/-- **A handle on an engine of a session's lineage** is current exactly if the session holds this
engine and it has not been retired. -/
theorem isCurrent_of_lineage {cs : List Nat} (hl : session.Lineage h.engines cs)
    (hs : h.sessions[s]? = some session) (he : h.engines[x.engine]? = some e)
    (howner : e.owner = some s) (hmem : x.engine ∈ cs) (hx : x.generation = e.generation) :
    isCurrent x h = (.ok (decide (session.engine = some x.engine ∧ e.retired = false)), h) := by
  obtain ⟨i, hi⟩ := List.getElem?_of_mem hmem
  obtain ⟨e', he', hgeneration, -⟩ := hl.carried hi
  rw [he] at he'
  cases he'
  have hlt : i < cs.length := (List.getElem?_eq_some_iff.mp hi).1
  have hlast : x.generation = (session.generation : Int) ↔ session.engine = some x.engine := by
    rw [hx, hgeneration, hl.generation_eq, hl.engine_eq, List.getLast?_eq_getElem?]
    constructor
    · intro heq
      rw [← hi]
      exact congrArg _ (by omega)
    · intro heq
      obtain ⟨e', he', hgeneration', -⟩ := hl.carried heq
      rw [he] at he'
      cases he'
      omega
  have hdecide : (x.generation == (session.generation : Int)) =
      decide (session.engine = some x.engine) := by
    rw [Bool.eq_iff_iff, beq_iff_eq, decide_eq_true_iff, hlast]
  rw [isCurrent_of_owner he howner hs, hdecide]
  refine congrArg (fun b => (Except.ok b, h)) ?_
  cases e.retired <;> simp

/-! ### Reloads that fail -/

/-- **A reload that reports no engine has changed nothing**: neither engines nor sessions nor which
handles there are, and so not which of them are current. -/
theorem unchanged_of_not_reloaded {r : Request} (hr : r.isReload = true) (depth : Nat) (h : Host)
    (hnone : ∀ a, (performWithin depth r h).1 = .ok a → a.reloaded? = none) :
    h.SameHoldings (performWithin depth r h).2 := by
  cases depth with
  | zero => exact .refl h
  | succ depth =>
    rcases isReloadResult_respond (performWithin depth) hr h with
      ⟨-, hsame⟩ | ⟨s, a, ha, hengine, -⟩
    · exact hsame
    · rw [hnone a ha] at hengine
      cases hengine

end HostM

/-! ### Every script -/

/-- **Sessions and handles.**  After every script a session has counted the reloads that were
carried out, it holds the engine of the last one, the engines carry their numbers, and all but the
last are retired.  A handle that one of them has issued is current exactly if the session holds its
engine and this one has not been retired; a step through another handle is refused with nothing
changed.  And a reload that fails, wherever it is requested, leaves engines, sessions and handles,
and what is current, as they were. -/
theorem sessions_of_play {files : Files} {requests : List Request} {records : List Record}
    {h : Host} (hplay : (Host.ofFiles files).play requests = (records, h)) (depth : Nat) :
    (∀ (s : Nat) (session : Session), h.sessions[s]? = some session →
      session.generation = (h.reloadsOf s records).length ∧
      session.engine = (h.reloadsOf s records).getLast? ∧
      (∀ i c : Nat, (h.reloadsOf s records)[i]? = some c →
        ∃ e, h.engines[c]? = some e ∧ e.owner = some s ∧ e.generation = i + 1 ∧
          (i + 1 < (h.reloadsOf s records).length → e.retired = true)) ∧
      ∀ (n : Nat) (x : Handle) (e : Engine), h.handles[n]? = some x →
        h.engines[x.engine]? = some e → e.owner = some s →
        HostM.isCurrent x h =
          (.ok (decide (session.engine = some x.engine ∧ e.retired = false)), h) ∧
        (¬(session.engine = some x.engine ∧ e.retired = false) →
          HostM.stepHandle (HostM.performWithin depth) x h = (.error (.stale x.generation), h))) ∧
    ∀ (r : Request) (g : Host), r.isReload = true →
      (∀ a, (HostM.performWithin depth r g).1 = .ok a → a.reloaded? = none) →
      let g' := (HostM.performWithin depth r g).2
      g'.engines = g.engines ∧ g'.sessions = g.sessions ∧ g'.handles = g.handles ∧
        ∀ x, (HostM.isCurrent x g').1 = (HostM.isCurrent x g).1 := by
  have hlineage : h.Lineage (records.flatMap Record.reloads) := by
    have hl := Host.lineage_play (Host.Lineage.ofFiles files) requests
    rw [hplay] at hl
    exact hl
  refine ⟨fun s session hs => ?_, fun r g hr hnone => ?_⟩
  · have hl : session.Lineage h.engines (h.reloadsOf s records) := hlineage.sessions hs
    refine ⟨hl.generation_eq, hl.engine_eq, fun i c hc => ?_, fun n x e hn he howner => ?_⟩
    · obtain ⟨e, he, hcarried⟩ := hl.carried hc
      have howner := (mem_enginesOf.mp (List.mem_of_getElem? hc)).2
      rw [ownerIn_of_some he] at howner
      exact ⟨e, he, howner, hcarried⟩
    · have hmem : x.engine ∈ h.reloadsOf s records := by
        have ho : ownerIn h.engines x.engine = some s := (ownerIn_of_some he).trans howner
        exact mem_enginesOf.mpr ⟨hlineage.reported ho, ho⟩
      obtain ⟨e', he', hgeneration⟩ := hlineage.issued hn
      rw [he] at he'
      cases he'
      have hcurrent := HostM.isCurrent_of_lineage hl hs he howner hmem hgeneration
      refine ⟨hcurrent, fun hno => ?_⟩
      rw [decide_eq_false hno] at hcurrent
      exact HostM.stepHandle_of_not_current hcurrent
  · have hsame := HostM.unchanged_of_not_reloaded hr depth g hnone
    exact ⟨hsame.engines_eq, hsame.sessions_eq, hsame.handles_eq,
      fun x => HostM.isCurrent_of_eq hsame.engines_eq hsame.sessions_eq⟩

/-- A script that reloads twice and fails once in between. -/
def reloadingScript : List Request :=
  [.newSession [] [], .reload [0x12, 0x00] "JUMP", .startSession, .reload [] "EMPTY",
    .reload [0x12, 0x00] "JUMP", .startSession]

def reloadingHost : Host :=
  ((Host.ofFiles ⟨[], []⟩).play reloadingScript).2

def reloadingRecords : List Record :=
  ((Host.ofFiles ⟨[], []⟩).play reloadingScript).1

theorem play_reloadingScript :
    (Host.ofFiles ⟨[], []⟩).play reloadingScript = (reloadingRecords, reloadingHost) := by
  rw [reloadingRecords, reloadingHost, Prod.eta]

/-- The failed reload does not count, and the first handle is out of date after the second one. -/
theorem sessions_of_play_of_failed_reload :
    reloadingHost.reloadsOf 0 reloadingRecords = [0, 1] ∧
      (∃ session, reloadingHost.sessions[0]? = some session ∧ session.generation = 2 ∧
        session.engine = some 1) ∧
      HostM.isCurrent ⟨1, 2⟩ reloadingHost = (.ok true, reloadingHost) ∧
      HostM.stepHandle (HostM.performWithin 9) ⟨0, 1⟩ reloadingHost =
        (.error (.stale 1), reloadingHost) ∧
      (HostM.performWithin 9 (.reload [] "EMPTY") reloadingHost).2.engines =
        reloadingHost.engines := by
  obtain ⟨hsessions, hfailed⟩ := sessions_of_play play_reloadingScript 9
  have hreloads : reloadingHost.reloadsOf 0 reloadingRecords = [0, 1] := by decide +kernel
  have hs : reloadingHost.sessions[0]?.isSome = true := by decide +kernel
  obtain ⟨session, hs⟩ := Option.isSome_iff_exists.mp hs
  have he₀ : reloadingHost.engines[0]?.isSome = true := by decide +kernel
  have he₁ : reloadingHost.engines[1]?.isSome = true := by decide +kernel
  obtain ⟨e₀, he₀⟩ := Option.isSome_iff_exists.mp he₀
  obtain ⟨e₁, he₁⟩ := Option.isSome_iff_exists.mp he₁
  have howner₀ : (reloadingHost.engines[0]?.bind Engine.owner) = some 0 := by decide +kernel
  have howner₁ : (reloadingHost.engines[1]?.bind Engine.owner) = some 0 := by decide +kernel
  have hfree₁ : reloadingHost.engines[1]?.map Engine.retired = some false := by decide +kernel
  have hx₀ : reloadingHost.handles[0]? = some ⟨0, 1⟩ := by decide +kernel
  have hx₁ : reloadingHost.handles[1]? = some ⟨1, 2⟩ := by decide +kernel
  rw [he₀] at howner₀
  rw [he₁] at howner₁ hfree₁
  obtain ⟨hgeneration, hengine, -, hhandles⟩ := hsessions 0 session hs
  have hengine' : session.engine = some 1 := hengine.trans (congrArg List.getLast? hreloads)
  have hnot : ¬(session.engine = some 0 ∧ e₀.retired = false) := by
    rw [hengine']
    exact fun h => absurd h.1 (by decide)
  have hcurrent := (hhandles 1 ⟨1, 2⟩ e₁ hx₁ he₁ howner₁).1
  rw [decide_eq_true ⟨hengine', Option.some.inj hfree₁⟩] at hcurrent
  have hrefused : (HostM.performWithin 9 (.reload [] "EMPTY") reloadingHost).1.toOption.isNone =
      true := by decide +kernel
  have hnone : ∀ a, (HostM.performWithin 9 (.reload [] "EMPTY") reloadingHost).1 = .ok a →
      a.reloaded? = none := by
    intro a ha
    rw [ha] at hrefused
    cases hrefused
  have hsame := (hfailed (.reload [] "EMPTY") reloadingHost rfl hnone).1
  exact ⟨hreloads, ⟨session, hs, hgeneration.trans (congrArg List.length hreloads), hengine'⟩,
    hcurrent, (hhandles 0 ⟨0, 1⟩ e₀ hx₀ he₀ howner₀).2 hnot, hsame⟩

end Chip8
