import Chip8.Proofs.Pacer.CutShort

/-!
# Engines that have been replaced

An engine is replaced by a reload of its session, or it is retired.  Whatever is
done afterwards with pacers and handles, in any order and with refusals on the
way, its machine stays as it is and no pacer over it counts a step.  And where
the replacement happens inside an operation, in a frame callback or in a sleep of
a paced run, the rest of the operation leaves the engine alone too.

The host may at any time write to the current engine itself, also from a frame
callback; it is supposed not to do that to the engine that has been replaced.

* `spared_operate`, `spared_of_isGone`: both parts for the runs in which direct
  writes are refused.
* `replaced_engine_is_spared`: both parts together.
-/

namespace Chip8

inductive Operation
  | runSteps (pacer : Nat) (count : Int)
  | powerOn (pacer : Nat)
  | powerOff (pacer : Nat)
  | pause (pacer : Nat)
  | resume (pacer : Nat)
  | setRate (pacer : Nat) (rate : Float)
  | run (pacer : Nat) (maxBatch : Int) (sleeps : HostM.Sleeps)
  | runFor (pacer : Nat) (wall : WallClock) (seconds : Float) (maxBatch : Int)
      (sleeps : HostM.Sleeps)
  | stepHandle (handle : Handle)
  | tickHandle (handle : Handle)

def Operation.act (perform : Request → HostM Reply) : Operation → HostM Unit
  | runSteps p count => do
    let _ ← HostM.runSteps perform p count
  | powerOn p => HostM.powerOn p
  | powerOff p => HostM.powerOff perform p
  | pause p => HostM.pause perform p
  | resume p => HostM.resume perform p
  | setRate p rate => HostM.setRate p rate
  | run p maxBatch sleeps => do
    let _ ← HostM.run perform p maxBatch sleeps
  | runFor p wall seconds maxBatch sleeps => do
    let _ ← HostM.runFor perform p wall seconds maxBatch sleeps
  | stepHandle x => do
    let _ ← HostM.stepHandle perform x
  | tickHandle x => HostM.tickHandle x

namespace Host

/-- The host after an operation, whether or not it has been refused. -/
def after (perform : Request → HostM Reply) (h : Host) (op : Operation) : Host :=
  (op.act perform h.emptied).2

def operate (perform : Request → HostM Reply) (h : Host) : List Operation → Host
  | [] => h
  | op :: rest => operate perform (h.after perform op) rest

/-- The engine has been retired, or its session has gone on to another generation. -/
def Replaced (c : Nat) (h : Host) : Prop :=
  ∃ e : Engine, h.engines[c]? = some e ∧ (e.retired = true ∨
    ∃ (s : Nat) (session : Session), e.owner = some s ∧ h.sessions[s]? = some session ∧
      e.generation ≠ session.generation)

theorem Lineage.retired_of_replaced {h : Host} {cs : List Nat} (hl : h.Lineage cs) {c : Nat}
    (hc : h.Replaced c) : h.Retired c := by
  obtain ⟨e, he, hretired | ⟨s, session, howner, hs, hgeneration⟩⟩ := hc
  · exact ⟨e, he, hretired⟩
  · have ho : ownerIn h.engines c = some s := (ownerIn_of_some he).trans howner
    have hsession := hl.sessions hs
    obtain ⟨i, hi⟩ := List.getElem?_of_mem (mem_enginesOf.mpr ⟨hl.reported ho, ho⟩)
    obtain ⟨e', he', hcarried, hretired⟩ := hsession.carried hi
    rw [he] at he'
    cases he'
    have hlt : i < (enginesOf h.engines s cs).length := (List.getElem?_eq_some_iff.mp hi).1
    have hcount := hsession.generation_eq
    exact ⟨e, he, hretired (by omega)⟩

end Host

namespace HostM

variable {c : Nat}

instance keeps_act (perform : Request → HostM Reply) [KeepsRequests perform] (op : Operation) :
    Keeps (op.act perform) := by
  cases op <;> unfold Operation.act <;> infer_instance

instance spares_act (perform : Request → HostM Reply) [∀ r, Spares c (perform r)]
    (op : Operation) : Spares c (op.act perform) := by
  cases op <;> unfold Operation.act <;> infer_instance

instance cutShort_act (full sparing cut : Request → HostM Reply)
    [∀ r, CutShort c (full r) (sparing r) (cut r)] [∀ r, Spares c (sparing r)]
    [KeepsRequests full] [KeepsRequests sparing] [KeepsRequests cut] (op : Operation) :
    CutShort c (op.act full) (op.act sparing) (op.act cut) := by
  cases op with
  | powerOn | setRate | tickHandle => exact cutShort_refl _
  | _ =>
    unfold Operation.act
    infer_instance

end HostM

namespace Host

open HostM

variable {c : Nat} {h : Host}

/-! ### What an operation keeps -/

theorem follows_after (perform : Request → HostM Reply) [KeepsRequests perform] (h : Host)
    (op : Operation) : Follows h.emptied (h.after perform op) :=
  (keeps_act perform op).follows h.emptied

theorem Lineage.after {cs : List Nat} (hl : h.Lineage cs) (perform : Request → HostM Reply)
    [KeepsRequests perform] (op : Operation) :
    (h.after perform op).Lineage (cs ++ (h.after perform op).reloads) := by
  refine (follows_after perform h op).lineage cs ?_
  rw [show h.emptied.reloads = [] from rfl, List.append_nil]
  exact hl.of_kept (.refl _) rfl rfl

/-- Between operations every engine is free, so that one that has been retired is gone. -/
theorem Reachable.isGone_after (hreach : h.Reachable) {perform : Request → HostM Reply}
    [KeepsRequests perform] {op : Operation} (hr : (h.after perform op).Retired c) :
    (h.after perform op).isGone c = true := by
  obtain ⟨e, he, hretired⟩ := hr
  have hfollows : EnginesFollow #[] (h.after perform op).engines :=
    hreach.enginesFollow.trans (follows_after perform h op).engines
  have hfree : e.busy = false := hfollows.new_free rfl he
  rw [isGone, he, Option.any_some, hretired, hfree]
  rfl

theorem spared_after (perform : Request → HostM Reply) [∀ r, Spares c (perform r)]
    (hr : h.Retired c) (op : Operation) : h.Spared c (h.after perform op) := by
  have hempty : h.Spared c h.emptied := .of_eq rfl rfl
  exact hempty.trans (HostM.Spares.spares h.emptied (hempty.retired hr))

theorem results_after (c depth : Nat) (h : Host) (op : Operation) :
    Results c (op.act (performWithin depth) h.emptied) (op.act (performSparing c depth) h.emptied)
      (op.act (performUntil c depth) h.emptied) :=
  CutShort.results h.emptied

/-! ### Histories of operations -/

/-- **Everything that is done after the replacement** spares the engine. -/
theorem spared_operate (perform : Request → HostM Reply) [∀ r, Spares c (perform r)]
    (hr : h.Retired c) (ops : List Operation) : h.Spared c (h.operate perform ops) := by
  induction ops generalizing h with
  | nil => exact .refl c h
  | cons op rest ih =>
    have hop := spared_after perform hr op
    exact hop.trans (ih (hop.retired hr))

/-- **The rest of the operation in which the engine is replaced** spares it, and so does everything
after this operation. -/
theorem spared_of_isGone {depth : Nat} {op : Operation}
    (hgone : (h.after (performUntil c depth) op).isGone c = true) (later : List Operation) :
    (h.after (performUntil c depth) op).Spared c
      (h.operate (performSparing c depth) (op :: later)) := by
  have hrest : (h.after (performUntil c depth) op).Spared c
      (h.after (performSparing c depth) op) := by
    rcases (results_after c depth h op).untouched with heq | ⟨-, -, hspared⟩
    · rw [after, heq]
      exact .refl c _
    · exact hspared
  exact hrest.trans (spared_operate _ (hrest.retired (retired_of_isGone hgone)) later)

/-- None of the operations is refused because the engine has been retired. -/
def unrefused (c depth : Nat) (h : Host) : List Operation → Bool
  | [] => true
  | op :: rest =>
    match op.act (performSparing c depth) h.emptied with
    | (.error .retired, _) => false
    | (_, h') => unrefused c depth h' rest

/-- As long as no direct write is refused, nothing is different. -/
theorem operate_eq_of_unrefused {depth : Nat} {ops : List Operation}
    (hops : h.unrefused c depth ops = true) :
    h.operate (performWithin depth) ops = h.operate (performSparing c depth) ops := by
  induction ops generalizing h with
  | nil => rfl
  | cons op rest ih =>
    rw [unrefused] at hops
    rcases (results_after c depth h op).unrefused with heq | hretired
    · rw [operate, operate, after, after, ← heq]
      refine ih ?_
      split at hops
      · cases hops
      · next hh =>
        rw [hh]
        exact hops
    · have hrefused : op.act (performSparing c depth) h.emptied =
          (.error .retired, (op.act (performSparing c depth) h.emptied).2) := Prod.ext hretired rfl
      rw [hrefused] at hops
      cases hops

end Host

/-- **An engine that has been replaced is never touched again.**  Take a host after any script.  If
the session of an engine has been reloaded, or the engine has been retired, then after all
operations on pacers and handles its machine is the same, apart from the keypad, and no pacer over
one of its handles has counted a step.

The same holds from the replacement on if it happens in the middle of an operation, in a frame
callback or in a sleep: the host at which the operation is given up for it is compared with the one
that the whole of the operation and further operations lead to.

It is supposed that no request in the middle of the operations writes to the engine directly after
the replacement, so that it makes no difference to refuse that. -/
theorem replaced_engine_is_spared {files : Files} {requests : List Request}
    {records : List Record} {h : Host}
    (hplay : (Host.ofFiles files).play requests = (records, h)) (c depth : Nat) :
    (h.Replaced c → ∀ ops : List Operation,
      h.operate (HostM.performWithin depth) ops = h.operate (HostM.performSparing c depth) ops →
      h.Spared c (h.operate (HostM.performWithin depth) ops)) ∧
    ∀ (op : Operation) (later : List Operation),
      let replacement := h.after (HostM.performUntil c depth) op
      replacement.Replaced c →
      h.operate (HostM.performWithin depth) (op :: later) =
        h.operate (HostM.performSparing c depth) (op :: later) →
      replacement.Spared c (h.operate (HostM.performWithin depth) (op :: later)) := by
  have hlineage := Host.lineage_play (Host.Lineage.ofFiles files) requests
  have hreach := (Host.Reachable.start files).play requests
  rw [hplay] at hlineage hreach
  refine ⟨fun hreplaced ops hdiscreet => ?_, ?_⟩
  · rw [hdiscreet]
    exact Host.spared_operate _ (hlineage.retired_of_replaced hreplaced) ops
  · intro op later replacement hreplaced hdiscreet
    have hretired := (hlineage.after (HostM.performUntil c depth) op).retired_of_replaced hreplaced
    rw [hdiscreet]
    exact Host.spared_of_isGone (hreach.isGone_after hretired) later

/-- A script that leaves a pacer over an engine that has been replaced, and one that runs over the
engine in its place.  The first frame callback of the latter reloads the session again, when a tick
of the timers is due at the same count. -/
def replacingScript : List Request :=
  [.newSession [] [], .reload [0x12, 0x00] "JUMP", .startSession,
    .newPacer 0 240 60 (1 / 60) none (.steady 0 0), .powerOn, .runSteps 3,
    .reload [0x12, 0x00] "JUMP", .startSession,
    .newPacer 1 240 120 (1 / 60) (some ⟨[(1, [.reload [0x12, 0x00] "JUMP"])]⟩) (.steady 0 0),
    .powerOn]

def replacingHost : Host :=
  ((Host.ofFiles ⟨[], []⟩).play replacingScript).2

def replacingRecords : List Record :=
  ((Host.ofFiles ⟨[], []⟩).play replacingScript).1

theorem play_replacingScript :
    (Host.ofFiles ⟨[], []⟩).play replacingScript = (replacingRecords, replacingHost) := by
  rw [replacingRecords, replacingHost, Prod.eta]

/-- The host at the reload by the frame callback. -/
def replacementHost : Host :=
  replacingHost.after (HostM.performUntil 1 9) (.runSteps 1 9)

/-- The first engine is spared by its pacer and its handle.  The second one is spared by the rest of
the batch in which it is replaced, with a tick that is still due, and when its pacer is started
again. -/
theorem replaced_engine_is_spared_of_reloads :
    replacingHost.Spared 0 (replacingHost.operate (HostM.performWithin 9)
      [.runSteps 0 5, .tickHandle ⟨0, 1⟩, .stepHandle ⟨0, 1⟩]) ∧
    (replacementHost.engines[1]?.map fun e => (e.machine.completed, e.machine.timers.ticks)) =
      some (4, 1) ∧
    replacementHost.Spared 1 (replacingHost.operate (HostM.performWithin 9)
      [.runSteps 1 9, .powerOn 1, .runSteps 1 5]) := by
  have hfacts : replacingHost.engines[0]?.map Engine.retired = some true ∧
      replacingHost.unrefused 0 9 [.runSteps 0 5, .tickHandle ⟨0, 1⟩, .stepHandle ⟨0, 1⟩] = true ∧
      replacingHost.unrefused 1 9 [.runSteps 1 9, .powerOn 1, .runSteps 1 5] = true ∧
      replacementHost.engines[1]?.map Engine.retired = some true ∧
      (replacementHost.engines[1]?.map fun e =>
        (e.machine.completed, e.machine.timers.ticks)) = some (4, 1) := by decide +kernel
  obtain ⟨hretired₀, hfirst, hsecond, hretired₁, hcount⟩ := hfacts
  obtain ⟨e₀, he₀, hr₀⟩ := Option.map_eq_some_iff.mp hretired₀
  obtain ⟨e₁, he₁, hr₁⟩ := Option.map_eq_some_iff.mp hretired₁
  obtain ⟨hafter, -⟩ := replaced_engine_is_spared play_replacingScript 0 9
  obtain ⟨-, hinside⟩ := replaced_engine_is_spared play_replacingScript 1 9
  exact ⟨hafter ⟨e₀, he₀, .inl hr₀⟩ _ (Host.operate_eq_of_unrefused hfirst), hcount,
    hinside (.runSteps 1 9) [.powerOn 1, .runSteps 1 5] ⟨e₁, he₁, .inl hr₁⟩
      (Host.operate_eq_of_unrefused hsecond)⟩

end Chip8
