import Chip8.Proofs.Host.Reload

/-!
# Answers of requests

The answers in which a host looks for reloads are those of the requests to
reload.  An action is silent if its answer, where it gives one, reports no
reload, and every other request is silent.

* `silent_respond`: only a reload reports a reload.
* `keeps_noted_of_silent`: the note of such an answer is nothing to the sessions.
-/

namespace Chip8

namespace HostM

variable {α : Type}

/-- If the action answers at all, its answer reports no reload. -/
class Silent (x : HostM Reply) : Prop where
  reloaded?_eq : ∀ h a, (x h).1 = .ok a → a.reloaded? = none

theorem silent_pure {a : Reply} (ha : a.reloaded? = none) : Silent (pure a) where
  reloaded?_eq h a' h' := by
    cases h'
    exact ha

instance silent_throw (r : Refusal) : Silent (throw r) where
  reloaded?_eq _ _ h := by cases h

instance silent_bind {x : HostM α} {f : α → HostM Reply} [hf : ∀ a, Silent (f a)] :
    Silent (x >>= f) where
  reloaded?_eq h a ha := by
    rw [bind_apply] at ha
    rcases hx : x h with ⟨r | b, h'⟩ <;> rw [hx] at ha
    · cases ha
    · exact (hf b).reloaded?_eq h' a ha

instance silent_ite {p : Prop} [Decidable p] {x y : HostM Reply} [hx : Silent x] [hy : Silent y] :
    Silent (if p then x else y) := by
  split
  · exact hx
  · exact hy

theorem silent_then {x : HostM α} {f : α → HostM Reply} (hf : ∀ a, Silent (f a)) :
    Silent (x >>= f) :=
  inferInstance

theorem keeps_noted_of_silent {x : HostM Reply} [Keeps x] [hs : Silent x] : Keeps (noted x) where
  follows h := follows_bind (Keeps.follows h) fun a _ hx =>
    .pushNote (hs.reloaded?_eq h a (congrArg Prod.fst hx))

/-! ### Requests -/

variable (perform : Request → HostM Reply)

instance silent_pacedReply (p slept : Nat) (last : Float) : Silent (pacedReply p slept last) :=
  silent_then fun _ => silent_pure rfl

instance silent_runRounds (p : Nat) (maxBatch : Int) (sleeps : Sleeps) (slept : Nat) (last : Float)
    (n : Nat) : Silent (runRounds perform p maxBatch sleeps slept last n) := by
  induction n generalizing slept last with
  | zero => exact silent_throw _
  | succ n ih =>
    unfold runRounds
    infer_instance

instance silent_runForRounds (p : Nat) (wall : WallClock) (deadline : Float) (maxBatch : Int)
    (sleeps : Sleeps) (reads slept : Nat) (last : Float) (n : Nat) :
    Silent (runForRounds perform p wall deadline maxBatch sleeps reads slept last n) := by
  induction n generalizing reads slept last with
  | zero => exact silent_throw _
  | succ n ih =>
    unfold runForRounds
    refine silent_then fun q => ?_
    split
    · infer_instance
    · refine silent_then fun now => ?_
      split
      · infer_instance
      · refine silent_then fun due => ?_
        split
        · infer_instance
        · exact silent_then fun _ => inferInstance

/-- **Only a reload reports a reload.** -/
theorem silent_respond {r : Request} (hr : r.isReload = false) : Silent (respond perform r) := by
  cases r with
  | reload | reloadFile | reloadOrReport => cases hr
  | runFor wall seconds maxBatch sleeps limit =>
    exact silent_then fun _ => silent_then fun _ => inferInstance
  | run maxBatch sleeps limit => exact silent_then fun _ => silent_then fun _ => inferInstance
  | _ =>
    -- Every other request ends with the answer itself, or with a refusal.
    dsimp only [respond, handleReply, setRegisters, peek, poke, programByte, rates]
    repeat' first
      | exact silent_pure rfl
      | exact silent_throw _
      | refine silent_then fun _ => ?_
      | split

end HostM

end Chip8
