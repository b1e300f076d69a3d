import Chip8.Proofs.Machine.Halting
import Chip8.Proofs.Machine.Report

/-!
# Calls and returns

The calls and returns that a program has made are brackets: a return closes the
latest call that is still open.  `openCalls` reads off a history which calls no
later return has closed.  `Nested` says how a history looks in which every return
has closed a call: the open calls stand in it with balanced parts between them.

* `openCalls_of_nested`: the open calls of a nested history.
* `returnsTo_iff`: the call that a return would close is the last one open.
* `Records.step`: the stack goes on recording the open calls with every step.
* `Records.step_call_of_full`, `Records.step_ret_of_none`: the calls and returns
  that halt the program.
-/

namespace Chip8

open PatternDigit (any)

/-- An instruction that has been carried out and that changes the call stack. -/
inductive Mark
  /-- A call, with the counter that it was at. -/
  | call (counter : Int)
  | ret
  deriving DecidableEq

namespace Mark

/-! ### Brackets -/

/-- As brackets, the calls and returns match each other. -/
inductive Balanced : List Mark → Prop
  | nil : Balanced []
  | nest (a : Int) {l r : List Mark} (hl : Balanced l) (hr : Balanced r) :
    Balanced (.call a :: l ++ .ret :: r)

/-- What follows a call closes it: a return comes, and before it nothing but calls and returns that
match each other. -/
def Closes (t : List Mark) : Prop :=
  ∃ b r, t = b ++ .ret :: r ∧ Balanced b

/-- Whether more returns than calls come at some point, by more than `depth`. -/
def outruns : Nat → List Mark → Bool
  | _, [] => false
  | depth, .call _ :: t => outruns (depth + 1) t
  | 0, .ret :: _ => true
  | depth + 1, .ret :: t => outruns depth t

/-- Balanced parts with one return between each two of them. -/
inductive Falls : Nat → List Mark → Prop
  | level {b : List Mark} (hb : Balanced b) : Falls 0 b
  | fall {depth : Nat} {b t : List Mark} (hb : Balanced b) (ht : Falls depth t) :
    Falls (depth + 1) (b ++ .ret :: t)

theorem outruns_append_of_balanced {b : List Mark} (hb : Balanced b) (depth : Nat)
    (t : List Mark) : outruns depth (b ++ t) = outruns depth t := by
  induction hb generalizing depth t with
  | nil => rfl
  | nest a hl hr ihl ihr =>
    rw [List.append_assoc, List.cons_append, outruns, ihl, List.cons_append, outruns, ihr]

theorem Balanced.append {b b' : List Mark} (hb : Balanced b) (hb' : Balanced b') :
    Balanced (b ++ b') := by
  induction hb with
  | nil => exact hb'
  | nest a hl _ _ ihr =>
    rw [List.append_assoc]
    exact .nest a hl ihr

theorem Falls.call {depth : Nat} {t : List Mark} (a : Int) (h : Falls (depth + 1) t) :
    Falls depth (.call a :: t) := by
  cases h with
  | fall hb ht =>
    cases ht with
    | level hb' => exact .level (.nest a hb hb')
    | fall hb' ht' =>
      rw [← List.cons_append, ← List.cons_append, ← List.append_assoc]
      exact .fall (.nest a hb hb') ht'

theorem outruns_iff {depth : Nat} {t : List Mark} :
    outruns depth t = true ↔ ∃ b r, t = b ++ .ret :: r ∧ Falls depth b := by
  constructor
  · intro h
    induction t generalizing depth with
    | nil => cases h
    | cons mark t ih =>
      cases mark with
      | call a =>
        have h : outruns (depth + 1) t = true := h
        obtain ⟨b, r, rfl, hb⟩ := ih h
        exact ⟨.call a :: b, r, rfl, hb.call a⟩
      | ret =>
        cases depth with
        | zero => exact ⟨[], t, rfl, .level .nil⟩
        | succ depth =>
          have h : outruns depth t = true := h
          obtain ⟨b, r, rfl, hb⟩ := ih h
          exact ⟨.ret :: b, r, rfl, .fall .nil hb⟩
  · rintro ⟨b, r, rfl, hb⟩
    induction hb with
    | level hb => rw [outruns_append_of_balanced hb, outruns]
    | fall hb _ ih => rw [List.append_assoc, outruns_append_of_balanced hb, List.cons_append,
        outruns, ih]

theorem closes_iff {t : List Mark} : Closes t ↔ outruns 0 t = true := by
  rw [outruns_iff]
  constructor
  · rintro ⟨b, r, ht, hb⟩
    exact ⟨b, r, ht, .level hb⟩
  · rintro ⟨b, r, ht, ⟨hb⟩⟩
    exact ⟨b, r, ht, hb⟩

instance (t : List Mark) : Decidable (Closes t) :=
  decidable_of_iff' _ closes_iff

/-- The counters of the calls that no later return has closed, the earliest first. -/
def openCalls : List Mark → List Int
  | [] => []
  | .call a :: t => if Closes t then openCalls t else a :: openCalls t
  | .ret :: t => openCalls t

example : openCalls [.call 0x200, .call 0x300, .ret, .call 0x202] = [0x200, 0x202] := by decide

/-! ### Nested histories -/

/-- Every return has closed a call, and the calls with these counters are open. -/
inductive Nested : List Mark → List Int → Prop
  | closed {b : List Mark} (hb : Balanced b) : Nested b []
  | opened {b t : List Mark} {as : List Int} (hb : Balanced b) (a : Int) (ht : Nested t as) :
    Nested (b ++ .call a :: t) (a :: as)

variable {t b : List Mark} {as : List Int} {a : Int}

theorem outruns_of_nested (h : Nested t as) (depth : Nat) : outruns depth t = false := by
  induction h generalizing depth with
  | closed hb =>
    have hnil := outruns_append_of_balanced hb depth []
    rw [List.append_nil] at hnil
    exact hnil
  | opened hb a _ ih => rw [outruns_append_of_balanced hb, outruns, ih]

theorem openCalls_append_of_balanced (hb : Balanced b) (t : List Mark) :
    openCalls (b ++ t) = openCalls t := by
  induction hb generalizing t with
  | nil => rfl
  | @nest a l r hl hr ihl ihr =>
    have hcloses : Closes (l ++ .ret :: (r ++ t)) := ⟨l, r ++ t, rfl, hl⟩
    rw [List.append_assoc, List.cons_append, openCalls, List.cons_append, if_pos hcloses, ihl,
      openCalls, ihr]

/-- **The open calls of a nested history** are those that `openCalls` finds. -/
theorem openCalls_of_nested (h : Nested t as) : openCalls t = as := by
  induction h with
  | closed hb =>
    have hnil := openCalls_append_of_balanced hb []
    rw [List.append_nil] at hnil
    exact hnil
  | @opened b t as hb a ht ih =>
    have hopen : ¬Closes t := fun hc => by
      rw [closes_iff, outruns_of_nested ht] at hc
      cases hc
    rw [openCalls_append_of_balanced hb, openCalls, if_neg hopen, ih]

theorem Nested.append (h : Nested t as) (hb : Balanced b) : Nested (t ++ b) as := by
  induction h with
  | closed hb' => exact .closed (hb'.append hb)
  | opened hb' a _ ih =>
    rw [List.append_assoc, List.cons_append]
    exact .opened hb' a ih

theorem Nested.call (h : Nested t as) (a : Int) : Nested (t ++ [.call a]) (as ++ [a]) := by
  induction h with
  | closed hb => exact .opened hb a (.closed .nil)
  | opened hb a' _ ih =>
    rw [List.append_assoc, List.cons_append]
    exact .opened hb a' ih

/-- The latest open call, and that what follows it is balanced. -/
theorem Nested.split (h : Nested t (as ++ [a])) :
    ∃ u b, t = u ++ .call a :: b ∧ Balanced b ∧ Nested u as := by
  generalize has : as ++ [a] = as' at h
  induction h generalizing as with
  | closed hb => cases List.append_ne_nil_of_right_ne_nil as (List.cons_ne_nil a []) has
  | @opened b' t' as'' hb a' ht ih =>
    cases as with
    | nil =>
      cases has
      cases ht with
      | closed ht => exact ⟨b', t', rfl, ht, .closed hb⟩
    | cons a'' as =>
      obtain ⟨rfl, htail⟩ := List.cons.inj has
      obtain ⟨u, b, rfl, hbalanced, hu⟩ := ih htail
      exact ⟨b' ++ .call a'' :: u, b, by rw [List.append_assoc, List.cons_append], hbalanced,
        .opened hb a'' hu⟩

/-- A return closes the latest open call. -/
theorem Nested.ret (h : Nested t (as ++ [a])) : Nested (t ++ [.ret]) as := by
  obtain ⟨u, b, rfl, hb, hu⟩ := h.split
  rw [List.append_assoc, List.cons_append]
  exact hu.append (.nest a hb .nil)

/-- A return at the end of the history closes the call at this counter. -/
def ReturnsTo (t : List Mark) (a : Int) : Prop :=
  ∃ u b, t = u ++ .call a :: b ∧ Balanced b

theorem openCalls_of_returnsTo (h : ReturnsTo t a) : ∃ as, openCalls t = as ++ [a] := by
  obtain ⟨u, b, rfl, hb⟩ := h
  induction u with
  | nil =>
    have hopen : ¬Closes b := fun hc => by
      rw [closes_iff, outruns_of_nested (.closed hb)] at hc
      cases hc
    refine ⟨[], ?_⟩
    rw [List.nil_append, openCalls, if_neg hopen, openCalls_of_nested (.closed hb)]
    rfl
  | cons mark u ih =>
    obtain ⟨as, has⟩ := ih
    cases mark with
    | ret => exact ⟨as, has⟩
    | call a' =>
      rw [List.cons_append, openCalls]
      split
      · exact ⟨as, has⟩
      · exact ⟨a' :: as, congrArg (a' :: ·) has⟩

/-- **The call that a return would close** is the last one open. -/
theorem returnsTo_iff (h : Nested t (openCalls t)) :
    ReturnsTo t a ↔ ∃ as, openCalls t = as ++ [a] := by
  refine ⟨openCalls_of_returnsTo, ?_⟩
  rintro ⟨as, has⟩
  rw [has] at h
  obtain ⟨u, b, ht, hb, -⟩ := h.split
  exact ⟨u, b, ht, hb⟩

end Mark

/-! ### Steps and the stack -/

/-- What an instruction at a counter adds to the history of calls and returns. -/
def Instruction.marks (counter : Int) : Instruction → List Mark
  | .call _ => [.call counter]
  | .ret => [.ret]
  | _ => []

namespace Machine

open Mark

/-- The call or return at the counter, if there is one. -/
def marks (m : Machine) : List Mark :=
  if Pattern.Matches ⟨2, any, any, any⟩ m.word then [.call m.counter]
  else if Pattern.Matches ⟨0, 0, 0xE, 0xE⟩ m.word then [.ret]
  else []

variable {m m' : Machine} {i : Instruction} {t : List Mark}

theorem decode_call (h : Pattern.Matches ⟨2, any, any, any⟩ m.word) :
    Instruction.decode ⟨m.word⟩ = some (.call (m.word % 0x1000)) :=
  (Instruction.decode_eq_some_iff m.word_lt).mpr ⟨h, rfl⟩

theorem decode_ret (h : Pattern.Matches ⟨0, 0, 0xE, 0xE⟩ m.word) :
    Instruction.decode ⟨m.word⟩ = some .ret :=
  (Instruction.decode_eq_some_iff m.word_lt).mpr h

theorem marks_of_decode (hw : Instruction.decode ⟨m.word⟩ = some i) :
    m.marks = i.marks m.counter := by
  rw [marks]
  split
  · next hcall =>
    rw [decode_call hcall] at hw
    cases hw
    rfl
  · next hcall =>
    split
    · next hret =>
      rw [decode_ret hret] at hw
      cases hw
      rfl
    · next hret =>
      have hreads := Instruction.reads_of_decode m.word_lt hw
      cases i with
      | call a => exact absurd hreads.1 hcall
      | ret => exact absurd hreads hret
      | _ => rfl

/-- How an instruction that has been carried out leaves the stack. -/
def StackAfter (m m' : Machine) : Instruction → Prop
  | .call _ => m.stack.push m.counter = (m'.stack, .ok ())
  | .ret => ∃ a, m.stack.pop = (m'.stack, .ok a) ∧ m'.counter = a
  | _ => m'.stack = m.stack

theorem stackAfter_execute (h : m.execute i = .completed m') : m.StackAfter m' i := by
  cases i with
  | call a =>
    rw [execute] at h
    split at h
    · cases h
    · next s hpush =>
      cases h
      exact hpush
  | ret =>
    rw [execute] at h
    split at h
    · cases h
    · next s a hpop =>
      cases h
      exact ⟨a, hpop, rfl⟩
  | _ => exact (carries_execute h).stack_eq (by rintro _ ⟨⟩) (by rintro ⟨⟩)

/-- **How a step that continues leaves the stack.** -/
theorem stackAfter_step {byte : UInt8} (hs : (m.step byte).status = .ok .continue) :
    m.OnProgram ∧ ∃ i, Instruction.decode ⟨m.word⟩ = some i ∧
      m.passed.StackAfter (m.step byte).machine i := by
  have hending := m.ending_step byte
  generalize m.step byte = result at hs hending ⊢
  rcases m.advance_cases with ⟨m₁, r, hr⟩ | ⟨hc, i, hw, hi⟩
  · cases hending with
    | completed hh ha | drawing hh ha =>
      rw [hr] at ha
      cases ha
    | stopped | waiting | halted | refused => cases hs
  · refine ⟨hc, i, hw, ?_⟩
    cases hending with
    | completed hh ha =>
      have hafter := stackAfter_execute (hi.symm.trans ha)
      exact hafter
    | drawing hh ha =>
      rw [eq_random_of_execute (hi.symm.trans ha)]
      rfl
    | stopped | waiting | halted | refused => cases hs

theorem stack_step_of_ne_continue {byte : UInt8} (hs : (m.step byte).status ≠ .ok .continue) :
    (m.step byte).machine.stack = m.stack := by
  cases hstatus : (m.step byte).status with
  | error value =>
    have hending := m.ending_step byte
    generalize m.step byte = result at hstatus hending ⊢
    cases hending with
    | refused => rfl
    | stopped | completed | waiting | halted | drawing => cases hstatus
  | ok status =>
    cases status with
    | «continue» => exact absurd hstatus hs
    | awaitingKey => rw [step_of_status_awaitingKey hstatus]
    | halted r => rw [step_of_status_halted hstatus]

/-! ### What the stack records -/

/-- Every return in the history has closed a call, and the entries of the stack, the earliest
first, are the addresses of the instructions after the calls that are still open. -/
structure Records (m : Machine) (t : List Mark) : Prop where
  depth_eq : m.stack.depth = 16
  pointer_le : m.stack.pointer ≤ 16
  nested : Nested t (openCalls t)
  toList_eq : m.stack.toList.map Nat.cast = (openCalls t).map (· + 2)

theorem records_fresh (dialect : Dialect) : (fresh dialect).Records [] :=
  ⟨rfl, Nat.zero_le _, .closed .nil, rfl⟩

theorem Records.of_eq (h : m.Records t) (hs : m'.stack = m.stack) : m'.Records t where
  depth_eq := hs ▸ h.depth_eq
  pointer_le := hs ▸ h.pointer_le
  nested := h.nested
  toList_eq := hs ▸ h.toList_eq

theorem Records.length_eq (h : m.Records t) : m.stack.pointer = (openCalls t).length := by
  have hlength := congrArg List.length h.toList_eq
  rw [List.length_map, List.length_map] at hlength
  rw [← hlength, CallStack.toList, List.length_reverse, CallStack.pointer]

theorem Records.push (h : m.Records t) (hc : m.OnProgram)
    (hs : m.passed.stack.push m.passed.counter = (m'.stack, .ok ())) :
    m'.Records (t ++ [.call m.counter]) := by
  have hnested := h.nested.call m.counter
  have hopen := openCalls_of_nested hnested
  rw [← hopen] at hnested
  obtain ⟨hfirst, hlast⟩ := hc
  have haddress : ((m.passed.counter % 0x10000).toNat : Int) = m.counter + 2 := by
    rw [counter_passed, Int.toNat_of_nonneg (by omega)]
    omega
  have hpush : m.stack.push m.passed.counter = (m'.stack, .ok ()) := hs
  rw [CallStack.push, h.depth_eq] at hpush
  split at hpush
  · cases (Prod.mk.inj hpush).2
  · next hroom =>
    have hstack := (Prod.mk.inj hpush).1
    have hpointer : m'.stack.pointer = m.stack.pointer + 1 := by
      rw [← hstack]
      rfl
    refine ⟨by rw [← hstack], by omega, hnested, ?_⟩
    rw [hopen, List.map_append, ← h.toList_eq, ← hstack, CallStack.toList, List.reverse_cons,
      List.map_append]
    exact congrArg (fun a => m.stack.toList.map Nat.cast ++ [a]) haddress

theorem Records.pop (h : m.Records t) {a : Nat} {s : CallStack} (hs : m.stack.pop = (s, .ok a))
    (hstack : m'.stack = s) :
    ∃ as call, openCalls t = as ++ [call] ∧ (a : Int) = call + 2 ∧ m'.Records (t ++ [.ret]) := by
  rw [CallStack.pop] at hs
  split at hs
  · cases hs
  · next b entries hentries =>
    cases hs
    have hlist := h.toList_eq
    rw [CallStack.toList, hentries, List.reverse_cons, List.map_append] at hlist
    rcases List.eq_nil_or_concat (openCalls t) with hnil | ⟨as, call, hopen⟩
    · rw [hnil] at hlist
      cases List.append_ne_nil_of_right_ne_nil _ (List.cons_ne_nil _ _) hlist
    · rw [List.concat_eq_append] at hopen
      rw [hopen, List.map_append] at hlist
      obtain ⟨hrest, hlast⟩ := List.append_inj' hlist rfl
      have hnested := h.nested
      rw [hopen] at hnested
      have hopen' := openCalls_of_nested hnested.ret
      have hpointer : m'.stack.pointer ≤ m.stack.pointer := by
        rw [hstack, CallStack.pointer, CallStack.pointer, hentries]
        exact Nat.le_succ _
      refine ⟨as, call, hopen, List.cons.inj hlast |>.1, ?_,
        Nat.le_trans hpointer h.pointer_le, ?_, ?_⟩
      · rw [hstack]
        exact h.depth_eq
      · rw [hopen']
        exact hnested.ret
      · rw [hopen', hstack]
        exact hrest

/-- **A step adds its call or return to what the stack records**, if it continues. -/
theorem Records.step (h : m.Records t) {byte : UInt8} (hs : (m.step byte).status = .ok .continue) :
    (m.step byte).machine.Records (t ++ m.marks) := by
  obtain ⟨hc, i, hw, hafter⟩ := stackAfter_step hs
  rw [marks_of_decode hw]
  cases i with
  | call a => exact h.push hc hafter
  | ret =>
    obtain ⟨a, hpop, -⟩ := hafter
    obtain ⟨-, -, -, -, hrecords⟩ := h.pop hpop rfl
    exact hrecords
  | _ =>
    show (m.step byte).machine.Records (t ++ [])
    rw [List.append_nil]
    exact h.of_eq hafter

variable (byte : UInt8)

theorem Records.step_call (h : m.Records t) (hh : m.halted = none) (hc : m.OnProgram)
    (hw : Pattern.Matches ⟨2, any, any, any⟩ m.word) (hroom : (openCalls t).length < 16) :
    (m.step byte).status = .ok .continue := by
  have hadvance := advance_of_decode hc (decode_call hw)
  have hpointer : ¬(m.passed.stack.depth : Int) ≤ m.passed.stack.pointer := by
    have hdepth : m.passed.stack.depth = 16 := h.depth_eq
    have hlength : m.passed.stack.pointer = (openCalls t).length := h.length_eq
    omega
  rw [execute, CallStack.push, if_neg hpointer] at hadvance
  rw [step_of_completed hh hadvance]

/-- **A call for which the stack has no room** halts the program and leaves the stack as it was. -/
theorem Records.step_call_of_full (h : m.Records t) (hh : m.halted = none) (hc : m.OnProgram)
    (hw : Pattern.Matches ⟨2, any, any, any⟩ m.word) (hfull : (openCalls t).length = 16) :
    m.step byte = ⟨{ m with halted := some (.stackOverflow 17) },
      .ok (.halted (.stackOverflow 17)), false⟩ := by
  have hadvance := advance_of_decode hc (decode_call hw)
  have hdepth : m.passed.stack.depth = 16 := h.depth_eq
  have hlength : m.passed.stack.pointer = 16 := h.length_eq.trans hfull
  rw [execute, CallStack.push, hdepth, hlength] at hadvance
  exact step_of_halted hh hadvance byte

/-- **A return that closes no call** halts the program and leaves the stack as it was. -/
theorem Records.step_ret_of_none (h : m.Records t) (hh : m.halted = none) (hc : m.OnProgram)
    (hw : Pattern.Matches ⟨0, 0, 0xE, 0xE⟩ m.word) (hno : ∀ a, ¬ReturnsTo t a) :
    m.step byte = ⟨{ m with halted := some .stackUnderflow },
      .ok (.halted .stackUnderflow), false⟩ := by
  have hadvance := advance_of_decode hc (decode_ret hw)
  have hentries : m.passed.stack.entries = [] := by
    have hlength : m.passed.stack.entries.length = (openCalls t).length := h.length_eq
    rcases List.eq_nil_or_concat (openCalls t) with hnil | ⟨as, a, hopen⟩
    · rw [hnil] at hlength
      exact List.eq_nil_of_length_eq_zero hlength
    · rw [List.concat_eq_append] at hopen
      exact absurd ((returnsTo_iff h.nested).mpr ⟨as, hopen⟩) (hno a)
  rw [execute, CallStack.pop, hentries] at hadvance
  exact step_of_halted hh hadvance byte

/-- **A return goes to the instruction after the call that it closes.** -/
theorem Records.step_ret (h : m.Records t) (hh : m.halted = none) (hc : m.OnProgram)
    (hw : Pattern.Matches ⟨0, 0, 0xE, 0xE⟩ m.word) {a : Int} (hto : ReturnsTo t a) :
    (m.step byte).status = .ok .continue ∧ (m.step byte).machine.counter = a + 2 := by
  obtain ⟨as, hopen⟩ := openCalls_of_returnsTo hto
  have hadvance := advance_of_decode hc (decode_ret hw)
  rw [execute] at hadvance
  rcases hpop : m.passed.stack.pop with ⟨s, r | b⟩
  · have hentries : m.stack.entries = [] := by
      rw [CallStack.pop] at hpop
      split at hpop
      · next hentries => exact hentries
      · cases hpop
    have hlength := h.length_eq
    rw [CallStack.pointer, hentries, hopen, List.length_append] at hlength
    cases hlength
  · rw [hpop] at hadvance
    have hstack : ({ m with stack := s } : Machine).stack = s := rfl
    obtain ⟨as', a', hopen', hb, -⟩ := h.pop hpop hstack
    rw [hopen] at hopen'
    obtain ⟨-, hlast⟩ := List.append_inj' hopen' rfl
    rw [step_of_completed hh hadvance, List.cons.inj hlast |>.1]
    exact ⟨rfl, hb⟩

end Machine

end Chip8
