import Chip8.Dialect
import Chip8.Proofs.Text.Normal
import Chip8.Refusal
import Mathlib.Data.List.Basic

/-!
# Names of variants form a set

A list of names is read one by one, and each name either is blank, denotes a variant or is
unknown.  The first unknown one ends the reading.  Without an unknown name the dialect has
the variants that are denoted, so their order, their number and the form in which they are
written do not matter.  No name, full or short, denotes two variants, and a full name is
its own canonical form.

* `ofName?_eq_some_iff`: looking a name up.
* `addNames_append`: one list after the other.
* `ofNames_eq_ok_iff`, `ofNames_eq_error_iff`: what a list of names comes to.
* `names_form_a_set`: the laws of sets.
-/

namespace Chip8

namespace Variant

/-- The name, in canonical form, is the full or the short name of the variant. -/
def Denotes (raw : String) (v : Variant) : Prop :=
  canonicalName raw = v.name ∨ canonicalName raw = v.shortName

/-- There is nothing but white space in the name. -/
def IsBlank (raw : String) : Prop :=
  ∀ c ∈ raw.toList, Text.isBlank c = true

/-- Something is left of the name in canonical form, and no variant has it. -/
def IsUnknown (raw : String) : Prop :=
  canonicalName raw ≠ "" ∧ ∀ v, ¬Denotes raw v

variable {raw : String} {v w : Variant}

theorem mem_all (v : Variant) : v ∈ all := by
  cases v <;> decide

theorem ofName?_name (v : Variant) : ofName? v.name = some v := by
  cases v <;> decide

theorem ofName?_shortName (v : Variant) : ofName? v.shortName = some v := by
  cases v <;> decide

theorem ofName?_eq_some_iff {name : String} :
    ofName? name = some v ↔ name = v.name ∨ name = v.shortName := by
  constructor
  · intro h
    have hname := List.find?_some h
    simp only [Bool.or_eq_true, beq_iff_eq] at hname
    exact hname.imp Eq.symm Eq.symm
  · rintro (rfl | rfl)
    · exact ofName?_name v
    · exact ofName?_shortName v

theorem ofName?_canonicalName_eq_some_iff : ofName? (canonicalName raw) = some v ↔ Denotes raw v :=
  ofName?_eq_some_iff

theorem Denotes.unique (hv : Denotes raw v) (hw : Denotes raw w) : v = w := by
  rw [← ofName?_canonicalName_eq_some_iff] at hv hw
  exact Option.some.inj (hv.symm.trans hw)

theorem canonicalName_eq_empty_iff : canonicalName raw = "" ↔ IsBlank raw := by
  rw [canonicalName, ← String.toList_inj]
  simp [Text.lower_eq_nil_iff, Text.trim_eq_nil_iff, IsBlank]

theorem Denotes.canonicalName_ne_empty (h : Denotes raw v) : canonicalName raw ≠ "" := by
  rcases h with h | h <;> rw [h] <;> cases v <;> decide

theorem Denotes.not_isBlank (h : Denotes raw v) : ¬IsBlank raw := by
  rw [← canonicalName_eq_empty_iff]
  exact h.canonicalName_ne_empty

theorem isBlank_or_denotes_or_isUnknown (raw : String) :
    IsBlank raw ∨ (∃ v, Denotes raw v) ∨ IsUnknown raw := by
  by_cases hblank : canonicalName raw = ""
  · exact .inl (canonicalName_eq_empty_iff.mp hblank)
  · by_cases hdenotes : ∃ v, Denotes raw v
    · exact .inr (.inl hdenotes)
    · exact .inr (.inr ⟨hblank, not_exists.mp hdenotes⟩)

theorem canonicalName_name (v : Variant) : canonicalName v.name = v.name := by
  cases v <;> decide

end Variant

namespace Dialect

open Variant

variable {d e : Dialect} {names more : List String} {raw other : String} {v w : Variant}

/-- One of the names denotes the variant. -/
def Chosen (names : List String) (v : Variant) : Prop :=
  ∃ raw ∈ names, Denotes raw v

/-- None of the names is unknown. -/
def AllKnown (names : List String) : Prop :=
  ∀ raw ∈ names, ¬IsUnknown raw

/-- The name is unknown, and none of those in front of it is. -/
def FirstUnknown (names : List String) (raw : String) : Prop :=
  ∃ before after, names = before ++ raw :: after ∧ IsUnknown raw ∧ AllKnown before

theorem chosen_cons : Chosen (raw :: names) v ↔ Denotes raw v ∨ Chosen names v := by
  simp only [Chosen, List.exists_mem_cons_iff]

theorem chosen_append : Chosen (names ++ more) v ↔ Chosen names v ∨ Chosen more v := by
  simp only [Chosen, List.mem_append, or_and_right, exists_or]

theorem allKnown_append : AllKnown (names ++ more) ↔ AllKnown names ∧ AllKnown more :=
  List.forall_mem_append

theorem ext_has (h : ∀ v, d.has v = e.has v) : d = e := by
  obtain ⟨_, _, _, _⟩ := d
  obtain ⟨_, _, _, _⟩ := e
  rw [mk.injEq]
  exact ⟨h .shiftUsesVy, h .loadStoreIncrementsIndex, h .jumpUsesVx, h .logicResetsVf⟩

/-! ### One name after the other -/

theorem addNames_cons_of_isBlank (h : IsBlank raw) (d : Dialect) (names : List String) :
    d.addNames (raw :: names) = d.addNames names := by
  rw [addNames, canonicalName_eq_empty_iff.mpr h]
  rfl

theorem addNames_cons_of_denotes (h : Denotes raw v) (d : Dialect) (names : List String) :
    d.addNames (raw :: names) = (d.enable v).addNames names := by
  have hne : (canonicalName raw).isEmpty = false := by
    simpa using h.canonicalName_ne_empty
  rw [addNames, hne, ofName?_canonicalName_eq_some_iff.mpr h]
  rfl

theorem addNames_cons_of_isUnknown (h : IsUnknown raw) (d : Dialect) (names : List String) :
    d.addNames (raw :: names) = .error raw := by
  have hne : (canonicalName raw).isEmpty = false := by
    simpa using h.1
  have hnone : ofName? (canonicalName raw) = none := by
    cases hv : ofName? (canonicalName raw) with
    | none => rfl
    | some v => exact absurd (ofName?_canonicalName_eq_some_iff.mp hv) (h.2 v)
  rw [addNames, hne, hnone]
  rfl

/-- **Two lists of names are read one after the other.** -/
theorem addNames_append (d : Dialect) (names more : List String) :
    d.addNames (names ++ more) = (d.addNames names).bind fun e => e.addNames more := by
  induction names generalizing d with
  | nil => rfl
  | cons raw rest ih =>
    rw [List.cons_append]
    rcases isBlank_or_denotes_or_isUnknown raw with hblank | ⟨v, hdenotes⟩ | hunknown
    · rw [addNames_cons_of_isBlank hblank, addNames_cons_of_isBlank hblank, ih]
    · rw [addNames_cons_of_denotes hdenotes, addNames_cons_of_denotes hdenotes, ih]
    · rw [addNames_cons_of_isUnknown hunknown, addNames_cons_of_isUnknown hunknown]
      rfl

theorem addNames_of_allKnown (h : AllKnown names) (d : Dialect) :
    ∃ e, d.addNames names = .ok e ∧ ∀ v, e.has v = true ↔ d.has v = true ∨ Chosen names v := by
  induction names generalizing d with
  | nil => exact ⟨d, rfl, fun v => by simp [Chosen]⟩
  | cons raw rest ih =>
    obtain ⟨hraw, hrest⟩ := List.forall_mem_cons.mp h
    rcases isBlank_or_denotes_or_isUnknown raw with hblank | ⟨w, hdenotes⟩ | hunknown
    · obtain ⟨e, he, hhas⟩ := ih hrest d
      refine ⟨e, (addNames_cons_of_isBlank hblank d rest).trans he, fun v => ?_⟩
      have hnot : ¬Denotes raw v := fun h => h.not_isBlank hblank
      rw [hhas, chosen_cons, or_iff_right hnot]
    · obtain ⟨e, he, hhas⟩ := ih hrest (d.enable w)
      refine ⟨e, (addNames_cons_of_denotes hdenotes d rest).trans he, fun v => ?_⟩
      have hv : Denotes raw v ↔ w = v := ⟨hdenotes.unique, fun hwv => hwv ▸ hdenotes⟩
      rw [hhas, has_enable, chosen_cons, hv, Bool.or_eq_true, decide_eq_true_eq, or_assoc]
    · exact absurd hunknown hraw

theorem exists_firstUnknown (h : ¬AllKnown names) : ∃ raw, FirstUnknown names raw := by
  classical
  cases hfind : names.find? fun raw => decide (IsUnknown raw) with
  | none => exact absurd (fun raw hraw => by simpa using List.find?_eq_none.mp hfind raw hraw) h
  | some raw =>
    obtain ⟨hraw, before, after, hnames, hbefore⟩ := List.find?_eq_some_iff_append.mp hfind
    exact ⟨raw, before, after, hnames, of_decide_eq_true hraw, fun s hs => by
      simpa using hbefore s hs⟩

/-! ### What a list of names comes to -/

theorem ofNames_append (names more : List String) :
    ofNames (names ++ more) = (ofNames names).bind fun d => d.addNames more :=
  addNames_append plain names more

theorem ofNames_of_allKnown (h : AllKnown names) :
    ∃ d, ofNames names = .ok d ∧ ∀ v, d.has v = true ↔ Chosen names v := by
  obtain ⟨d, hd, hhas⟩ := addNames_of_allKnown h plain
  refine ⟨d, hd, fun v => (hhas v).trans (or_iff_right ?_)⟩
  cases v <;> simp [has, plain]

theorem ofNames_of_firstUnknown (h : FirstUnknown names raw) : ofNames names = .error raw := by
  obtain ⟨before, after, rfl, hraw, hbefore⟩ := h
  obtain ⟨d, hd, -⟩ := ofNames_of_allKnown hbefore
  rw [ofNames_append, hd, Except.bind, addNames_cons_of_isUnknown hraw]

/-- **A list of names is a dialect** if all are known; it has the variants that are denoted. -/
theorem ofNames_eq_ok_iff :
    ofNames names = .ok d ↔ AllKnown names ∧ ∀ v, d.has v = true ↔ Chosen names v := by
  constructor
  · intro h
    have hknown : AllKnown names := by
      by_contra hunknown
      obtain ⟨raw, hraw⟩ := exists_firstUnknown hunknown
      rw [ofNames_of_firstUnknown hraw] at h
      cases h
    obtain ⟨e, he, hhas⟩ := ofNames_of_allKnown hknown
    obtain rfl : d = e := Except.ok.inj (h.symm.trans he)
    exact ⟨hknown, hhas⟩
  · rintro ⟨hknown, hhas⟩
    obtain ⟨e, he, hehas⟩ := ofNames_of_allKnown hknown
    rw [he, ext_has fun v => Bool.eq_iff_iff.mpr ((hehas v).trans (hhas v).symm)]

/-- **A list of names is refused** for its first unknown one. -/
theorem ofNames_eq_error_iff : ofNames names = .error raw ↔ FirstUnknown names raw := by
  constructor
  · intro h
    have hunknown : ¬AllKnown names := by
      intro hknown
      obtain ⟨d, hd, -⟩ := ofNames_of_allKnown hknown
      rw [hd] at h
      cases h
    obtain ⟨other, hother⟩ := exists_firstUnknown hunknown
    rw [ofNames_of_firstUnknown hother] at h
    cases h
    exact hother
  · exact ofNames_of_firstUnknown

/-! ### The laws of sets -/

/-- Lists of known names are told apart by what they denote only. -/
theorem ofNames_eq_of_chosen (hnames : AllKnown names) (hmore : AllKnown more)
    (h : ∀ v, Chosen names v ↔ Chosen more v) : ofNames names = ofNames more := by
  obtain ⟨d, hd, hhas⟩ := ofNames_of_allKnown hnames
  have hmore : ofNames more = .ok d :=
    ofNames_eq_ok_iff.mpr ⟨hmore, fun v => (hhas v).trans (h v)⟩
  rw [hd, hmore]

/-- The order and the number of the names do not matter.  If some of them are unknown, the error may
be another one of these. -/
theorem toOption_ofNames_eq_of_mem_iff (h : ∀ raw, raw ∈ names ↔ raw ∈ more) :
    (ofNames names).toOption = (ofNames more).toOption := by
  by_cases hnames : AllKnown names
  · have hmore : AllKnown more := fun raw hraw => hnames raw ((h raw).mpr hraw)
    rw [ofNames_eq_of_chosen hnames hmore]
    intro v
    simp only [Chosen, h]
  · have hmore : ¬AllKnown more := fun hmore => hnames fun raw hraw => hmore raw ((h raw).mp hraw)
    obtain ⟨raw, hraw⟩ := exists_firstUnknown hnames
    obtain ⟨other, hother⟩ := exists_firstUnknown hmore
    rw [ofNames_of_firstUnknown hraw, ofNames_of_firstUnknown hother]
    rfl

theorem ofNames_insert_blank (h : IsBlank raw) (names more : List String) :
    ofNames (names ++ raw :: more) = ofNames (names ++ more) := by
  simp only [ofNames_append, addNames_cons_of_isBlank h]

theorem ofNames_replace (hraw : Denotes raw v) (hother : Denotes other v)
    (names more : List String) :
    ofNames (names ++ raw :: more) = ofNames (names ++ other :: more) := by
  simp only [ofNames_append, addNames_cons_of_denotes hraw, addNames_cons_of_denotes hother]

/-- **Two lists make the union** of the dialects that each of them makes. -/
theorem ofNames_append_eq_ok_iff :
    ofNames (names ++ more) = .ok d ↔
      ∃ a b, ofNames names = .ok a ∧ ofNames more = .ok b ∧
        ∀ v, d.has v = (a.has v || b.has v) := by
  constructor
  · intro h
    obtain ⟨hknown, hhas⟩ := ofNames_eq_ok_iff.mp h
    obtain ⟨hnames, hmore⟩ := allKnown_append.mp hknown
    obtain ⟨a, ha, hahas⟩ := ofNames_of_allKnown hnames
    obtain ⟨b, hb, hbhas⟩ := ofNames_of_allKnown hmore
    refine ⟨a, b, ha, hb, fun v => ?_⟩
    rw [Bool.eq_iff_iff, Bool.or_eq_true, hhas, hahas, hbhas, chosen_append]
  · rintro ⟨a, b, ha, hb, hunion⟩
    obtain ⟨hnames, hahas⟩ := ofNames_eq_ok_iff.mp ha
    obtain ⟨hmore, hbhas⟩ := ofNames_eq_ok_iff.mp hb
    refine ofNames_eq_ok_iff.mpr ⟨allKnown_append.mpr ⟨hnames, hmore⟩, fun v => ?_⟩
    rw [hunion, Bool.or_eq_true, hahas, hbhas, chosen_append]

/-- **The names of the variants in force** make the dialect again. -/
theorem ofNames_enabledNames (d : Dialect) : ofNames d.enabledNames = .ok d := by
  have hdenotes (w : Variant) : Denotes w.name w := .inl (canonicalName_name w)
  have hmem (raw : String) : raw ∈ d.enabledNames ↔ ∃ w, d.has w = true ∧ w.name = raw := by
    simp [enabledNames, mem_all]
  refine ofNames_eq_ok_iff.mpr ⟨fun raw hraw hunknown => ?_, fun v => ⟨fun hv => ?_, ?_⟩⟩
  · obtain ⟨w, -, rfl⟩ := (hmem raw).mp hraw
    exact hunknown.2 w (hdenotes w)
  · exact ⟨v.name, (hmem _).mpr ⟨v, hv, rfl⟩, hdenotes v⟩
  · rintro ⟨raw, hraw, hv⟩
    obtain ⟨w, hw, rfl⟩ := (hmem raw).mp hraw
    rwa [← (hdenotes w).unique hv]

/-- **Names of variants form a set.**  A list of names is refused exactly if one of them is unknown,
and the message shows the first unknown one as it was given.  Otherwise the dialect has a variant
exactly if one of the names denotes it.  So lists of known names that denote the same variants make
the same dialect; the order of the names and how often each of them stands there do not matter; a
blank name may stand anywhere, and any name of a variant may replace any other name of it; a list
followed by another one makes the union, and the names of the variants in force make the dialect
again. -/
theorem names_form_a_set (names more : List String) :
    ((∃ raw, ofNames names = .error raw) ↔ ∃ raw ∈ names, IsUnknown raw) ∧
    (∀ message, (ofNames names).mapError (fun raw => (Refusal.unknownVariant raw).message) =
        .error message ↔
      ∃ raw, FirstUnknown names raw ∧ message = "unknown quirk: " ++ Text.quoted raw) ∧
    (∀ d, ofNames names = .ok d → ∀ v, d.has v = true ↔ Chosen names v) ∧
    (AllKnown names → AllKnown more → (∀ v, Chosen names v ↔ Chosen more v) →
      ofNames names = ofNames more) ∧
    ((∀ raw, raw ∈ names ↔ raw ∈ more) → (ofNames names).toOption = (ofNames more).toOption) ∧
    (∀ raw, IsBlank raw → ofNames (names ++ raw :: more) = ofNames (names ++ more)) ∧
    (∀ v raw other, Denotes raw v → Denotes other v →
      ofNames (names ++ raw :: more) = ofNames (names ++ other :: more)) ∧
    (∀ d, ofNames (names ++ more) = .ok d ↔
      ∃ a b, ofNames names = .ok a ∧ ofNames more = .ok b ∧
        ∀ v, d.has v = (a.has v || b.has v)) ∧
    ∀ d, ofNames names = .ok d → ofNames d.enabledNames = .ok d := by
  refine ⟨?refused, ?message, fun d hd => (ofNames_eq_ok_iff.mp hd).2,
    ofNames_eq_of_chosen, toOption_ofNames_eq_of_mem_iff, fun raw h => ofNames_insert_blank h _ _,
    fun v raw other hraw hother => ofNames_replace hraw hother _ _,
    fun d => ofNames_append_eq_ok_iff, fun d _ => ofNames_enabledNames d⟩
  case refused =>
    constructor
    · rintro ⟨raw, h⟩
      obtain ⟨before, after, rfl, hraw, -⟩ := ofNames_eq_error_iff.mp h
      exact ⟨raw, List.mem_append_right _ List.mem_cons_self, hraw⟩
    · rintro ⟨raw, hraw, hunknown⟩
      obtain ⟨first, hfirst⟩ := exists_firstUnknown fun hknown => hknown raw hraw hunknown
      exact ⟨first, ofNames_of_firstUnknown hfirst⟩
  case message =>
    intro message
    constructor
    · intro h
      cases hraw : ofNames names with
      | ok d =>
        rw [hraw] at h
        cases h
      | error raw =>
        rw [hraw] at h
        cases h
        exact ⟨raw, ofNames_eq_error_iff.mp hraw, rfl⟩
    · rintro ⟨raw, hraw, rfl⟩
      rw [ofNames_of_firstUnknown hraw]
      rfl

/-- Capitals, hyphens, blanks around a name and repetitions do not matter. -/
example : ofNames ["Shift", " \t", "LOGIC-resets-vf\n", "shift_uses_vy"] =
    .ok ⟨true, false, false, true⟩ := by
  decide

end Dialect

end Chip8
