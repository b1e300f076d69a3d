import Chip8.Text.Blank
import Chip8.Text.Case

/-!
# Dialects

Interpreters differ in the effect of a few instructions.  A dialect is the set
of the variants that are in force; a variant is chosen by its name or by a short
one.
-/

namespace Chip8

inductive Variant
  /-- Shifts take their operand from `Vy`. -/
  | shiftUsesVy
  /-- Storing and loading registers moves the index register. -/
  | loadStoreIncrementsIndex
  /-- The jump with offset takes its offset from `Vx`. -/
  | jumpUsesVx
  /-- The logical operations clear `VF`. -/
  | logicResetsVf
  deriving DecidableEq

namespace Variant

def all : List Variant :=
  [shiftUsesVy, loadStoreIncrementsIndex, jumpUsesVx, logicResetsVf]

def name : Variant → String
  | shiftUsesVy => "shift_uses_vy"
  | loadStoreIncrementsIndex => "load_store_increments_index"
  | jumpUsesVx => "jump_uses_vx"
  | logicResetsVf => "logic_resets_vf"

def shortName : Variant → String
  | shiftUsesVy => "shift"
  | loadStoreIncrementsIndex => "memory"
  | jumpUsesVx => "jump"
  | logicResetsVf => "logic"

/-- The form in which names are compared: no blanks around, small letters, underscores for
hyphens. -/
def canonicalName (raw : String) : String :=
  String.ofList ((Text.lower (Text.trim raw.toList)).map fun c => if c = '-' then '_' else c)

/-- Every name of a variant, in alphabetical order. -/
def choices : List (String × Variant) :=
  (all.flatMap fun v => [(v.name, v), (v.shortName, v)]).mergeSort fun a b => !(b.1 < a.1)

/-- The variant of a name in canonical form. -/
def ofName? (name : String) : Option Variant :=
  all.find? fun v => v.name == name || v.shortName == name

end Variant

/-- The variants that are in force. -/
structure Dialect where
  shiftUsesVy : Bool
  loadStoreIncrementsIndex : Bool
  jumpUsesVx : Bool
  logicResetsVf : Bool
  deriving DecidableEq

namespace Dialect

def plain : Dialect :=
  ⟨false, false, false, false⟩

def has (d : Dialect) : Variant → Bool
  | .shiftUsesVy => d.shiftUsesVy
  | .loadStoreIncrementsIndex => d.loadStoreIncrementsIndex
  | .jumpUsesVx => d.jumpUsesVx
  | .logicResetsVf => d.logicResetsVf

def enable (d : Dialect) : Variant → Dialect
  | .shiftUsesVy => { d with shiftUsesVy := true }
  | .loadStoreIncrementsIndex => { d with loadStoreIncrementsIndex := true }
  | .jumpUsesVx => { d with jumpUsesVx := true }
  | .logicResetsVf => { d with logicResetsVf := true }

theorem has_enable (d : Dialect) (v w : Variant) :
    (d.enable v).has w = (d.has w || decide (v = w)) := by
  cases v <;> cases w <;> simp [has, enable]

/-- Adds the variants of a list of names.  A name that is blank adds none; the error is the first
name that has no variant. -/
def addNames (d : Dialect) : List String → Except String Dialect
  | [] => .ok d
  | raw :: rest =>
    let name := Variant.canonicalName raw
    if name.isEmpty then d.addNames rest
    else match Variant.ofName? name with
      | none => .error raw
      | some v => (d.enable v).addNames rest

def ofVariants (variants : List Variant) : Dialect :=
  variants.foldl enable plain

def ofNames (names : List String) : Except String Dialect :=
  plain.addNames names

def enabledNames (d : Dialect) : List String :=
  (Variant.all.filter d.has).map Variant.name

end Dialect

end Chip8
