import Chip8.Text.Decimal
import Chip8.Text.Quoted

/-!
# Command lines

An argument that begins with a hyphen is an option, unless it is a lone hyphen,
looks like a negative number or holds a space; any other argument is an operand.
The name of an option may be cut short as long as only one option begins that
way.  The value of an option is the operand after it, or stands in the same
argument after an equals sign.  From the argument `--` on all are operands.

All arguments are sorted first, so a name that is ambiguous is complained about
before anything else.  Then they are read from left to right, and what is neither
an option of the program nor an operand that it takes is left over for a
complaint at the end.
-/

namespace Chip8

/-- What is wrong with a command line. -/
inductive UsageError
  | ambiguous (argument : String) (names : List String)
  | unexpectedValue (option value : String)
  | noValue (option : String)
  | badValue (option complaint : String)
  | missing (options : List String)
  | unrecognized (arguments : List String)
  deriving DecidableEq

def UsageError.message : UsageError → String
  | ambiguous argument names =>
    "ambiguous option: " ++ argument ++ " could match " ++ ", ".intercalate names
  | unexpectedValue option value =>
    "argument " ++ option ++ ": ignored explicit argument " ++ Text.quoted value
  | noValue option => "argument " ++ option ++ ": expected one argument"
  | badValue option complaint => "argument " ++ option ++ ": " ++ complaint
  | missing options => "the following arguments are required: " ++ ", ".intercalate options
  | unrecognized arguments => "unrecognized arguments: " ++ " ".intercalate arguments

/-- What an option does to settings. -/
inductive OptionEffect (σ : Type)
  | flag (set : σ → σ)
  /-- Takes a value; the error is a complaint about the value. -/
  | value (read : String → Except String (σ → σ))

namespace OptionEffect

variable {σ : Type}

def text (set : String → σ → σ) : OptionEffect σ :=
  .value fun v => .ok (set v)

def integer (set : Int → σ → σ) : OptionEffect σ :=
  .value fun v =>
    match Text.decimalInteger? v.toList with
    | some n => .ok (set n)
    | none => .error ("invalid int value: " ++ Text.quoted v)

def real (set : Float → σ → σ) : OptionEffect σ :=
  .value fun v =>
    match Text.real? v.toList with
    | some x => .ok (set x)
    | none => .error ("invalid float value: " ++ Text.quoted v)

/-- Takes one of a few texts. -/
def choice {α : Type} (choices : List (String × α)) (set : α → σ → σ) : OptionEffect σ :=
  .value fun v =>
    match choices.lookup v with
    | some a => .ok (set a)
    | none =>
      .error ("invalid choice: " ++ Text.quoted v ++ " (choose from " ++
        ", ".intercalate (choices.map fun c => Text.quoted c.1) ++ ")")

end OptionEffect

/-- An option; its name begins with two hyphens. -/
structure OptionSpec (σ : Type) where
  name : String
  effect : OptionEffect σ

/-- The options of a program, and what it takes besides them.  Every program has the option `--help`
or `-h`. -/
structure CommandLine (σ : Type) where
  options : List (OptionSpec σ)
  /-- What the operand of the program does, if there is one. -/
  operand : Option (String → σ → σ)
  /-- The options that settings show to have been left out. -/
  missing : σ → List String

inductive Argument (σ : Type)
  | operand (text : String)
  /-- The argument `--`. -/
  | separator
  /-- The option that asks for help, with what is attached to it and should not be. -/
  | help (attached : Option String)
  | option (spec : OptionSpec σ) (value : Option String)
  | unknown (text : String)

namespace CommandLine

variable {σ : Type}

/-- How messages name the option that asks for help. -/
def helpLabel : String := "-h/--help"

/-! ### Sorting -/

def areDigits (cs : List Char) : Bool :=
  cs.all fun c => (Text.decimalValue? c).isSome

/-- Whether a text is a hyphen and an unsigned number, with or without a point, and perhaps the end
of a line. -/
def isNegativeNumber : List Char → Bool
  | '-' :: body =>
    let body := if body.getLast? = some '\n' then body.dropLast else body
    let whole := body.takeWhile (· ≠ '.')
    match body.dropWhile (· ≠ '.') with
    | [] => !whole.isEmpty && areDigits whole
    | _ :: fraction => areDigits whole && !fraction.isEmpty && areDigits fraction
  | _ => false

/-- Cuts an argument at its first equals sign. -/
def cutValue (cs : List Char) : List Char × Option String :=
  match cs.dropWhile (· ≠ '=') with
  | [] => (cs, none)
  | _ :: value => (cs.takeWhile (· ≠ '='), some (String.ofList value))

/-- The long options whose names a predicate accepts, each with a value. -/
def longOptions (c : CommandLine σ) (value : Option String) (accepts : String → Bool) :
    List (String × Argument σ) :=
  (("--help", .help value) :: c.options.map fun o => (o.name, .option o value)).filter
    fun entry => accepts entry.1

/-- The short option for help with characters attached to it.  The option may be repeated; what
follows it must not look like a value or another option, and is not looked at otherwise. -/
def shortHelp : List Char → Argument σ
  | 'h' :: '=' :: value => .help (some (String.ofList value))
  | 'h' :: rest => shortHelp rest
  | '-' :: rest => .help (some (String.ofList ('-' :: rest)))
  | _ => .help none

/-- The options that an argument may mean, by their names. -/
def candidates (c : CommandLine σ) (argument : List Char) : List (String × Argument σ) :=
  let (name, value) := cutValue argument
  match argument with
  | '-' :: 'h' :: attached => [("-h", shortHelp ('h' :: attached))]
  | '-' :: '-' :: _ =>
    match c.longOptions value (· == String.ofList name) with
    | [] => c.longOptions value fun n => name.isPrefixOf n.toList
    | exact => exact
  | _ => []

def sortOne (c : CommandLine σ) (argument : String) : Except UsageError (Argument σ) :=
  match c.candidates argument.toList with
  | [(_, a)] => .ok a
  | [] =>
    match argument.toList with
    | '-' :: _ :: _ =>
      if isNegativeNumber argument.toList || argument.toList.contains ' ' then
        .ok (.operand argument)
      else .ok (.unknown argument)
    | _ => .ok (.operand argument)
  | several => .error (.ambiguous argument (several.map Prod.fst))

def sort (c : CommandLine σ) : List String → Except UsageError (List (Argument σ))
  | [] => .ok []
  | argument :: rest =>
    if argument = "--" then .ok (.separator :: rest.map .operand)
    else do
      let a ← c.sortOne argument
      return a :: (← c.sort rest)

/-! ### Reading -/

/-- What has been read of a command line. -/
structure Reading (σ : Type) where
  settings : σ
  /-- What the operand does, as long as it has not been given. -/
  operand : Option (String → σ → σ)
  leftOver : List String

namespace Reading

def leave (r : Reading σ) (argument : String) : Reading σ :=
  { r with leftOver := r.leftOver ++ [argument] }

def give (r : Reading σ) (name : String) (read : String → Except String (σ → σ)) (value : String) :
    Except UsageError (Reading σ) :=
  match read value with
  | .ok f => .ok { r with settings := f r.settings }
  | .error complaint => .error (.badValue name complaint)

end Reading

/-- Reads sorted arguments; there is no answer if they ask for help. -/
def read (r : Reading σ) : List (Argument σ) → Except UsageError (Option (Reading σ))
  | [] => .ok (some r)
  | .help none :: _ => .ok none
  | .help (some attached) :: _ => .error (.unexpectedValue helpLabel attached)
  | .unknown text :: rest => read (r.leave text) rest
  | .option ⟨name, effect⟩ value :: rest =>
    match effect, value with
    | .flag set, none => read { r with settings := set r.settings } rest
    | .flag _, some v => .error (.unexpectedValue name v)
    | .value reader, some v => do read (← r.give name reader v) rest
    | .value reader, none =>
      match rest with
      | .operand v :: rest => do read (← r.give name reader v) rest
      | _ => .error (.noValue name)
  | .operand text :: rest =>
    match r.operand with
    | none => read (r.leave text) rest
    | some set =>
      let r := { r with settings := set text r.settings, operand := none }
      match rest with
      | .separator :: rest => read r rest
      | rest => read r rest
  | .separator :: rest => read (if r.operand.isSome then r else r.leave "--") rest

/-- The settings after a command line; there are none if it asks for help. -/
def parse (c : CommandLine σ) (initial : σ) (arguments : List String) :
    Except UsageError (Option σ) := do
  let some r ← read ⟨initial, c.operand, []⟩ (← c.sort arguments) | return none
  match c.missing r.settings, r.leftOver with
  | [], [] => return some r.settings
  | [], leftOver => throw (.unrecognized leftOver)
  | missing, _ => throw (.missing missing)

end CommandLine

end Chip8
