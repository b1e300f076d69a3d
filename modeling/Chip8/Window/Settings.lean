import Chip8.CommandLine
import Chip8.Dialect
import Chip8.Pace
import Chip8.Text.Path

/-!
# Settings of the window

What the command line says about the window, the checks that its numbers pass in
a fixed order, and the path of the program, which the environment may name where
the command line does not.
-/

namespace Chip8.Window

structure Settings where
  rom : Option String
  /-- The width of a pixel of the display. -/
  scale : Int
  /-- Frames in a second. -/
  fps : Int
  /-- Instructions in a second. -/
  rate : Float
  variants : List Variant
  verbose : Bool

def Settings.initial : Settings where
  rom := none
  scale := 10
  fps := 60
  rate := Pace.defaultRate
  variants := []
  verbose := false

def commandLine : CommandLine Settings where
  options := [
    ⟨"--scale", .integer fun v s => { s with scale := v }⟩,
    ⟨"--fps", .integer fun v s => { s with fps := v }⟩,
    ⟨"--ips", .real fun v s => { s with rate := v }⟩,
    ⟨"--quirk", .choice Variant.choices fun v s => { s with variants := s.variants ++ [v] }⟩,
    ⟨"--verbose", .flag fun s => { s with verbose := true }⟩]
  operand := some fun v s => { s with rom := some v }
  missing := fun _ => []

def programName : String := "chip8emu"

def romVariable : String := "CHIP8EMU_ROM"

/-- The path of the program: the first of the two texts that is there and not empty. -/
def romPath? (argument environment : Option String) : Option String :=
  ((argument.filter (!·.isEmpty)).or (environment.filter (!·.isEmpty))).map Text.normalPath

inductive SetupError
  | scaleNotPositive
  | fpsNotPositive
  | rateNotPositive
  | noRom
  deriving DecidableEq

def SetupError.message : SetupError → String
  | scaleNotPositive => "scale must be positive"
  | fpsNotPositive => "fps must be positive"
  | rateNotPositive => "ips must be positive"
  | noRom => "no ROM given and $" ++ romVariable ++ " is not set"

/-- The path of the program, if the settings are in order. -/
def Settings.check (s : Settings) (environment : Option String) : Except SetupError String :=
  if s.scale ≤ 0 then .error .scaleNotPositive
  else if s.fps ≤ 0 then .error .fpsNotPositive
  else if s.rate ≤ 0 then .error .rateNotPositive
  else match romPath? s.rom environment with
    | none => .error .noRom
    | some path => .ok path

end Chip8.Window
