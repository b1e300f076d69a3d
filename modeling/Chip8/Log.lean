/-!
# Log lines

What the parts of the emulator report about their work: a level, the part it
comes from, and a message.
-/

namespace Chip8

inductive LogLevel
  | debug
  | info
  | warning
  | error
  deriving DecidableEq

namespace LogLevel

def name : LogLevel → String
  | debug => "DEBUG"
  | info => "INFO"
  | warning => "WARNING"
  | error => "ERROR"

def rank : LogLevel → Nat
  | debug => 0
  | info => 1
  | warning => 2
  | error => 3

end LogLevel

inductive LogSource
  | memory
  | processor
  | engine
  | romFile
  | session
  | pacer
  | window
  deriving DecidableEq

def LogSource.name : LogSource → String
  | memory => "chip8emu.memory"
  | processor => "chip8emu.cpu.cpu"
  | engine => "chip8emu.chip8.computer"
  | romFile => "chip8emu.emulator.file.program"
  | session => "chip8emu.system.session"
  | pacer => "chip8emu.system.computer"
  | window => "chip8emu.app"

structure LogLine where
  level : LogLevel
  source : LogSource
  message : String
  deriving DecidableEq

namespace LogLine

/-- Level, source and message, separated by spaces. -/
def text (l : LogLine) : String :=
  l.level.name ++ " " ++ l.source.name ++ " " ++ l.message

/-- The form with the level in brackets and a colon before the message. -/
def bracketed (l : LogLine) : String :=
  "[" ++ l.level.name ++ "] " ++ l.source.name ++ ": " ++ l.message

end LogLine

end Chip8
