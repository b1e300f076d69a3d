import Chip8.Binary64
import Chip8.Halt
import Chip8.Memory.Basic
import Chip8.Text.Quoted

/-!
# Refusals

What a host asks for may be refused.  A refusal is a cause, with what the
message about it needs; the wording is in one place, `Refusal.message`.
-/

namespace Chip8

/-- What a host may not do with an engine while it makes a step. -/
inductive Activity
  | loadRom
  | step
  | tickTimers
  | changeKeys
  | readDisplay
  deriving DecidableEq

def Activity.phrase : Activity → String
  | loadRom => "load a ROM"
  | step => "step"
  | tickTimers => "tick timers"
  | changeKeys => "change key state"
  | readDisplay => "read the display"

inductive Refusal
  /-- A condition that stops programs has reached the host. -/
  | halting (reason : HaltReason)
  | conversion (error : Binary64.ConversionError)
  | keyOutOfRange (code : Int)
  | timerOutOfRange (value : Int)
  | invalidMemoryRange
  | negativeLength
  | programIndexOutOfRange
  | scaleNotPositive
  | unknownVariant (name : String)
  | emptyRom
  | oversizedRom (size maximum : Nat)
  | missingRom (path : String)
  | noRom
  | romAfterStart
  | notStarted
  | retired
  | emptySession
  | busy (activity : Activity)
  | stale (generation : Int)
  | rateNotPositive
  | timerFrequencyNotPositive
  | refreshNotPositive
  | newRateNotPositive
  /-- There is no pacer. -/
  | noPacer
  | noSession
  | noEngine
  | noHandle
  /-- A paced run has slept too often. -/
  | sleepLimit
  /-- Requests made during requests are nested too deep. -/
  | nestedTooDeep
  /-- A paced run makes no headway. -/
  | stalled
  | noDirectory (path : String)
  /-- The path goes on below a file. -/
  | notDirectory (path : String)
  | isDirectory (path : String)
  deriving DecidableEq

namespace Refusal

def ofOutOfRange (e : OutOfRange) : Refusal :=
  .halting (.addressOutOfRange e.address)

/-- Whether a request has come too early, too late or during another one. -/
def isUntimely : Refusal → Bool
  | romAfterStart | notStarted | retired | emptySession | busy _ | stale _ => true
  | _ => false

def message : Refusal → String
  | halting r => r.message
  | conversion e => e.message
  | keyOutOfRange code => "key code out of range: " ++ toString code
  | timerOutOfRange value => "timer value must fit in 8 bits: " ++ toString value
  | invalidMemoryRange => "invalid memory range"
  | negativeLength => "length must not be negative"
  | programIndexOutOfRange => "program area index out of range"
  | scaleNotPositive => "scaling factor must be positive"
  | unknownVariant name => "unknown quirk: " ++ Text.quoted name
  | emptyRom => "ROM image is empty"
  | oversizedRom size maximum =>
    "ROM image is " ++ toString size ++ " bytes; maximum is " ++ toString maximum ++
      " (0x" ++ Text.hex 1 maximum ++ ")"
  | missingRom path => "ROM file not found: " ++ path
  | noRom => "no ROM loaded"
  | romAfterStart => "ROM must be loaded before start()"
  | notStarted => "call start() before stepping"
  | retired => "engine has been replaced"
  | emptySession => "no ROM has been loaded into this session"
  | busy activity => "cannot " ++ activity.phrase ++ " while a step is executing"
  | stale generation =>
    "run handle for generation " ++ toString generation ++ " is no longer current"
  | rateNotPositive => "instructions_per_second must be positive"
  | timerFrequencyNotPositive => "timer_frequency must be positive"
  | refreshNotPositive => "refresh_rate must be positive"
  | newRateNotPositive => "frequency must be positive"
  | noPacer => "no driver"
  | noSession => "no session"
  | noEngine => "no computer"
  | noHandle => "list index out of range"
  | sleepLimit => "sleep limit"
  | nestedTooDeep => "maximum recursion depth exceeded"
  | stalled => "the run makes no headway"
  | noDirectory path => "[Errno 2] No such file or directory: " ++ Text.quoted path
  | notDirectory path => "[Errno 20] Not a directory: " ++ Text.quoted path
  | isDirectory path => "[Errno 21] Is a directory: " ++ Text.quoted path

end Refusal

end Chip8
