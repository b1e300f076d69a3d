import Chip8.Headless.Program

/-!
# The command line

Reads the image that the command line names, runs it without a window, and
writes what is left of the run.
-/

namespace Chip8

/-- How many random numbers there are before they begin anew. -/
def sourceLength : Nat := 4096

def drawsFrom (g : StdGen) : Nat → List (Draw Request)
  | 0 => []
  | n + 1 =>
    let (value, g) := stdNext g
    ⟨none, value / 256⟩ :: drawsFrom g n

def readFile? (path : String) : IO (Option (List UInt8)) := do
  try
    return some (← IO.FS.readBinFile path).toList
  catch _ =>
    return none

/-- A path is a directory if the entry `.` in it can be found. -/
def directoryExists (path : String) : IO Bool := do
  try
    let _ ← IO.FS.realPath (path ++ "/.")
    return true
  catch _ =>
    return false

/-- The files and directories that a plan has to do with. -/
def filesFor (plan : Headless.Plan) : IO Files := do
  let entries := match ← readFile? plan.rom with
    | some data => [(Text.normalPath plan.rom, data)]
    | none => []
  let directories ← match plan.settings.dump with
    | some path => [Text.normalPath path, Text.parentPath path].filterM directoryExists
    | none => pure []
  return ⟨entries, directories⟩

/-- Writes the dump if it has gone to a file. -/
def writeDump (plan : Headless.Plan) (before after : Files) : IO Unit := do
  let some path := plan.settings.dump | return
  let some data := after.find? path | return
  if before.find? path ≠ some data then IO.FS.writeBinFile path ⟨data.toArray⟩

end Chip8

open Chip8 in
/-- Runs a command line.  The stopwatch counts a millisecond for each round of a run. -/
def main (arguments : List String) : IO UInt32 := do
  let plan? := (Headless.plan arguments).toOption.join
  let files ← match plan? with
    | some plan => filesFor plan
    | none => pure (Files.ofList [])
  let chance ← IO.rand 0 0xFFFFFFFF
  let draws := fun (seed : Option Int) =>
    drawsFrom (mkStdGen ((seed.map Int.natAbs).getD chance)) sourceLength
  let began := (← IO.monoMsNow).toFloat / 1000
  let o := Headless.outcome arguments files draws ⟨fun k => began + k.toFloat / 1000, 0⟩
  plan?.forM fun plan => writeDump plan files o.files
  let stdout ← IO.getStdout
  stdout.write ⟨o.output.toArray⟩
  stdout.flush
  o.errorLines.forM fun line => IO.eprintln line
  match o.ending with
  | .ok code => return code.toUInt32
  | .error r =>
    IO.eprintln r.message
    return 1
