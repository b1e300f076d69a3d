import Chip8.Window.Loop

/-!
# Running the window

A command line is turned into settings, and the settings into a window.  What is
left of it is how it ended, what it asked of the screen, and the lines of its
report: the log, without the least important lines unless they are asked for.
-/

namespace Chip8

inductive WindowEnding
  | normal
  | code (n : Nat)
  /-- The window gives up with these last words. -/
  | words (text : String)
  /-- A refusal that nothing has dealt with. -/
  | refused (r : Refusal)
  deriving DecidableEq

structure WindowOutcome where
  ending : WindowEnding
  calls : List ScreenCall
  errorLines : List String

namespace Window

def shownLog (s : Settings) (log : List LogLine) : List String :=
  let least := if s.verbose then LogLevel.debug else .info
  (log.filter fun l => least.rank ≤ l.level.rank).map LogLine.bracketed

/-- How a window ends after a refusal: a program that cannot be loaded and a call that comes at the
wrong time make its last words. -/
def endingOf (r : Refusal) : WindowEnding :=
  if HostM.isLoadFailure r || r.isUntimely then .words r.message else .refused r

def outcome (arguments : List String) (environment : Option String) (files : Files)
    (fs : List Frame) : WindowOutcome :=
  match commandLine.parse Settings.initial arguments with
  | .error e => ⟨.code 2, [], [programName ++ ": error: " ++ e.message]⟩
  | .ok none => ⟨.code 0, [], []⟩
  | .ok (some s) =>
    match s.check environment with
    | .error e => ⟨.words e.message, [], []⟩
    | .ok path =>
      let (result, w) := run s path fs (ofFiles files)
      let log := shownLog s w.host.log.toList
      match result with
      | .ok () => ⟨.normal, w.calls.toList, log⟩
      | .error r => ⟨endingOf r, w.calls.toList, log⟩

end Window

end Chip8
