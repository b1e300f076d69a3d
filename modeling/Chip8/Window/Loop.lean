import Chip8.Caption
import Chip8.Host.Perform
import Chip8.Keyboard
import Chip8.Window.Settings

/-!
# The window

The window shows the display of an engine and passes keys on to it.  For each
frame it deals with the events that have come, executes the instructions that are
due, shows the display if it has changed, and sets its caption.

Escape and the closing of the window end the loop after the frame, `F5` loads the
program anew, and `p` pauses and goes on.  What the window asks of the screen is
kept as a list of calls.
-/

namespace Chip8

/-- What the window asks of the screen. -/
inductive ScreenCall
  | init
  | mode (width height : Int)
  | caption (text : String)
  | blit (surface : Surface)
  | flip
  /-- Waits for the next frame. -/
  | tick (fps : Int)
  | quit
  deriving DecidableEq

inductive WindowEvent
  /-- The window is closed. -/
  | quit
  | keyDown (key : Int)
  | keyUp (key : Int)
  /-- Any other event; nothing comes of it. -/
  | other
  deriving DecidableEq

/-- What happens outside before a frame, and the events that the frame deals with. -/
structure Frame where
  written : List (String × List UInt8)
  removed : List String
  /-- How much time goes by, in nanoseconds. -/
  advance : Int
  events : List WindowEvent

def Frame.closing : Frame :=
  ⟨[], [], 0, [.quit]⟩

structure Window where
  host : Host
  session : Nat
  /-- The engine that keys are passed on to. -/
  engine : Nat
  /-- The engine whose display is shown. -/
  display : Nat
  pacer : Nat
  running : Bool
  calls : Array ScreenCall

abbrev WindowM := ExceptT Refusal (StateM Window)

namespace Window

def clock : Nat := 0

/-- A window over a host that holds nothing but files and a clock. -/
def ofFiles (files : Files) : Window where
  host := { Host.ofFiles files with clocks := #[.steady 0 0], clock := some clock }
  session := 0
  engine := 0
  display := 0
  pacer := 0
  running := true
  calls := #[]

def onHost {α : Type} (x : HostM α) : WindowM α :=
  fun w => match x w.host with
    | (result, host) => (result, { w with host })

def call (c : ScreenCall) : WindowM Unit :=
  modify fun w => { w with calls := w.calls.push c }

def showCaption : WindowM Unit := do
  let w ← get
  let pacer ← onHost (HostM.pacerAt w.pacer)
  let e ← onHost (HostM.engine w.engine)
  call (.caption (Chip8.caption e pacer.power))

/-- Follows an engine of the session with a new pacer. -/
def follow (s : Settings) (engine : Nat) : WindowM Unit := do
  modify fun w => { w with engine }
  let session := (← get).session
  let pacer ← onHost do
    let x ← HostM.handle (← HostM.startSession session)
    HostM.newPacer x s.rate Pace.timerFrequency Pace.refreshPeriod none clock
  modify fun w => { w with pacer }
  onHost (HostM.powerOn pacer)

/-- Turns to the display of the engine. -/
def lookAtEngine : WindowM Unit :=
  modify fun w => { w with display := w.engine }

def openRom (s : Settings) (path : String) : WindowM Unit := do
  let session ← onHost do
    modifyGet fun h =>
      (h.sessions.size,
        { h with sessions := h.sessions.push ⟨Dialect.ofVariants s.variants, [], 0, none⟩ })
  modify fun w => { w with session }
  let (engine, _) ← onHost (HostM.reloadFile session path)
  follow s engine

/-- Loads the program anew.  If that fails all stays as it is. -/
def reload (s : Settings) (path : String) : WindowM Unit := do
  match ← onHost (HostM.reloadOrReport (← get).session path) with
  | none => pure ()
  | some engine => do
    follow s engine
    lookAtEngine

def togglePause : WindowM Unit := do
  let p := (← get).pacer
  onHost do
    if (← HostM.pacerAt p).power = .paused then HostM.resume HostM.perform p
    else HostM.pause HostM.perform p

def passKey (key : Int) (down : Bool) : WindowM Unit := do
  match Keyboard.key? key with
  | none => pure ()
  | some k =>
    let c := (← get).engine
    onHost (HostM.setKey c k.val down)

def stop : WindowM Unit :=
  modify fun w => { w with running := false }

def handle (s : Settings) (path : String) : WindowEvent → WindowM Unit
  | .quit => stop
  | .keyDown key =>
    if key = Keyboard.escape then stop
    else if key = Keyboard.reload then reload s path
    else if key = Keyboard.pause then togglePause
    else passKey key true
  | .keyUp key => passKey key false
  | .other => pure ()

/-- Executes the instructions that are due, unless there is a pause. -/
def executeDue : WindowM Unit := do
  let p := (← get).pacer
  onHost do
    if (← HostM.pacerAt p).power = .running then
      let due ← HostM.instructionsDue p
      if due ≠ 0 then
        let _ ← HostM.runSteps HostM.perform p due

def showDisplay (s : Settings) : WindowM Unit := do
  let c := (← get).display
  let m ← onHost (HostM.machine c)
  if m.display.dirty then
    match m.display.surface? s.scale with
    | .error r => throw r
    | .ok (surface, display) =>
      onHost (HostM.setMachine c { m with display })
      call (.blit surface)
      call .flip

def outside (f : Frame) : WindowM Unit :=
  onHost do
    modify fun h =>
      let files := f.written.foldl (fun files e => files.write e.1 e.2) h.files
      { h with files := f.removed.foldl Files.remove files }
    HostM.advanceClock f.advance

def frame (s : Settings) (path : String) (f : Frame) : WindowM Unit := do
  outside f
  f.events.forM (handle s path)
  executeDue
  showDisplay s
  showCaption
  call (.tick s.fps)

/-- Frames until the loop has ended; when there are no more frames the window is closed. -/
def frames (s : Settings) (path : String) : List Frame → WindowM Unit
  | [] => frame s path Frame.closing
  | f :: rest => do
    frame s path f
    if (← get).running then frames s path rest

def setUp (s : Settings) : WindowM Unit := do
  call .init
  lookAtEngine
  call (.mode (displayWidth * s.scale) (displayHeight * s.scale))
  showCaption

def run (s : Settings) (path : String) (fs : List Frame) : WindowM Unit := do
  openRom s path
  setUp s
  frames s path fs
  let p := (← get).pacer
  onHost (HostM.powerOff HostM.perform p)
  call .quit

end Window

end Chip8
