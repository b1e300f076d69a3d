import Chip8.Pacer

/-!
# The window's caption

The name of the program, and after it the first of these that holds: that the
program has halted, that it is paused, that it waits for a key.
-/

namespace Chip8

def baseCaption : String := "CHIP-8 Emulator"

def caption (e : Engine) (power : Power) : String :=
  let title :=
    match e.rom with
    | some rom => if rom.name.isEmpty then baseCaption else baseCaption ++ " | " ++ rom.name
    | none => baseCaption
  match e.lastStatus with
  | some (.halted reason) => title ++ " | halted: " ++ reason.message
  | _ =>
    if power = .paused then title ++ " | paused"
    else if e.machine.keypad.awaiting then title ++ " | waiting for key"
    else title

end Chip8
