import Chip8.Proofs.Engine.Step
import Chip8.Proofs.Memory.Blocks

/-!
# Programs from files

A file holds a program if it is there, is not empty and is not too long for the
memory.  An engine that has not been started takes such a program.  A file that
holds none is refused with a reason that says so.

* `readRomFile_of_hasRom`, `readRomFile_of_not_hasRom`: an image is read, or not.
* `loadRomFile_of_hasRom`: an engine takes the program of a file.
* `reloadOrReport_of_not_hasRom`: a reload without a program leaves a line in the
  log.
-/

namespace Chip8

/-- There is a file with a program at the path. -/
def Files.HasRom (f : Files) (path : String) : Prop :=
  ∃ data, f.find? (Text.normalPath path) = some data ∧ data ≠ [] ∧ data.length ≤ programCapacity

/-- A program that is not too long fits behind the place where programs begin. -/
theorem Memory.writeBlock_of_fits (m : Ram) {data : List UInt8}
    (hlength : data.length ≤ programCapacity) :
    ∃ m', m.writeBlock programStart (data.map fun b => (b.toNat : Int)) = (m', .ok ()) := by
  rcases hw : m.writeBlock programStart (data.map fun b => (b.toNat : Int)) with ⟨m', o | ⟨⟩⟩
  · exfalso
    have hstart : (0 : Int) ≤ programStart := by decide
    have hobstacle := (obstacle_eq_some_iff hstart).mp (writeBlock_eq_error_iff.mp hw).2
    simp only [List.length_map, programStart] at hobstacle
    simp only [programCapacity, addressSpace, programStart] at hlength
    omega
  · exact ⟨m', hw⟩

/-- **An engine that has not been started** takes a program that fits. -/
theorem Engine.load_of_fits {e : Engine} (hstarted : e.started = false) (hfree : e.busy = false)
    {data : List UInt8} (hdata : data ≠ []) (hlength : data.length ≤ programCapacity)
    (name : String) : ∃ memory, e.load data name =
      .ok { e with machine := { e.machine with memory }, rom := some ⟨data, name, none⟩ } := by
  obtain ⟨memory, hw⟩ := Memory.writeBlock_of_fits e.machine.memory hlength
  have hcheck : Cartridge.check data = .ok data :=
    Cartridge.check_eq_ok_iff.mpr ⟨rfl, hdata, hlength⟩
  refine ⟨memory, ?_⟩
  rw [Engine.load, if_neg (Bool.eq_false_iff.mp hstarted), hcheck]
  dsimp only
  rw [if_neg (Bool.eq_false_iff.mp hfree), hw]

namespace HostM

variable {h : Host} {c s : Nat} {e : Engine} {path : String}

theorem readRomFile_of_some {data : List UInt8}
    (hfile : h.files.find? (Text.normalPath path) = some data) : ∃ lines,
      readRomFile path h =
        ((Cartridge.check data).map fun data => (Cartridge.mk data
          (Cartridge.nameOfFile (Text.normalPath path)) (some (Text.normalPath path))),
        h.addLines lines) := by
  have hrest (h : Host) : ∃ lines, (do
      let data ← ofExcept (Cartridge.check data)
      log ⟨.info, .romFile, "read ROM " ++ Text.normalPath path ++ " (" ++
        toString data.length ++ " bytes)"⟩
      return Cartridge.mk data (Cartridge.nameOfFile (Text.normalPath path))
        (some (Text.normalPath path)) : HostM Cartridge) h =
      ((Cartridge.check data).map fun data => (Cartridge.mk data
        (Cartridge.nameOfFile (Text.normalPath path)) (some (Text.normalPath path))),
      h.addLines lines) := by
    cases Cartridge.check data with
    | error r => exact ⟨[], by rw [bind_of_error (ofExcept_apply _ _), Host.addLines_nil]; rfl⟩
    | ok data =>
      rw [bind_of_ok (ofExcept_apply _ _), bind_of_ok (log_apply _ _)]
      exact ⟨_, rfl⟩
  rw [readRomFile, bind_of_ok (get_apply h), hfile, bind_of_ok (required_some _ _ _)]
  dsimp only
  split
  · rw [bind_of_ok (log_apply _ h)]
    obtain ⟨lines, hlines⟩ := hrest (h.addLines [_])
    exact ⟨_, hlines.trans (congrArg (Prod.mk _) (Host.addLines_append _ _ _).symm)⟩
  · exact hrest h

/-- **An image is read** from a file that holds a program. -/
theorem readRomFile_of_hasRom (hrom : h.files.HasRom path) : ∃ rom lines,
    readRomFile path h = (.ok rom, h.addLines lines) ∧ rom.data ≠ [] ∧
      rom.data.length ≤ programCapacity := by
  obtain ⟨data, hfile, hdata, hlength⟩ := hrom
  obtain ⟨lines, hread⟩ := readRomFile_of_some hfile
  rw [Cartridge.check_eq_ok_iff.mpr ⟨rfl, hdata, hlength⟩] at hread
  exact ⟨_, lines, hread, hdata, hlength⟩

/-- **A file that holds no program** is refused for that reason. -/
theorem readRomFile_of_not_hasRom (hrom : ¬h.files.HasRom path) : ∃ r lines,
    readRomFile path h = (.error r, h.addLines lines) ∧ isLoadFailure r = true := by
  cases hfile : h.files.find? (Text.normalPath path) with
  | none =>
    refine ⟨.missingRom (Text.normalPath path), [], ?_, rfl⟩
    rw [readRomFile, bind_of_ok (get_apply h), hfile, bind_of_error (required_none _ _),
      Host.addLines_nil]
  | some data =>
    obtain ⟨lines, hread⟩ := readRomFile_of_some hfile
    by_cases hdata : data = []
    · subst hdata
      exact ⟨_, lines, hread, rfl⟩
    · have hlength : programCapacity < data.length :=
        Nat.lt_of_not_le fun hlength => hrom ⟨data, hfile, hdata, hlength⟩
      rw [Cartridge.check, if_neg (by simpa using hdata), if_pos hlength] at hread
      exact ⟨_, lines, hread, rfl⟩

theorem loadRomFile_of_load (he : h.engines[c]? = some e) {rom : Cartridge} {lines : List LogLine}
    (hread : readRomFile path h = (.ok rom, h.addLines lines)) {e' : Engine}
    (hload : e.load rom.data rom.name = .ok e') :
    loadRomFile c path h =
      (.ok rom, (h.putEngine c { e' with rom := some rom }).addLines
        (lines ++ [Engine.loadedLine rom.data.length rom.name])) := by
  have he₁ : (h.addLines lines).engines[c]? = some e := he
  obtain ⟨_, -, hrun⟩ := loadRom_of_ok he₁ hload
  rw [loadRomFile, bind_of_ok hread, bind_of_ok hrun]
  have hput : (((h.addLines lines).putEngine c e').addLines
      [Engine.loadedLine rom.data.length rom.name]).engines[c]? = some e' :=
    Host.engines_putEngine he₁
  rw [bind_of_ok (modifyEngine_apply hput _), Host.putEngine_addLines, Host.putEngine_addLines,
    Host.putEngine_addLines, Host.putEngine_putEngine, ← Host.addLines_append]
  rfl

/-- **An engine takes the program of a file**, and nothing else but the log changes. -/
theorem loadRomFile_of_hasRom (he : h.engines[c]? = some e) (hstarted : e.started = false)
    (hfree : e.busy = false) (hrom : h.files.HasRom path) : ∃ rom memory lines,
      loadRomFile c path h =
        (.ok rom, (h.putEngine c
          { e with machine := { e.machine with memory }, rom := some rom }).addLines lines) := by
  obtain ⟨rom, lines, hread, hdata, hlength⟩ := readRomFile_of_hasRom hrom
  obtain ⟨memory, hload⟩ := Engine.load_of_fits hstarted hfree hdata hlength rom.name
  exact ⟨rom, memory, _, loadRomFile_of_load he hread hload⟩

theorem loadRomFile_of_not_hasRom (c : Nat) (hrom : ¬h.files.HasRom path) : ∃ r lines,
    loadRomFile c path h = (.error r, h.addLines lines) ∧ isLoadFailure r = true := by
  obtain ⟨r, lines, hread, hr⟩ := readRomFile_of_not_hasRom hrom
  exact ⟨r, lines, bind_of_error hread _, hr⟩

/-- **A reload of a file that holds no program** leaves lines in the log. -/
theorem reloadOrReport_of_not_hasRom (s : Nat) (hrom : ¬h.files.HasRom path) : ∃ lines,
    reloadOrReport s path h = (.ok none, h.addLines lines) := by
  obtain ⟨r, lines, hread, hr⟩ := readRomFile_of_not_hasRom hrom
  have hfile : reloadFile s path h = (.error r, h.addLines lines) := bind_of_error hread _
  rw [reloadOrReport, bind_of_ok (attempt_apply _ _), hfile]
  dsimp only
  rw [if_pos hr, bind_of_ok (log_apply _ _)]
  exact ⟨_, congrArg (Prod.mk _) (Host.addLines_append _ _ _).symm⟩

end HostM

end Chip8
