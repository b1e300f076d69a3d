import Chip8.Proofs.Engine.Lifecycle

/-!
# Programs that are loaded over one another

An engine that has not been started takes one program after the other.  Each is
written to where programs begin, over what has been written there before, and
nothing is cleared.  So the memory shows at each place the last image that
reaches so far, and behind the end of a short image the end of a longer one that
was loaded before it.

* `holds_makeAll`: what an engine holds after any loads.
* `loads_are_layered`: the memory of an engine that is then started, and when it
  holds the current image and zeros after it.
* `shorter_load_leaves_trace`: two loads after which it does not.
-/

namespace Chip8

namespace Occasion

def fitting? (data : List UInt8) : Option (List UInt8) :=
  if data ≠ [] ∧ data.length ≤ programCapacity then some data else none

/-- The bytes of the image that an engine takes that has not been started. -/
def image? (o : Occasion) : Option (List UInt8) :=
  match o.call with
  | .loadRom data _ => fitting? data
  | .loadRomFile path => (o.files.find? (Text.normalPath path)).bind fitting?
  | _ => none

end Occasion

/-- The byte at a place where images have been written over one another: that of the last one
that reaches so far, and zero if none does. -/
def layered (images : List (List UInt8)) (i : Nat) : UInt8 :=
  images.foldl (fun byte image => image.getD i byte) 0

/-- An earlier image shows behind the end of the last one. -/
def ShowsThrough (images : List (List UInt8)) : Prop :=
  ∃ i < programCapacity, (images.getLast?.getD []).length ≤ i ∧ layered images i ≠ 0

theorem layered_of_lt {images : List (List UInt8)} {image : List UInt8}
    (hlast : images.getLast? = some image) {i : Nat} (hi : i < image.length) :
    layered images i = image.getD i 0 := by
  obtain ⟨earlier, rfl⟩ := List.getLast?_eq_some_iff.mp hlast
  rw [layered, List.foldl_append, List.foldl_cons, List.foldl_nil, List.getD_eq_getElem?_getD,
    List.getD_eq_getElem?_getD, List.getElem?_eq_getElem hi]
  rfl

theorem not_showsThrough_iff {images : List (List UInt8)} {image : List UInt8}
    (hlast : images.getLast? = some image) :
    ¬ShowsThrough images ↔ ∀ i < programCapacity, layered images i = image.getD i 0 := by
  have hbehind {i : Nat} (hi : image.length ≤ i) : image.getD i 0 = 0 := by
    rw [List.getD_eq_getElem?_getD, List.getElem?_eq_none hi]
    rfl
  rw [ShowsThrough, hlast]
  constructor
  · intro hnone i hi
    by_cases hlength : i < image.length
    · exact layered_of_lt hlast hlength
    · rw [hbehind (Nat.le_of_not_lt hlength)]
      exact Classical.byContradiction fun hbyte =>
        hnone ⟨i, hi, Nat.le_of_not_lt hlength, hbyte⟩
  · rintro hsame ⟨i, hi, hlength, hbyte⟩
    rw [hsame i hi, hbehind hlength] at hbyte
    exact hbyte rfl

/-- What an engine holds that has not been started and has taken these images. -/
structure Engine.Holds (images : List (List UInt8)) (e : Engine) : Prop where
  free : e.busy = false
  started : e.started = false
  retired : e.retired = false
  rom : e.rom.map Cartridge.data = images.getLast?
  program : ∀ i < programCapacity, e.machine.memory.byteAt (programStart + i) = layered images i
  below : ∀ a < programStart, e.machine.memory.byteAt a = fontSprites.getD a 0

namespace Engine

/-- The memory of a new machine: the sprites of the digits, and zeros after them. -/
theorem byteAt_fresh {i : Nat} (hi : i < addressSpace) :
    Ram.fresh.byteAt i = fontSprites.getD i 0 := by
  have hzero : (Vector.replicate addressSpace (0 : UInt8))[i] = 0 := Vector.getElem_replicate hi
  rw [Memory.byteAt_eq_getElem _ hi, Ram.fresh, Memory.getElem_putCells _ _ _ hi, hzero]
  exact if_pos (Nat.zero_le i)

theorem holds_fresh (dialect : Dialect) (draws : List (Draw Request)) (owner : Option Nat)
    (generation : Int) : (fresh dialect draws owner generation).Holds [] where
  free := rfl
  started := rfl
  retired := rfl
  rom := rfl
  program i hi := by
    have hplace : programStart + i < addressSpace := by
      simp only [programCapacity, programStart, addressSpace] at hi ⊢
      omega
    have hbyte := byteAt_fresh hplace
    have hbehind : fontSprites.length ≤ programStart + i :=
      Nat.le_trans (by decide) (Nat.le_add_right programStart i)
    rw [List.getD_eq_getElem?_getD, List.getElem?_eq_none hbehind] at hbyte
    exact hbyte
  below a ha := by
    refine byteAt_fresh (Nat.lt_of_lt_of_le ha ?_)
    decide

theorem Holds.concat {images : List (List UInt8)} {e : Engine} (he : e.Holds images)
    {image : List UInt8} {memory : Ram} {rom : Cartridge} (hrom : rom.data = image)
    (hw : e.machine.memory.writeBlock programStart (image.map fun b => (b.toNat : Int)) =
      (memory, .ok ())) :
    { e with machine := { e.machine with memory }, rom := some rom }.Holds (images ++ [image]) where
  free := he.free
  started := he.started
  retired := he.retired
  rom := by rw [List.getLast?_concat, ← hrom]; rfl
  program i hi := by
    have hplace : programStart + i < addressSpace := by
      simp only [programCapacity, programStart, addressSpace] at hi ⊢
      omega
    have hbyte := Memory.byteAt_writeBlock hw hplace
    rw [if_pos (Nat.le_add_right _ _), Nat.add_sub_cancel_left] at hbyte
    rw [layered, List.foldl_append, ← layered, ← he.program i hi]
    exact hbyte
  below a ha := by
    have hplace : a < addressSpace := by
      simp only [programStart, addressSpace] at ha ⊢
      omega
    have hbyte := Memory.byteAt_writeBlock hw hplace
    rw [if_neg (Nat.not_le.mpr ha)] at hbyte
    exact hbyte.trans (he.below a ha)

end Engine

namespace Host

open HostM Occasion

variable {h : Host} {c : Nat} {e : Engine} {images : List (List UInt8)}

/-- What a load does to an engine that has taken these images. -/
def TakesImage (o : Occasion) (c : Nat) (images : List (List UInt8)) (h : Host) : Prop :=
  ∃ e, h.current = some c ∧ h.engines[c]? = some e ∧ e.Holds (images ++ o.image?.toList)

theorem holds_loadRom (hcurrent : h.current = some c) (he : h.engines[c]? = some e)
    (hh : e.Holds images) (files : Files) (data : List UInt8) (name : String) :
    TakesImage ⟨files, .loadRom data name⟩ c images (loadRom c data name h).2 := by
  by_cases hfits : data ≠ [] ∧ data.length ≤ programCapacity
  · obtain ⟨_, hload⟩ := Engine.load_of_fits hh.started hh.free hfits.1 hfits.2 name
    obtain ⟨_, _, hrun⟩ := loadRom_of_ok he hload
    obtain ⟨-, -, -, -, memory, hw, heq⟩ := Engine.load_cases hload
    have himage : image? ⟨files, .loadRom data name⟩ = some data := if_pos hfits
    rw [hrun, heq, TakesImage, himage]
    exact ⟨_, hcurrent, engines_putEngine he, hh.concat rfl hw⟩
  · have himage : image? ⟨files, .loadRom data name⟩ = none := if_neg hfits
    rw [TakesImage, himage, Option.toList_none, List.append_nil]
    cases hl : e.load data name with
    | error r =>
      rw [loadRom_of_error he hl]
      exact ⟨e, hcurrent, he, hh⟩
    | ok e' =>
      obtain ⟨-, -, hdata, hlength, -⟩ := Engine.load_cases hl
      exact absurd ⟨hdata, hlength⟩ hfits

theorem holds_loadRomFile (hcurrent : h.current = some c) (he : h.engines[c]? = some e)
    (hh : e.Holds images) (path : String) :
    TakesImage ⟨h.files, .loadRomFile path⟩ c images (loadRomFile c path h).2 := by
  by_cases hrom : h.files.HasRom path
  · obtain ⟨data, hfile, hfits⟩ := hrom
    have himage : image? ⟨h.files, .loadRomFile path⟩ = some data :=
      (congrArg (·.bind fitting?) hfile).trans (if_pos hfits)
    obtain ⟨lines, hread⟩ := readRomFile_of_some hfile
    rw [Cartridge.check_eq_ok_iff.mpr ⟨rfl, hfits⟩] at hread
    obtain ⟨_, hload⟩ := Engine.load_of_fits hh.started hh.free hfits.1 hfits.2
      (Cartridge.nameOfFile (Text.normalPath path))
    obtain ⟨-, -, -, -, memory, hw, heq⟩ := Engine.load_cases hload
    rw [loadRomFile_of_load he hread hload, heq, TakesImage, himage]
    exact ⟨_, hcurrent, engines_putEngine he, hh.concat rfl hw⟩
  · have himage : image? ⟨h.files, .loadRomFile path⟩ = none := by
      refine Option.bind_eq_none_iff.mpr ?_
      exact fun data hfile => if_neg fun hfits => hrom ⟨data, hfile, hfits⟩
    obtain ⟨_, lines, hrun, -⟩ := loadRomFile_of_not_hasRom c hrom
    rw [hrun, TakesImage, himage, Option.toList_none, List.append_nil]
    exact ⟨e, hcurrent, he, hh⟩

theorem holds_perform (hcurrent : h.current = some c) (he : h.engines[c]? = some e)
    (hh : e.Holds images) {call : HostCall} (hcall : call.isLoad = true) :
    TakesImage ⟨h.files, call⟩ c images (perform call.request h).2 := by
  have hrun (x : Nat → HostM Cartridge) :
      ((do return .image (← x (← currentEngine)) : HostM Reply) h).2 = (x c h).2 := by
    rw [bind_of_ok (currentEngine_apply hcurrent), bind_apply]
    rcases x c h with ⟨_ | _, _⟩ <;> rfl
  cases call with
  | loadRom data name =>
    have heq : (perform (.loadRom data name) h).2 = (loadRom c data name h).2 := hrun _
    rw [HostCall.request, heq]
    exact holds_loadRom hcurrent he hh h.files data name
  | loadRomFile path =>
    have heq : (perform (.loadRomFile path) h).2 = (loadRomFile c path h).2 := hrun _
    rw [HostCall.request, heq]
    exact holds_loadRomFile hcurrent he hh path
  | _ => cases hcall

/-- **A load puts its image over the ones before**, or is refused. -/
theorem holds_make (hcurrent : h.current = some c) (he : h.engines[c]? = some e)
    (hh : e.Holds images) {o : Occasion} (ho : o.call.isLoad = true) :
    TakesImage o c images (h.make o).2 :=
  holds_perform (h := { h with files := o.files }) hcurrent he hh ho

/-- **What an engine holds after any loads**: the images that it has taken, one over the other. -/
theorem holds_makeAll (hcurrent : h.current = some c) (he : h.engines[c]? = some e)
    (hh : e.Holds images) {loads : List Occasion} (hloads : ∀ o ∈ loads, o.call.isLoad = true) :
    ∃ e', (h.makeAll loads).2.current = some c ∧ (h.makeAll loads).2.engines[c]? = some e' ∧
      e'.Holds (images ++ loads.filterMap image?) := by
  induction loads generalizing h e images with
  | nil =>
    rw [List.filterMap_nil, List.append_nil]
    exact ⟨e, hcurrent, he, hh⟩
  | cons o rest ih =>
    obtain ⟨e₁, hcurrent₁, he₁, hh₁⟩ := holds_make hcurrent he hh (hloads o List.mem_cons_self)
    obtain ⟨e₂, hcurrent₂, he₂, hh₂⟩ :=
      ih hcurrent₁ he₁ hh₁ fun o' ho' => hloads o' (List.mem_cons_of_mem _ ho')
    refine ⟨e₂, hcurrent₂, he₂, ?_⟩
    rw [List.append_assoc] at hh₂
    have hsplit : (o :: rest).filterMap image? = o.image?.toList ++ rest.filterMap image? := by
      rw [List.filterMap_cons]
      cases o.image? <;> rfl
    rw [hsplit]
    exact hh₂

theorem engines_start (hcurrent : h.current = some c) (he : h.engines[c]? = some e)
    (files : Files) :
    (h.make ⟨files, .start⟩).2.engines[c]? = some (e.orSelf e.start) := by
  have hreply (n : Nat) (h : Host) : (handleReply n h).2 = h := by
    rw [handleReply, bind_apply, handle, bind_of_ok (get_apply h)]
    cases h.handles[n]? with
    | none => rfl
    | some x =>
      rw [required_some]
      dsimp only
      rw [bind_apply]
      have hsame := isCurrent_unchanged x h
      rcases hx : isCurrent x h with ⟨_ | _, h'⟩ <;> rw [hx] at hsame <;> exact hsame
  have hstart := engines_startEngine (h := { h with files }) he
  show (((currentEngine >>= fun c => startEngine c >>= handleReply) : HostM Reply)
    { h with files }).2.engines[c]? = _
  rw [bind_of_ok (currentEngine_apply (h := { h with files }) hcurrent), bind_apply]
  rcases hx : startEngine c { h with files } with ⟨r | n, h'⟩ <;> rw [hx] at hstart
  · exact hstart
  · exact (congrArg (fun h : Host => h.engines[c]?) (hreply n h')).trans hstart

end Host

open Host Occasion

/-- **What was loaded.**  However programs have been loaded into a new engine before it is started,
its image is the last one that was not refused, and each byte of the program's part of its memory
is that of the last image that reaches so far.  The image is followed by zeros if and only if no
earlier one shows through. -/
theorem loads_are_layered {h : Host} {c : Nat} {dialect : Dialect} {draws : List (Draw Request)}
    {owner : Option Nat} {generation : Int} (hcurrent : h.current = some c)
    (he : h.engines[c]? = some (Engine.fresh dialect draws owner generation))
    {loads : List Occasion} (hloads : ∀ o ∈ loads, o.call.isLoad = true) (files : Files) :
    ∃ e, ((h.makeAll loads).2.make ⟨files, .start⟩).2.engines[c]? = some e ∧
      (e.started = true ↔ loads.filterMap image? ≠ []) ∧
      e.rom.map Cartridge.data = (loads.filterMap image?).getLast? ∧
      (∀ i < programCapacity, e.machine.memory.byteAt (programStart + i) =
        layered (loads.filterMap image?) i) ∧
      (∀ a < programStart, e.machine.memory.byteAt a = fontSprites.getD a 0) ∧
      ∀ rom, e.rom = some rom →
        ((∀ i < programCapacity,
          e.machine.memory.byteAt (programStart + i) = rom.data.getD i 0) ↔
            ¬ShowsThrough (loads.filterMap image?)) := by
  obtain ⟨e, hcurrent', he', hh⟩ :=
    holds_makeAll hcurrent he (Engine.holds_fresh dialect draws owner generation) hloads
  rw [List.nil_append] at hh
  have hstart : ∃ started, e.orSelf e.start = { e with started } ∧
      (started = true ↔ loads.filterMap image? ≠ []) := by
    have hrom : e.rom.isSome = true ↔ loads.filterMap image? ≠ [] := by
      rw [← Option.isSome_map (f := Cartridge.data), hh.rom, List.getLast?_isSome]
    cases hs : e.start with
    | error r =>
      rcases Engine.start_eq_error hs with ⟨hretired, -⟩ | ⟨hnone, -⟩
      · exact absurd hretired (by rw [hh.retired]; decide)
      · refine ⟨false, ?_, ⟨fun h => (by cases h), fun hn => ?_⟩⟩
        · exact congrArg (fun started => { e with started }) hh.started
        · rw [hrom.mpr hn] at hnone
          cases hnone
    | ok e'' =>
      obtain ⟨-, hsome⟩ := Engine.allowed_of_start hs
      exact ⟨true, Engine.start_eq_ok hs, ⟨fun _ => hrom.mp hsome, fun _ => rfl⟩⟩
  obtain ⟨started, heq, hstarted⟩ := hstart
  refine ⟨_, engines_start hcurrent' he' files, ?_⟩
  rw [heq]
  refine ⟨hstarted, hh.rom, hh.program, hh.below, fun rom hrom => ?_⟩
  have hlast : (loads.filterMap image?).getLast? = some rom.data := by
    rw [← hh.rom]
    exact congrArg (Option.map Cartridge.data) hrom
  rw [not_showsThrough_iff hlast]
  constructor
  · intro hbytes i hi
    rw [← hh.program i hi]
    exact hbytes i hi
  · intro hlayers i hi
    rw [← hlayers i hi]
    exact hh.program i hi

/-- A short program, a longer one, and a file that is not there. -/
def Occasion.shortThenLong : List Occasion :=
  [.loadRom [0x00, 0xE0] "SHORT", .loadRom [0x60, 0x01, 0x12, 0x02] "LONG",
    .loadRomFile "none.ch8"].map (Occasion.mk ⟨[], []⟩)

/-- Of two programs the longer one, which has been loaded last, is followed by zeros. -/
theorem loads_are_layered_of_longer_load :
    (∀ o ∈ shortThenLong, o.call.isLoad = true) ∧
      ∃ e, ((withFile.makeAll shortThenLong).2.make ⟨⟨[], []⟩, .start⟩).2.engines[0]? = some e ∧
        (e.started = true ↔ shortThenLong.filterMap image? ≠ []) ∧
        e.rom.map Cartridge.data = (shortThenLong.filterMap image?).getLast? ∧
        (∀ i < programCapacity, e.machine.memory.byteAt (programStart + i) =
          layered (shortThenLong.filterMap image?) i) ∧
        (∀ a < programStart, e.machine.memory.byteAt a = fontSprites.getD a 0) ∧
        ∀ rom, e.rom = some rom →
          ((∀ i < programCapacity,
            e.machine.memory.byteAt (programStart + i) = rom.data.getD i 0) ↔
              ¬ShowsThrough (shortThenLong.filterMap image?)) := by
  have hloads : ∀ o ∈ shortThenLong, o.call.isLoad = true := by
    intro o ho
    simp only [shortThenLong, List.map_cons, List.map_nil, List.mem_cons, List.not_mem_nil,
      or_false] at ho
    rcases ho with rfl | rfl | rfl <;> rfl
  exact ⟨hloads, loads_are_layered rfl rfl hloads ⟨[], []⟩⟩

/-- A program, and then a shorter one. -/
def Occasion.longThenShort : List Occasion :=
  [.loadRom [0x60, 0x01, 0x12, 0x02] "LONG", .loadRom [0x00, 0xE0] "SHORT"].map
    (Occasion.mk ⟨[], []⟩)

/-- **A shorter program leaves a trace of a longer one** that has been loaded before it: the engine
starts, its image has two bytes, and the memory shows the jump of the other image behind them. -/
theorem shorter_load_leaves_trace :
    ∃ e, ((withFile.makeAll longThenShort).2.make ⟨⟨[], []⟩, .start⟩).2.engines[0]? = some e ∧
      e.started = true ∧ e.rom.map Cartridge.data = some [0x00, 0xE0] ∧
      ¬∀ i < programCapacity,
        e.machine.memory.byteAt (programStart + i) = [0x00, 0xE0].getD i 0 := by
  have hrun : (((withFile.makeAll longThenShort).2.make ⟨⟨[], []⟩, .start⟩).2.engines[0]?.map
      fun e => (e.started, e.rom.map Cartridge.data, e.machine.memory.byteAt 0x202)) =
        some (true, some [0x00, 0xE0], 0x12) := by
    decide +kernel
  obtain ⟨e, he, heq⟩ := Option.map_eq_some_iff.mp hrun
  obtain ⟨hstarted, hrom, hbyte⟩ := by simpa only [Prod.mk.injEq] using heq
  refine ⟨e, he, hstarted, hrom, fun hzero => ?_⟩
  have hsecond : e.machine.memory.byteAt 0x202 = 0 := hzero 2 (by decide)
  rw [hsecond] at hbyte
  exact absurd hbyte (by decide)

end Chip8
