import Chip8.Proofs.Display.Sprite
import Chip8.Proofs.Engine.Instructions
import Chip8.Proofs.Machine.Sound
import Chip8.Proofs.Memory.Transfers

/-!
# Instructions that draw

The instruction that draws a sprite takes its rows from the memory and its place from
two registers, and tells in the flag register whether a lit pixel has gone dark.  The
registers are read first, so that the flag register may be one of the two.

* `execute_draw`: the instruction, where the bytes of the sprite lie in the memory.
* `sprites_are_drawn`: what a sprite does to the picture, and the step that draws it.
-/

namespace Chip8

open PatternDigit (any)

/-- The `n` bytes at the index register, as the rows of a sprite. -/
def Machine.spriteRows (m : Machine) (n : Nat) : List Int :=
  (List.range n).map fun (i : Nat) => ((m.memory.byteAt (m.index + i)).toNat : Int)

namespace Machine

variable {m : Machine}

/-- **An instruction that draws** sets the flag register to the answer of the display. -/
theorem execute_draw (x y : Register) {n : Nat}
    (hfits : 0 < n → 0 ≤ m.index ∧ m.index + n - 1 ≤ 0xFFF) :
    m.execute (.draw x y n) = .completed { m with
      display := (m.display.draw (m.v x) (m.v y) (m.spriteRows n)).1
      registers :=
        m.registers.setFlag (m.display.draw (m.v x) (m.v y) (m.spriteRows n)).2 } := by
  have hcovers (i : Nat) (hi : i < n) : Memory.Covers 0 addressSpace (m.index + i) := by
    have hfits := hfits (by omega)
    simp only [addressSpace]
    omega
  have hread := m.memory.readBlock_of_covers hcovers
  rw [execute, hread, spriteRows]
  simp only [onMemory, Display.draw_emod, List.map_map]
  rfl

end Machine

/-- **Sprites are drawn dot by dot.**  A sprite at any place and of any rows switches each pixel
once for each dot that falls on it, makes the display dirty, and tells whether a lit pixel has gone
dark.  Drawn twice it leaves the picture as it was, and of two sprites either may be drawn first.
The step at a word that draws, with its bytes in the memory, draws these bytes at the place that the
two registers give, and sets the flag register to the answer. -/
theorem sprites_are_drawn :
    (∀ (d : Display) (x y : Int) (rows : List Int),
      d.Drawn x y rows (d.draw x y rows).1 (d.draw x y rows).2 ∧
      ((d.draw x y rows).1.draw x y rows).1.grid = d.grid ∧
      ∀ (x' y' : Int) (rows' : List Int),
        ((d.draw x y rows).1.draw x' y' rows').1.grid =
          ((d.draw x' y' rows').1.draw x y rows).1.grid) ∧
    ∀ (perform : Request → HostM Reply) (h : Host) (c : Nat) (e : Engine) (x y : Register)
      (n : Nat),
      e.Poised h c → Pattern.Matches ⟨0xD, any, any, .only n⟩ e.machine.word →
      Instruction.XReads e.machine.word x → Instruction.YReads e.machine.word y →
      (0 < n → 0 ≤ e.machine.index ∧ e.machine.index + n - 1 ≤ 0xFFF) →
      let drawn := e.machine.display.draw (e.machine.v x) (e.machine.v y) (e.machine.spriteRows n)
      ∃ m, HostM.Completes perform h c e m ∧ m.counter = e.machine.counter + 2 ∧
        m.display = drawn.1 ∧ m.v flagRegister = (if drawn.2 then 1 else 0) ∧
        (∀ z, z ≠ flagRegister → m.v z = e.machine.v z) ∧ m.index = e.machine.index ∧
        m = { e.machine with
          display := m.display
          registers := m.registers
          completed := e.machine.completed + 1 } := by
  constructor
  · intro d x y rows
    exact ⟨d.drawn x y rows, d.draw_draw_self x y rows, d.draw_draw_comm x y rows⟩
  · intro perform h c e x y n hp hw hx hy hfits drawn
    obtain ⟨hf, -, -, hn⟩ := hw
    have hreads : (Instruction.draw x y n).Reads e.machine.word :=
      ⟨⟨hf, trivial, trivial, trivial⟩, hx, hy, hn.symm⟩
    have hexecute := Machine.execute_draw (m := e.machine.passed) x y hfits
    have hv (z : Register) :
        ({ e.machine.passed with
          display := drawn.1, registers := e.machine.passed.registers.setFlag drawn.2 } :
            Machine).count.v z =
          if flagRegister = z then (if drawn.2 then 1 else 0) else e.machine.v z :=
      Machine.v_setV e.machine.passed flagRegister z _
    refine ⟨_, hp.completes hreads hexecute, rfl, rfl, ?_, ?_, rfl, rfl⟩
    · exact (hv flagRegister).trans (if_pos rfl)
    · intro z hz
      exact (hv z).trans (if_neg (Ne.symm hz))

/-- Calls that bring a new engine up to the sprite of the digit `1` at a place that the flag
register gives for both directions. -/
def drawingCalls : List EngineCall :=
  [.load [0x6F, 0x3E, 0xA0, 0x05, 0xDF, 0xF5] "ONE", .start, .step, .step]

/-- The sprite begins at column and line 62, of which the line is line 30, and comes in again at the
left side: its first dot is in column 0.  A second drawing makes this dot dark again. -/
theorem sprites_are_drawn_of_flag : ∃ e m,
    (hostAfter Dialect.plain drawingCalls).engines[0]? = some e ∧ e.machine.v flagRegister = 62 ∧
    HostM.Completes HostM.perform (hostAfter Dialect.plain drawingCalls) 0 e m ∧
    m.v flagRegister = 0 ∧ m.display.pixel (0 : Fin 64) (30 : Fin 32) = true ∧
    (m.display.draw 62 62 [0x20, 0x60, 0x20, 0x20, 0x70]).2 = true := by
  have hstate : ((hostAfter Dialect.plain drawingCalls).engines[0]?.map fun e =>
      (e.standsAt 0xDFF5, e.machine.v flagRegister, e.machine.index, e.machine.spriteRows 5,
        e.machine.display)) =
      some (true, 62, 5, [0x20, 0x60, 0x20, 0x20, 0x70], Display.fresh) := by
    decide +kernel
  obtain ⟨e, hp, hword, hknown⟩ := Engine.exists_poised hstate
  simp only [Prod.mk.injEq] at hknown
  obtain ⟨hflag, hindex, hrows, hdisplay⟩ := hknown
  have hpattern : Pattern.Matches ⟨0xD, any, any, .only 5⟩ e.machine.word := by
    rw [hword]
    decide
  have hx : Instruction.XReads e.machine.word flagRegister := by
    rw [hword]
    rfl
  have hy : Instruction.YReads e.machine.word flagRegister := by
    rw [hword]
    rfl
  obtain ⟨hdraws, hsteps⟩ := sprites_are_drawn
  obtain ⟨m, hm, -, hpicture, hanswer, -⟩ := hsteps HostM.perform _ 0 e flagRegister flagRegister
    5 hp hpattern hx hy (by rw [hindex]; decide)
  rw [hdisplay, hflag, hrows] at hpicture hanswer
  obtain ⟨hfirst, -⟩ := hdraws Display.fresh 62 62 [0x20, 0x60, 0x20, 0x20, 0x70]
  obtain ⟨hsecond, -⟩ := hdraws m.display 62 62 [0x20, 0x60, 0x20, 0x20, 0x70]
  have hlit : m.display.pixel (0 : Fin 64) (30 : Fin 32) = true := by
    rw [hpicture, hfirst.pixel_eq]
    decide
  refine ⟨e, m, hp.engine_eq, hflag, hm, ?_, hlit, ?_⟩
  · rw [hanswer]
    decide +kernel
  · -- The sprite has five rows, so the dot that is lit and goes dark gives the answer.
    rw [hsecond.collision_iff_of_le (by decide)]
    refine ⟨0, 30, hlit, ?_⟩
    rw [hsecond.pixel_eq, hlit]
    decide

end Chip8
