import Chip8.Proofs.Decoding
import Chip8.Proofs.Drawing

/-! # Drawn sprites

What a successful draw leaves, pixel by pixel: the display before it, inverted where the
sprite has a bit set, and the flag that tells whether such a pixel was lit. The sprite starts
on the display and is cut off at the right and the bottom edge.
-/

namespace Chip8

namespace Machine

/-- The bit of a cell is set in the sprite of `n` rows that the index points to, if its top
left corner is at the place that two registers give. -/
def Sets (machine : Machine) (x y n : Nibble) (cell : Cell) : Prop :=
  let left := (machine.registers.get x).toNat % 64
  let top := (machine.registers.get y).toNat % 32
  left ≤ cell.column.val ∧ cell.column.val < left + 8 ∧
    top ≤ cell.row.val ∧ cell.row.val < top + n.val ∧
    (machine.memory.byte (machine.index.toNat + (cell.row.val - top))).toNat.testBit
      (7 - (cell.column.val - left)) = true

instance (machine : Machine) (x y n : Nibble) (cell : Cell) :
    Decidable (machine.Sets x y n cell) :=
  inferInstanceAs (Decidable (_ ∧ _))

theorem covers_bytesAtIndex_iff {machine : Machine} {x y n : Nibble} {cell : Cell} :
    Sprite.covers ((machine.registers.get x).toNat % 64) ((machine.registers.get y).toNat % 32)
        (machine.bytesAtIndex n.val) cell = true ↔ machine.Sets x y n cell := by
  simp only [Sprite.covers, Sprite.lit, Sets, length_bytesAtIndex, Bool.and_eq_true,
    decide_eq_true_eq, and_assoc]
  -- Up to here both sides are the same; the row's byte is looked up only inside the sprite.
  constructor
  · rintro ⟨left, right, top, bottom, lit⟩
    rw [machine.getD_bytesAtIndex (by omega)] at lit
    exact ⟨left, right, top, bottom, lit⟩
  · rintro ⟨left, right, top, bottom, lit⟩
    refine ⟨left, right, top, bottom, ?_⟩
    rw [machine.getD_bytesAtIndex (by omega)]
    exact lit

/-- A draw has inverted the pixels that the sprite sets, has left in the flag register
whether one of them was lit, and has changed nothing else. -/
structure Drawn (before : Machine) (x y n : Nibble) (after : Machine) : Prop where
  pixel : ∀ cell, after.display.get cell =
    (before.display.get cell ^^ decide (before.Sets x y n cell))
  hit : after.registers.get Layout.flagRegister = 1 ↔
    ∃ cell, before.Sets x y n cell ∧ before.display.get cell = true
  missed : after.registers.get Layout.flagRegister = 0 ↔
    ∀ cell, before.Sets x y n cell → before.display.get cell = false
  registers : ∀ r, r ≠ Layout.flagRegister → after.registers.get r = before.registers.get r
  rest : after = { before with display := after.display, registers := after.registers }
  /-- Row after row, the pixels that change are those in the columns and rows of the sprite. -/
  inPlace : ∀ place : Fin 2048, after.display.pixels[place] ≠ before.display.pixels[place] →
    (before.registers.get x).toNat % 64 ≤ place.val % 64 ∧
      place.val % 64 < (before.registers.get x).toNat % 64 + 8 ∧
      (before.registers.get y).toNat % 32 ≤ place.val / 64 ∧
      place.val / 64 < (before.registers.get y).toNat % 32 + n.val

theorem execute_draw {machine : Machine} {x y n : Nibble} (fits : machine.Fits (.draw x y n))
    (random : UInt8) :
    machine.execute random (.draw x y n) =
      ⟨machine.drawSprite x y (machine.bytesAtIndex n.val), none, [], true⟩ := by
  rw [execute, withSpan_of_fits _ (fits _ rfl), read_eq_bytesAtIndex]

theorem get_display_drawSprite (machine : Machine) (x y n : Nibble) (cell : Cell) :
    (machine.drawSprite x y (machine.bytesAtIndex n.val)).display.get cell =
      (machine.display.get cell ^^ decide (machine.Sets x y n cell)) := by
  rw [get_drawSprite]
  congr 1
  rw [Bool.eq_iff_iff, covers_bytesAtIndex_iff, decide_eq_true_eq]

theorem collides_iff (machine : Machine) (x y n : Nibble) :
    Sprite.collides machine.display
        (Sprite.cells ((machine.registers.get x).toNat % 64)
          ((machine.registers.get y).toNat % 32) (machine.bytesAtIndex n.val)) = true ↔
      ∃ cell, machine.Sets x y n cell ∧ machine.display.get cell = true := by
  simp only [Sprite.collides, List.any_eq_true, Sprite.mem_cells_iff, covers_bytesAtIndex_iff]

theorem drawn_drawSprite (machine : Machine) (x y n : Nibble) :
    machine.Drawn x y n (machine.drawSprite x y (machine.bytesAtIndex n.val)) := by
  have pixel := machine.get_display_drawSprite x y n
  have collides := machine.collides_iff x y n
  refine ⟨pixel, ?_, ?_, ?_, rfl, ?_⟩
  · rw [← collides]
    simp only [drawSprite, Registers.get_setFlag, if_true]
    cases Sprite.collides machine.display _ <;> decide
  · have none : (∀ cell, machine.Sets x y n cell → machine.display.get cell = false) ↔
        ¬ ∃ cell, machine.Sets x y n cell ∧ machine.display.get cell = true := by
      simp
    rw [none, ← collides]
    simp only [drawSprite, Registers.get_setFlag, if_true]
    cases Sprite.collides machine.display _ <;> decide
  · intro r other
    simp only [drawSprite, Registers.get_setFlag, if_neg other]
  · intro place changed
    have moved := pixel (Cell.ofIndex place)
    simp only [Display.get, Cell.index_ofIndex] at moved
    have sets : machine.Sets x y n (Cell.ofIndex place) :=
      Decidable.byContradiction fun spared => changed (by simpa [spared] using moved)
    exact ⟨sets.1, sets.2.1, sets.2.2.1, sets.2.2.2.1⟩

end Machine

namespace Console

theorem fits_of_execute_done {console : Console} {opcode : Opcode} {random : UInt8}
    (done : (console.execute opcode random).result = .done) :
    console.machine.Fits opcode.instruction := by
  rw [execute, proceed_result_eq_done_iff, Machine.perform_eq_execute] at done
  rcases console.machine.past_or_fits opcode.instruction with ⟨reach, reached, past⟩ | fits
  · rw [Machine.execute_of_past reached past] at done
    cases done
  · exact fits

theorem draw_done (console : Console) {x y n : Nibble} (random : UInt8)
    (fits : console.machine.Fits (.draw x y n)) :
    (console.execute ⟨0xD, x, y, n⟩ random).result = .done ∧
      console.machine.Drawn x y n (console.execute ⟨0xD, x, y, n⟩ random).console.machine := by
  have decoded : (⟨0xD, x, y, n⟩ : Opcode).instruction = .draw x y n :=
    Opcode.instruction_of_draw rfl
  refine ⟨execute_result_of_fits (decoded ▸ fits) random, ?_⟩
  rw [execute_machine, decoded, Machine.execute_draw fits]
  exact console.machine.drawn_drawSprite x y n

/-- A draw that succeeds inverts, pixel by pixel, what its sprite sets, tells in the flag
register whether it hit a lit pixel, and touches nothing else. What would lie beyond the
right or the bottom edge is left out. -/
theorem draw_is_pointwise {console : Console} {x y n : Nibble} {random : UInt8}
    (done : (console.execute ⟨0xD, x, y, n⟩ random).result = .done) :
    console.machine.Drawn x y n (console.execute ⟨0xD, x, y, n⟩ random).console.machine := by
  have fits := fits_of_execute_done done
  rw [execute_machine]
  rw [Opcode.instruction_of_draw rfl] at fits ⊢
  rw [Machine.execute_draw fits]
  exact console.machine.drawn_drawSprite x y n

/-- A console about to draw a row of eight pixels over the corner on the bottom right, with
the flag register as one of the coordinates and the corner lit. -/
def drawingOverCorner : Console :=
  { create with
    machine := { Machine.fresh with
      memory := Memory.blank.store 0x300 [0xC0, 0xFF, 0xFF]
      registers := (Registers.zero.set 0xF 63).set 1 63
      index := 0x300
      display := Display.blank.set ⟨63, 31⟩ true } }

theorem drawing_over_corner_is_pointwise :
    (drawingOverCorner.execute ⟨0xD, 0xF, 1, 3⟩ 0).result = .done ∧
    let drawn := (drawingOverCorner.execute ⟨0xD, 0xF, 1, 3⟩ 0).console.machine
    drawingOverCorner.machine.Drawn 0xF 1 3 drawn ∧
      drawn.registers.get Layout.flagRegister = 1 ∧ drawn.display.get ⟨63, 31⟩ = false ∧
      drawn.display.get ⟨0, 31⟩ = false ∧ drawn.display.get ⟨63, 0⟩ = false := by
  have done : (drawingOverCorner.execute ⟨0xD, 0xF, 1, 3⟩ 0).result = .done := rfl
  have drawn := draw_is_pointwise done
  have hit : drawingOverCorner.machine.Sets 0xF 1 3 ⟨63, 31⟩ := by decide +kernel
  refine ⟨done, drawn, drawn.hit.mpr ⟨⟨63, 31⟩, hit, by decide +kernel⟩, ?_, ?_, ?_⟩
  all_goals
    rw [drawn.pixel]
    decide +kernel

end Console

end Chip8
