import Chip8.Proofs.Cycle

/-! # Drawing

A sprite lists every cell that it covers once. So drawing it is an exclusive or of the
display with the sprite, pixel by pixel, and the cells may be toggled one after the other
while the flag records the first that was lit.
-/

namespace Chip8

namespace Sprite

theorem nodup_rowCells (column row : Nat) (bits : UInt8) : (rowCells column row bits).Nodup := by
  apply List.Pairwise.filterMap _ _ List.nodup_range
  intro offset offset' apart cell found cell' found' same
  have place : ∀ {k : Nat} {c : Cell},
      (if lit bits k then Cell.locate? (column + k) row else none) = some c →
        c.column.val = column + k := by
    intro k c located
    split at located
    · exact (Cell.locate?_eq_some_iff.mp located).1
    · cases located
  have columns := (place found).symm.trans (same ▸ place found')
  exact apart (Nat.add_left_cancel columns)

theorem nodup_cells (column row : Nat) (rows : List UInt8) : (cells column row rows).Nodup := by
  induction rows generalizing row with
  | nil => exact List.nodup_nil
  | cons bits rest ih =>
      refine List.nodup_append.mpr ⟨nodup_rowCells column row bits, ih (row + 1), ?_⟩
      -- The first row of the sprite and the rows below it are in different rows.
      rintro cell inRow _ below rfl
      have top := (mem_rowCells_iff.mp inRow).1
      have covered := mem_cells_iff.mp below
      simp only [covers, Bool.and_eq_true, decide_eq_true_eq] at covered
      omega

/-- A row beyond the right or the bottom edge has no cells. -/
theorem locate?_eq_none {column row : Nat} (beyond : 64 ≤ column ∨ 32 ≤ row) :
    Cell.locate? column row = none := by
  apply dif_neg
  rintro ⟨inColumns, inRows⟩
  exact beyond.elim (Nat.not_le_of_lt inColumns) (Nat.not_le_of_lt inRows)

theorem cells_of_below {column row : Nat} (below : 32 ≤ row) (rows : List UInt8) :
    cells column row rows = [] := by
  apply List.eq_nil_iff_forall_not_mem.mpr
  intro cell listed
  have covered := mem_cells_iff.mp listed
  have := cell.row_lt
  simp only [covers, Bool.and_eq_true, decide_eq_true_eq] at covered
  omega

end Sprite

namespace Display

/-- Drawn over a display, a sprite inverts the pixels that it covers. -/
theorem get_toggleAll_cells (display : Display) (column row : Nat) (rows : List UInt8)
    (cell : Cell) :
    (display.toggleAll (Sprite.cells column row rows)).get cell =
      (display.get cell ^^ Sprite.covers column row rows cell) := by
  rw [get_toggleAll, (Sprite.nodup_cells column row rows).count]
  by_cases covered : cell ∈ Sprite.cells column row rows
  · simp [covered, Sprite.mem_cells_iff.mp covered]
  · have spared : Sprite.covers column row rows cell = false :=
      Bool.eq_false_iff.mpr fun covers => covered (Sprite.mem_cells_iff.mpr covers)
    simp [covered, spared]

end Display

theorem Machine.get_drawSprite (machine : Machine) (x y : Nibble) (rows : List UInt8)
    (cell : Cell) :
    (machine.drawSprite x y rows).display.get cell =
      (machine.display.get cell ^^
        Sprite.covers ((machine.registers.get x).toNat % 64) ((machine.registers.get y).toNat % 32)
          rows cell) :=
  machine.display.get_toggleAll_cells _ _ rows cell

/-! ## Cell by cell -/

theorem Registers.setFlag_setFlag (registers : Registers) (first second : Bool) :
    (registers.setFlag first).setFlag second = registers.setFlag second := by
  apply ext_get
  intro r
  simp only [setFlag, get_set]
  split <;> rfl

/-- A toggled cell changes no collision with the others. -/
theorem Sprite.collides_toggle {cell : Cell} {cells : List Cell} (apart : cell ∉ cells)
    (display : Display) : collides (display.toggle cell) cells = collides display cells := by
  have same : ∀ other ∈ cells, (display.toggle cell).get other = display.get other := by
    intro other listed
    have different : other ≠ cell := fun equal => apart (equal ▸ listed)
    simp [Display.get_toggle, different]
  rw [Bool.eq_iff_iff, collides, collides, List.any_eq_true, List.any_eq_true]
  constructor
  · rintro ⟨other, listed, lit⟩
    exact ⟨other, listed, same other listed ▸ lit⟩
  · rintro ⟨other, listed, lit⟩
    exact ⟨other, listed, (same other listed).trans lit⟩

namespace Machine

def touch (machine : Machine) (cell : Cell) : Machine :=
  { machine with
    display := machine.display.toggle cell
    registers :=
      if machine.display.get cell then machine.registers.setFlag true else machine.registers }

theorem foldl_touch {cells : List Cell} (distinct : cells.Nodup) (machine : Machine) :
    cells.foldl touch machine =
      { machine with
        display := machine.display.toggleAll cells
        registers :=
          if Sprite.collides machine.display cells then machine.registers.setFlag true
          else machine.registers } := by
  induction cells generalizing machine with
  | nil => rfl
  | cons first rest ih =>
      obtain ⟨apart, distinct⟩ := List.nodup_cons.mp distinct
      rw [List.foldl_cons, ih distinct]
      have hit : Sprite.collides machine.display (first :: rest) =
          (machine.display.get first || Sprite.collides machine.display rest) := List.any_cons
      simp only [touch, Sprite.collides_toggle apart, hit]
      cases machine.display.get first with
      | false => rfl
      | true =>
          simp only [if_true, Bool.true_or, Registers.setFlag_setFlag, ite_self]
          rfl

/-- A sprite may be drawn cell by cell on a machine whose flag is clear. -/
theorem drawSprite_eq_foldl (machine : Machine) (x y : Nibble) (rows : List UInt8) :
    machine.drawSprite x y rows =
      (Sprite.cells ((machine.registers.get x).toNat % 64) ((machine.registers.get y).toNat % 32)
        rows).foldl touch { machine with registers := machine.registers.setFlag false } := by
  rw [foldl_touch (Sprite.nodup_cells _ _ rows), drawSprite]
  simp only [Registers.setFlag_setFlag]
  cases Sprite.collides machine.display _ <;> rfl

end Machine

end Chip8
