import Chip8.Display

/-!
# Sprites

A sprite is a column of bytes, each a row of eight pixels with the leftmost pixel
in the most significant bit. Drawn at a cell it toggles the cells of its set bits
that are on the display; what would stand beyond an edge is left out. The main
statement is `mem_cells_iff`: the listed cells are those that the sprite covers.
-/

namespace Chip8.Sprite

def lit (row : UInt8) (offset : Nat) : Bool :=
  row.toNat.testBit (7 - offset)

def rowCells (column row : Nat) (bits : UInt8) : List Cell :=
  (List.range 8).filterMap fun offset =>
    if lit bits offset then Cell.locate? (column + offset) row else none

def cells (column row : Nat) : List UInt8 → List Cell
  | [] => []
  | bits :: rest => rowCells column row bits ++ cells column (row + 1) rest

/-- Whether a sprite with its top left pixel at a place sets the pixel of a cell. -/
def covers (column row : Nat) (rows : List UInt8) (cell : Cell) : Bool :=
  decide (column ≤ cell.column.val) && decide (cell.column.val < column + 8) &&
    decide (row ≤ cell.row.val) && decide (cell.row.val < row + rows.length) &&
    lit (rows.getD (cell.row.val - row) 0) (cell.column.val - column)

def collides (display : Display) (cells : List Cell) : Bool :=
  cells.any display.get

theorem mem_rowCells_iff {column row : Nat} {bits : UInt8} {cell : Cell} :
    cell ∈ rowCells column row bits ↔
      cell.row.val = row ∧ column ≤ cell.column.val ∧ cell.column.val < column + 8 ∧
        lit bits (cell.column.val - column) = true := by
  simp only [rowCells, List.mem_filterMap, List.mem_range]
  constructor
  · rintro ⟨offset, small, h⟩
    split at h
    · rename_i isLit
      obtain ⟨c, r⟩ := Cell.locate?_eq_some_iff.mp h
      refine ⟨r, by omega, by omega, ?_⟩
      rw [show cell.column.val - column = offset by omega]
      exact isLit
    · cases h
  · rintro ⟨r, low, high, isLit⟩
    refine ⟨cell.column.val - column, by omega, ?_⟩
    rw [if_pos isLit]
    exact Cell.locate?_eq_some_iff.mpr ⟨by omega, r⟩

theorem mem_cells_iff {column row : Nat} {rows : List UInt8} {cell : Cell} :
    cell ∈ cells column row rows ↔ covers column row rows cell = true := by
  induction rows generalizing row with
  | nil =>
      simp only [cells, covers, List.not_mem_nil, List.length_nil, Bool.and_eq_true,
        decide_eq_true_eq, false_iff]
      rintro ⟨⟨⟨_, low⟩, high⟩, _⟩
      omega
  | cons bits rest ih =>
      rw [cells, List.mem_append, ih, mem_rowCells_iff]
      simp only [covers, List.length_cons, Bool.and_eq_true, decide_eq_true_eq]
      by_cases top : cell.row.val = row
      · subst top
        have never : ¬ cell.row.val + 1 ≤ cell.row.val := by omega
        simp [never, and_assoc]
      · by_cases below : row + 1 ≤ cell.row.val
        · obtain ⟨k, hk⟩ : ∃ k, cell.row.val = row + 1 + k := ⟨cell.row.val - (row + 1), by omega⟩
          simp only [hk, show row + 1 + k - row = k + 1 by omega,
            show row + 1 + k - (row + 1) = k by omega, List.getD_cons_succ]
          constructor
          · rintro (⟨h, _⟩ | ⟨⟨⟨⟨a, b⟩, c⟩, d⟩, e⟩)
            · omega
            · exact ⟨⟨⟨⟨a, b⟩, by omega⟩, by omega⟩, e⟩
          · rintro ⟨⟨⟨⟨a, b⟩, c⟩, d⟩, e⟩
            exact Or.inr ⟨⟨⟨⟨a, b⟩, by omega⟩, by omega⟩, e⟩
        · constructor
          · rintro (⟨h, _⟩ | ⟨⟨⟨_, c⟩, _⟩, _⟩) <;> omega
          · rintro ⟨⟨⟨_, c⟩, _⟩, _⟩
            omega

end Chip8.Sprite
