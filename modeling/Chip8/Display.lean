import Chip8.Layout

/-!
# Display

The grid of 64 by 32 pixels, seen through `get`. Pixels are kept row after row;
`Cell.index_inj` says that no two cells share a place.
-/

namespace Chip8

/-- The place of a pixel, counted from the top left corner. -/
@[ext] structure Cell where
  column : Fin Layout.displayWidth
  row : Fin Layout.displayHeight
  deriving DecidableEq, Repr

namespace Cell

theorem column_lt (cell : Cell) : cell.column.val < 64 :=
  cell.column.isLt

theorem row_lt (cell : Cell) : cell.row.val < 32 :=
  cell.row.isLt

theorem index_lt (cell : Cell) : cell.row.val * 64 + cell.column.val < 2048 := by
  have := cell.column_lt
  have := cell.row_lt
  omega

/-- The place of a cell in the row-major order of the display. -/
def index (cell : Cell) : Fin Layout.pixelCount :=
  ⟨cell.row.val * Layout.displayWidth + cell.column.val, cell.index_lt⟩

def locate? (column row : Nat) : Option Cell :=
  if within : column < Layout.displayWidth ∧ row < Layout.displayHeight then
    some ⟨⟨column, within.1⟩, ⟨row, within.2⟩⟩
  else
    none

def ofIndex (index : Fin Layout.pixelCount) : Cell :=
  ⟨⟨index.val % Layout.displayWidth, Nat.mod_lt _ (by decide)⟩,
    ⟨index.val / Layout.displayWidth, Nat.div_lt_of_lt_mul index.isLt⟩⟩

@[simp] theorem ofIndex_index (cell : Cell) : ofIndex cell.index = cell := by
  ext
  · exact Nat.mul_add_mod_of_lt cell.column_lt
  · have := cell.column_lt
    show (cell.row.val * 64 + cell.column.val) / 64 = cell.row.val
    omega

@[simp] theorem index_ofIndex (place : Fin Layout.pixelCount) : (ofIndex place).index = place :=
  Fin.ext (Nat.div_add_mod' place.val Layout.displayWidth)

theorem index_inj {left right : Cell} (h : left.index = right.index) : left = right := by
  rw [← ofIndex_index left, h, ofIndex_index]

theorem locate?_eq_some_iff {column row : Nat} {cell : Cell} :
    locate? column row = some cell ↔ cell.column.val = column ∧ cell.row.val = row := by
  unfold locate?
  constructor
  · intro h
    split at h
    · cases h
      exact ⟨rfl, rfl⟩
    · cases h
  · rintro ⟨rfl, rfl⟩
    rw [dif_pos ⟨cell.column.isLt, cell.row.isLt⟩]

end Cell

@[ext] structure Display where
  pixels : Vector Bool Layout.pixelCount
  deriving DecidableEq

namespace Display

def blank : Display :=
  ⟨Vector.replicate Layout.pixelCount false⟩

def get (display : Display) (cell : Cell) : Bool :=
  display.pixels[cell.index]

def ofCells (lit : Cell → Bool) : Display :=
  ⟨Vector.ofFn fun place => lit (Cell.ofIndex place)⟩

def set (display : Display) (cell : Cell) (lit : Bool) : Display :=
  ⟨display.pixels.set cell.index lit⟩

def toggle (display : Display) (cell : Cell) : Display :=
  display.set cell (!display.get cell)

def toggleAll (display : Display) (cells : List Cell) : Display :=
  cells.foldl toggle display

@[simp] theorem get_blank (cell : Cell) : blank.get cell = false := by
  simp [blank, get]

@[simp] theorem get_ofCells (lit : Cell → Bool) (cell : Cell) :
    (ofCells lit).get cell = lit cell := by
  have h := Cell.ofIndex_index cell
  simp only [ofCells, get, Fin.getElem_fin, Vector.getElem_ofFn]
  rw [h]

theorem get_set (display : Display) (cell : Cell) (lit : Bool) (other : Cell) :
    (display.set cell lit).get other = if other = cell then lit else display.get other := by
  by_cases same : other = cell
  · subst same
    simp [set, get]
  · have apart : cell.index.val ≠ other.index.val := fun h =>
      same (Cell.index_inj (Fin.ext h)).symm
    simp [set, get, same, apart]

theorem get_toggle (display : Display) (cell other : Cell) :
    (display.toggle cell).get other = (display.get other ^^ decide (other = cell)) := by
  by_cases same : other = cell
  · subst same
    simp [toggle, get_set]
  · simp [toggle, get_set, same]

theorem get_toggleAll (display : Display) (cells : List Cell) (cell : Cell) :
    (display.toggleAll cells).get cell =
      (display.get cell ^^ decide (cells.count cell % 2 = 1)) := by
  induction cells generalizing display with
  | nil => simp [toggleAll]
  | cons first rest ih =>
      have step := ih (display.toggle first)
      simp only [toggleAll, List.foldl_cons] at step ⊢
      rw [step, get_toggle, List.count_cons]
      by_cases same : cell = first
      · subst same
        rcases Nat.mod_two_eq_zero_or_one (rest.count cell) with h | h <;>
          simp [h, Nat.add_mod]
      · have apart : ¬ first = cell := fun h => same h.symm
        simp [same, apart]

theorem ext_get {left right : Display} (same : ∀ cell, left.get cell = right.get cell) :
    left = right := by
  apply Display.ext
  apply Vector.ext
  intro i h
  simpa only [get, Cell.index_ofIndex, Fin.getElem_fin] using same (Cell.ofIndex ⟨i, h⟩)

end Display

end Chip8
