import Chip8.Display

/-!
# Frames

A frame is the text of a display: its rows joined by line breaks, and every pixel
as two blocks or two spaces. `pixelAt` reads a pixel back from its place in the
text, and `decode` the whole display.
-/

namespace Chip8.Frame

def pixelText (lit : Bool) : List Char :=
  if lit then ['█', '█'] else [' ', ' ']

def rowPixels (display : Display) (row : Fin Layout.displayHeight) : List Bool :=
  (List.finRange Layout.displayWidth).map fun column => display.get ⟨column, row⟩

def rowText (pixels : List Bool) : List Char :=
  pixels.flatMap pixelText

def rows (display : Display) : List (List Char) :=
  (List.finRange Layout.displayHeight).map fun row => rowText (rowPixels display row)

/-- The characters of the frame of a display, without a line break at the end. -/
def characters (display : Display) : List Char :=
  List.intercalate ['\n'] (rows display)

def render (display : Display) : String :=
  String.ofList (characters display)

/-- The place in a frame of the first character of a pixel: a row has 128 characters and a break. -/
def place (cell : Cell) : Nat :=
  129 * cell.row.val + 2 * cell.column.val

def pixelAt (frame : List Char) (cell : Cell) : Bool :=
  frame[place cell]? == some '█'

def decode (frame : List Char) : Display :=
  Display.ofCells (pixelAt frame)

theorem length_rowText (pixels : List Bool) : (rowText pixels).length = 2 * pixels.length := by
  induction pixels with
  | nil => rfl
  | cons pixel rest ih =>
      have two : (pixelText pixel).length = 2 := by cases pixel <;> rfl
      simp only [rowText, List.flatMap_cons, List.length_append, List.length_cons] at ih ⊢
      omega

end Chip8.Frame
