import Chip8.Display.Frame

/-! # Frames show their display

A frame is its 32 rows with a line break between each two, so it splits at the line breaks
into these rows and nothing else. As all rows have the same length, every pixel has a place
of its own in the whole frame, and a reader who looks there finds the display again.
-/

namespace Chip8.Frame

def mark (lit : Bool) : Char :=
  if lit then '█' else ' '

theorem pixelText_eq (lit : Bool) : pixelText lit = [mark lit, mark lit] := by
  cases lit <;> rfl

/-! ## Rows -/

theorem getElem?_rowText (pixels : List Bool) (k : Nat) :
    (rowText pixels)[2 * k]? = pixels[k]?.map mark ∧
      (rowText pixels)[2 * k + 1]? = pixels[k]?.map mark := by
  induction pixels generalizing k with
  | nil => exact ⟨rfl, rfl⟩
  | cons pixel rest ih =>
      have split : rowText (pixel :: rest) = mark pixel :: mark pixel :: rowText rest := by
        rw [rowText, List.flatMap_cons, pixelText_eq]
        rfl
      rw [split]
      cases k with
      | zero => exact ⟨rfl, rfl⟩
      | succ k => exact ih k

theorem newline_notMem_rowText (pixels : List Bool) : '\n' ∉ rowText pixels := by
  intro listed
  obtain ⟨lit, -, inText⟩ := List.mem_flatMap.mp listed
  cases lit <;> simp [pixelText] at inText

theorem getElem?_rowPixels (display : Display) (column : Fin Layout.displayWidth)
    (row : Fin Layout.displayHeight) :
    (rowPixels display row)[column.val]? = some (display.get ⟨column, row⟩) := by
  simp [rowPixels]

theorem getElem?_rows (display : Display) (row : Fin Layout.displayHeight) :
    (rows display)[row.val]? = some (rowText (rowPixels display row)) := by
  simp [rows]

theorem length_rows (display : Display) : (rows display).length = 32 := by
  simp [rows]

theorem length_of_mem_rows {display : Display} {line : List Char} (listed : line ∈ rows display) :
    line.length = 128 := by
  obtain ⟨row, -, rfl⟩ := List.mem_map.mp listed
  rw [length_rowText, rowPixels, List.length_map, List.length_finRange]
  rfl

theorem newline_notMem_of_mem_rows {display : Display} {line : List Char}
    (listed : line ∈ rows display) : '\n' ∉ line := by
  obtain ⟨row, -, rfl⟩ := List.mem_map.mp listed
  exact newline_notMem_rowText _

/-! ## The whole frame -/

/-- Where lines of one width are joined by a separator, each character of a line stands behind
all the lines before and their separators. -/
theorem getElem?_intercalate {α : Type} {lines : List (List α)} {width column : Nat}
    (even : ∀ line ∈ lines, line.length = width) (inside : column < width) (separator : α)
    (row : Nat) :
    ([separator].intercalate lines)[(width + 1) * row + column]? =
      lines[row]?.bind fun piece => piece[column]? := by
  induction lines generalizing row with
  | nil => rfl
  | cons line rest ih =>
      have wide : line.length = width := even line List.mem_cons_self
      have evenRest : ∀ later ∈ rest, later.length = width := fun later listed =>
        even later (List.mem_cons_of_mem line listed)
      cases rest with
      | nil =>
          rw [List.intercalate_singleton]
          cases row with
          | zero => simp
          | succ row =>
              rw [List.getElem?_eq_none (by rw [wide, Nat.mul_succ]; omega)]
              rfl
      | cons next others =>
          rw [List.intercalate_cons_cons, List.append_assoc, List.singleton_append]
          cases row with
          | zero =>
              rw [Nat.mul_zero, Nat.zero_add,
                List.getElem?_append_left (by rw [wide]; exact inside)]
              rfl
          | succ row =>
              have behind : (width + 1) * (row + 1) + column =
                  line.length + ((width + 1) * row + column + 1) := by
                rw [wide, Nat.mul_succ]
                omega
              rw [behind, List.getElem?_append_right (Nat.le_add_right _ _),
                Nat.add_sub_cancel_left, List.getElem?_cons_succ, ih evenRest]
              rfl

theorem splitOn_characters (display : Display) :
    (characters display).splitOn '\n' = rows display := by
  have some : rows display ≠ [] := List.ne_nil_of_length_pos (by rw [length_rows]; decide)
  exact List.splitOn_intercalate '\n' (fun _ => newline_notMem_of_mem_rows) some

theorem getElem?_place (display : Display) (cell : Cell) :
    (characters display)[place cell]? = some (mark (display.get cell)) := by
  have inside : 2 * cell.column.val < 128 := by
    have := cell.column_lt
    omega
  have even : ∀ line ∈ rows display, line.length = 128 := fun _ => length_of_mem_rows
  have found := getElem?_intercalate even inside '\n' cell.row.val
  rw [getElem?_rows, Option.bind_some, (getElem?_rowText _ _).1, getElem?_rowPixels] at found
  exact found

theorem decode_characters (display : Display) : decode (characters display) = display := by
  apply Display.ext_get
  intro cell
  rw [decode, Display.get_ofCells, pixelAt, getElem?_place]
  cases display.get cell <;> rfl

/-- No line break ends a list whose last line is not empty. -/
theorem getLast?_ne_of_splitOn {text : List Char}
    (full : ∀ line ∈ text.splitOn '\n', line ≠ []) : text.getLast? ≠ some '\n' := by
  intro ends
  obtain ⟨front, rfl⟩ := List.getLast?_eq_some_iff.mp ends
  rw [List.splitOn_append_cons_self, List.splitOn_nil] at full
  exact full [] (List.mem_append_right _ List.mem_cons_self) rfl

/-- A frame splits at its line breaks into 32 lines of 128 characters and has no line break at
its end. The line of a row has two blocks for each pixel that is lit and two spaces for each
other one, at twice the column of the pixel. So a reader who looks at these places recovers the
display, and no other display has the same frame. -/
theorem frames_show_their_display (display : Display) :
    let frame := (render display).toList
    let lines := frame.splitOn '\n'
    lines.length = 32 ∧ (∀ line ∈ lines, line.length = 128) ∧ frame.getLast? ≠ some '\n' ∧
    (∀ (column : Fin 64) (row : Fin 32), ∃ lit shown,
      display.pixels[row.val * 64 + column.val]? = some lit ∧ lines[row.val]? = some shown ∧
      shown[2 * column.val]? = some (mark lit) ∧ shown[2 * column.val + 1]? = some (mark lit)) ∧
    decode frame = display ∧
    ∀ other, render display = render other ↔ display = other := by
  intro frame lines
  have text : frame = characters display := String.toList_ofList
  have split : lines = rows display := by
    rw [← splitOn_characters, ← text]
  have even : ∀ line ∈ lines, line.length = 128 := by
    rw [split]
    exact fun _ => length_of_mem_rows
  refine ⟨by rw [split, length_rows], even, ?_, ?_, ?_, ?_⟩
  · apply getLast?_ne_of_splitOn
    intro line listed none
    have := even line listed
    rw [none] at this
    cases this
  · intro column row
    refine ⟨display.get ⟨column, row⟩, rowText (rowPixels display row), ?_, ?_, ?_, ?_⟩
    · exact Vector.getElem?_eq_getElem (Cell.index ⟨column, row⟩).isLt
    · rw [split, getElem?_rows]
    · rw [(getElem?_rowText _ _).1, getElem?_rowPixels]
      rfl
    · rw [(getElem?_rowText _ _).2, getElem?_rowPixels]
      rfl
  · rw [text, decode_characters]
  · intro other
    constructor
    · intro same
      have decoded := congrArg (fun text => decode text.toList) same
      simpa only [render, String.toList_ofList, decode_characters] using decoded
    · intro same
      rw [same]

def litAtEdge : Display :=
  Display.ofCells fun cell => cell.column.val == 63 && cell.row.val == 1

theorem edge_ends_second_line :
    ∃ shown, ((render litAtEdge).toList.splitOn '\n')[1]? = some shown ∧ shown.length = 128 ∧
      shown[126]? = some '█' ∧ shown[127]? = some '█' ∧ render litAtEdge ≠ render .blank := by
  obtain ⟨-, even, -, marks, -, injective⟩ := frames_show_their_display litAtEdge
  obtain ⟨lit, shown, pixel, found, first, second⟩ := marks 63 1
  have isLit : litAtEdge.get ⟨63, 1⟩ = true := Display.get_ofCells _ _
  obtain rfl : litAtEdge.get ⟨63, 1⟩ = lit :=
    Option.some.inj ((Vector.getElem?_eq_getElem (Cell.index ⟨63, 1⟩).isLt).symm.trans pixel)
  rw [isLit] at first second
  refine ⟨shown, found, even shown (List.mem_of_getElem? found), first, second, ?_⟩
  rw [ne_eq, injective]
  intro same
  rw [same] at isLit
  have isDark : Display.blank.get ⟨63, 1⟩ = false := by simp [Display.blank, Display.get]
  exact Bool.noConfusion (isDark.symm.trans isLit)

end Chip8.Frame
