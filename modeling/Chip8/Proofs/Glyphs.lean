import Chip8.Proofs.Drawing
import Chip8.Proofs.Footprint
import Chip8.Proofs.Runs

/-! # Glyphs

The font is in memory from the construction of a console on. Loads, the host and all
instructions but those that store into it leave it there, and as long as it is there
every register shows the glyph of its low half.
-/

namespace Chip8

/-! ## The place of the font -/

namespace Font

def span : Span :=
  ⟨Layout.fontStart, Layout.fontSize, by decide⟩

theorem address_fits (digit : Nibble) : address digit + Layout.glyphSize ≤ 4096 := by
  have small := digit.val_lt
  simp only [address, Layout.fontStart, Layout.glyphSize]
  omega

def glyphSpan (digit : Nibble) : Span :=
  ⟨address digit, Layout.glyphSize, address_fits digit⟩

end Font

/-- The font is in memory, byte by byte where a fresh machine has it. -/
def Machine.HoldsFont (machine : Machine) : Prop :=
  machine.memory.read Font.span = Font.bytes

theorem Machine.read_glyph {machine : Machine} (holds : machine.HoldsFont) (digit : Nibble) :
    machine.memory.read (Font.glyphSpan digit) = Font.glyph digit := by
  have small := digit.val_lt
  have inside : Layout.glyphSize * digit.val + (Font.glyphSpan digit).size ≤ Font.span.size := by
    simp only [Font.glyphSpan, Font.span, Layout.fontSize, Layout.glyphSize]
    omega
  rw [machine.memory.read_within Font.span (Font.glyphSpan digit) rfl inside, holds]
  rfl

theorem Machine.fresh_holdsFont : Machine.fresh.HoldsFont := by
  have stored : (Memory.blank.store Font.span.start Font.bytes).read Font.span = Font.bytes :=
    Memory.read_store Memory.blank Font.length_bytes
  rw [HoldsFont, fresh]
  exact stored

/-! ## What spares the font -/

namespace Console

def OverwritesFont (console : Console) (random : UInt8) : Prop :=
  (console.cycle random).result = .done ∧
    ∃ address, Font.span.start ≤ address ∧ address < Font.span.stop ∧
      console.machine.Stores console.machine.opcodeAtPc address

def SparesFont (console : Console) (operations : List Operation) : Prop :=
  ∀ earlier random later, operations = earlier ++ .cycle random :: later →
    ¬ (console.after earlier).OverwritesFont random

theorem sparesFont_nil (console : Console) : console.SparesFont [] :=
  @everyCycle_nil (fun console random => ¬ console.OverwritesFont random) console

theorem sparesFont_cons {console : Console} {operation : Operation} {rest : List Operation} :
    console.SparesFont (operation :: rest) ↔
      (∀ random, operation = .cycle random → ¬ console.OverwritesFont random) ∧
        (console.perform operation).console.SparesFont rest :=
  @everyCycle_cons (fun console random => ¬ console.OverwritesFont random) console operation rest

theorem holdsFont_of_byte {before after : Machine} (holds : before.HoldsFont)
    (same : ∀ address, Font.span.start ≤ address → address < Font.span.stop →
      after.memory.byte address = before.memory.byte address) : after.HoldsFont :=
  (Memory.read_congr same).trans holds

/-- A program is stored behind the font. -/
theorem holdsFont_load (console : Console) (holds : console.machine.HoldsFont)
    (program : List UInt8) : (console.load program).console.machine.HoldsFont := by
  by_cases fits : program.length ≤ Layout.programCapacity
  · rw [console.load_of_fits fits]
    refine holdsFont_of_byte holds fun address _ below => ?_
    have before : ¬ Layout.programStart ≤ address := by
      simp only [Font.span, Span.stop, Layout.fontStart, Layout.fontSize, Layout.glyphSize] at below
      simp only [Layout.programStart]
      omega
    rw [Memory.byte_store _ (Layout.program_fits fits), if_neg fun within => before within.1]
  · rw [console.load_of_large fits]
    exact holds

theorem holdsFont_perform {console : Console} {operation : Operation}
    (holds : console.machine.HoldsFont)
    (spares : ∀ random, operation = .cycle random → ¬ console.OverwritesFont random) :
    (console.perform operation).console.machine.HoldsFont := by
  cases operation with
  | load program => exact holdsFont_load console holds program
  | cycle random =>
      refine holdsFont_of_byte holds fun address low high => byte_cycle fun succeeded stores => ?_
      exact spares random rfl ⟨succeeded, address, low, high, stores⟩
  | setPin pin value =>
      simp only [perform, setPin]
      split <;> exact holds
  | _ => exact holds

theorem holdsFont_after {console : Console} {operations : List Operation}
    (holds : console.machine.HoldsFont) (spares : console.SparesFont operations) :
    (console.after operations).machine.HoldsFont := by
  induction operations generalizing console with
  | nil => exact holds
  | cons operation rest ih =>
      obtain ⟨first, later⟩ := sparesFont_cons.mp spares
      exact ih (holdsFont_perform holds first) later

end Console

theorem Constructed.holdsFont {start : Report} (constructed : Constructed start) :
    start.console.machine.HoldsFont := by
  cases constructed with
  | create => exact Machine.fresh_holdsFont
  | withProgram program report accepted =>
      rw [Console.withProgram_eq_ok accepted]
      exact Console.create.holdsFont_load Machine.fresh_holdsFont program

/-! ## Showing a glyph -/

theorem Font.toNat_address (digit : Nibble) :
    (UInt16.ofNat (address digit)).toNat = address digit := by
  have fits := address_fits digit
  rw [UInt16.toNat_ofNat', Nat.mod_eq_of_lt (by omega)]

namespace Console

theorem point_to_glyph (console : Console) (x : Nibble) (random : UInt8) :
    (console.execute ⟨0xF, x, 0x2, 0x9⟩ random).result = .done ∧
    (console.execute ⟨0xF, x, 0x2, 0x9⟩ random).console.machine =
      { console.machine with
        index := UInt16.ofNat (Font.address (.low (console.machine.registers.get x))) } := by
  have fits : console.machine.Fits (.glyph x) := Machine.fits_of_no_reach rfl
  exact ⟨execute_result_of_fits fits random, console.execute_machine ⟨0xF, x, 0x2, 0x9⟩ random⟩

/-- Where the index points to a glyph, drawing five rows shows that glyph. -/
theorem draw_glyph {console : Console} (holds : console.machine.HoldsFont) {digit : Nibble}
    (points : console.machine.index.toNat = Font.address digit) (a b : Nibble) (random : UInt8) :
    (console.execute ⟨0xD, a, b, 0x5⟩ random).result = .done ∧
    ∀ cell, (console.execute ⟨0xD, a, b, 0x5⟩ random).console.machine.display.get cell =
      (console.machine.display.get cell ^^
        Sprite.covers ((console.machine.registers.get a).toNat % 64)
          ((console.machine.registers.get b).toNat % 32) (Font.glyph digit) cell) := by
  have fits : console.machine.Fits (.draw a b 0x5) := by
    apply Machine.fits_of_reach rfl
    rw [points]
    exact Font.address_fits digit
  have rows : console.machine.bytesAtIndex 5 = Font.glyph digit := by
    rw [Machine.bytesAtIndex, points]
    exact Machine.read_glyph holds digit
  refine ⟨execute_result_of_fits fits random, fun cell => ?_⟩
  have drawn : (console.machine.execute random (.draw a b 0x5)).machine.display =
      (console.machine.drawSprite a b (console.machine.bytesAtIndex 5)).display :=
    (Machine.execute_spec fits random).display
  rw [execute_machine, Opcode.instruction_of_draw rfl, drawn, rows, Machine.get_drawSprite]

end Console

/-- In every run that spares the font it stays in memory, and after every such run pointing
the index to the glyph of a register and drawing five rows at two registers inverts exactly
the pixels of that glyph there. -/
theorem font_survives {start : Report} {operations : List Operation}
    (constructed : Constructed start) (spares : start.console.SparesFont operations) :
    let console := start.console.after operations
    console.machine.HoldsFont ∧
    ∀ (x a b : Nibble) (random again : UInt8),
      let pointed := console.execute ⟨0xF, x, 0x2, 0x9⟩ random
      let drawn := pointed.console.execute ⟨0xD, a, b, 0x5⟩ again
      pointed.result = .done ∧ drawn.result = .done ∧
      ∀ cell, drawn.console.machine.display.get cell =
        (console.machine.display.get cell ^^
          Sprite.covers ((console.machine.registers.get a).toNat % 64)
            ((console.machine.registers.get b).toNat % 32)
            (Font.glyph (.low (console.machine.registers.get x))) cell) := by
  intro console
  have holds : console.machine.HoldsFont :=
    Console.holdsFont_after constructed.holdsFont spares
  refine ⟨holds, fun x a b random again => ?_⟩
  obtain ⟨pointed, machine⟩ := console.point_to_glyph x random
  -- Pointing changes the index alone: the font, the registers and the display are still there.
  have stillHolds : (console.execute ⟨0xF, x, 0x2, 0x9⟩ random).console.machine.HoldsFont := by
    rw [machine]
    exact holds
  have points : (console.execute ⟨0xF, x, 0x2, 0x9⟩ random).console.machine.index.toNat =
      Font.address (.low (console.machine.registers.get x)) := by
    rw [machine]
    exact Font.toNat_address _
  obtain ⟨drawn, shows⟩ := Console.draw_glyph stillHolds points a b again
  rw [machine] at shows
  exact ⟨pointed, drawn, shows⟩

def storingBehindFont : List Operation :=
  [.load [0xA0, 0xA0, 0xF1, 0x55], .cycle 0, .cycle 0]

theorem storing_behind_font_spares_it :
    Constructed (Console.quiet .create) ∧ Console.create.SparesFont storingBehindFont ∧
      (Console.create.after storingBehindFont).machine.HoldsFont := by
  have spared : ∀ (console : Console) (random : UInt8),
      console.machine.opcodeAtPc.kind ≠ 0xF ∨ 0xA0 ≤ console.machine.index.toNat →
        ¬ console.OverwritesFont random := by
    rintro console random (other | behind) ⟨-, address, -, below, kind, above, -⟩
    · exact other kind
    · exact Nat.lt_irrefl _ (Nat.lt_of_lt_of_le below (Nat.le_trans behind above))
  have spares : Console.create.SparesFont storingBehindFont := by
    simp only [storingBehindFont, Console.sparesFont_cons]
    refine ⟨fun random isCycle => (by cases isCycle),
      fun random _ => spared _ random (by decide +kernel),
      fun random _ => spared _ random (by decide +kernel), Console.sparesFont_nil _⟩
  exact ⟨.create, spares, (font_survives .create spares).1⟩

end Chip8
