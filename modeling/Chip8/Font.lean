import Chip8.Layout

/-!
# Font

The glyphs of the hexadecimal digits, five rows of four pixels each, which a
machine holds in memory from its construction on.
-/

namespace Chip8.Font

/-- The rows of the sixteen glyphs, glyph by glyph; the pixels are in the high halves. -/
def bytes : List UInt8 :=
  [0xF0, 0x90, 0x90, 0x90, 0xF0,
   0x20, 0x60, 0x20, 0x20, 0x70,
   0xF0, 0x10, 0xF0, 0x80, 0xF0,
   0xF0, 0x10, 0xF0, 0x10, 0xF0,
   0x90, 0x90, 0xF0, 0x10, 0x10,
   0xF0, 0x80, 0xF0, 0x10, 0xF0,
   0xF0, 0x80, 0xF0, 0x90, 0xF0,
   0xF0, 0x10, 0x20, 0x40, 0x40,
   0xF0, 0x90, 0xF0, 0x90, 0xF0,
   0xF0, 0x90, 0xF0, 0x10, 0xF0,
   0xF0, 0x90, 0xF0, 0x90, 0x90,
   0xE0, 0x90, 0xE0, 0x90, 0xE0,
   0xF0, 0x80, 0x80, 0x80, 0xF0,
   0xE0, 0x90, 0x90, 0x90, 0xE0,
   0xF0, 0x80, 0xF0, 0x80, 0xF0,
   0xF0, 0x80, 0xF0, 0x80, 0x80]

def address (glyph : Nibble) : Nat :=
  Layout.fontStart + Layout.glyphSize * glyph.val

def glyph (digit : Nibble) : List UInt8 :=
  (bytes.drop (Layout.glyphSize * digit.val)).take Layout.glyphSize

theorem length_bytes : bytes.length = Layout.fontSize := rfl

end Chip8.Font
