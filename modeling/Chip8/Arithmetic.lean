import Chip8.Layout

/-!
# Arithmetic

The operations that combine two registers byte by byte. Six of them also tell
which value the flag register takes.
-/

namespace Chip8

inductive Arithmetic where
  | copy
  | or
  | and
  | xor
  | add
  | subtract
  | shiftRight
  | subtractFrom
  | shiftLeft
  deriving DecidableEq, Repr

namespace Arithmetic

/-- The operation of a last nibble; six nibbles name none. -/
def ofNibble? (n : Nibble) : Option Arithmetic :=
  match n.val with
  | 0x0 => some .copy
  | 0x1 => some .or
  | 0x2 => some .and
  | 0x3 => some .xor
  | 0x4 => some .add
  | 0x5 => some .subtract
  | 0x6 => some .shiftRight
  | 0x7 => some .subtractFrom
  | 0xE => some .shiftLeft
  | _ => none

/-- The value that replaces the first operand. Sums and differences wrap. -/
def value : Arithmetic → UInt8 → UInt8 → UInt8
  | .copy, _, b => b
  | .or, a, b => a ||| b
  | .and, a, b => a &&& b
  | .xor, a, b => a ^^^ b
  | .add, a, b => a + b
  | .subtract, a, b => a - b
  | .shiftRight, a, _ => a >>> 1
  | .subtractFrom, a, b => b - a
  | .shiftLeft, a, _ => a <<< 1

/--
The flag: a carry out of a sum, a difference that needs no borrow, or the bit
that is shifted out. Equal operands need no borrow in `subtract`, but do not set
the flag in `subtractFrom`.
-/
def flag? : Arithmetic → UInt8 → UInt8 → Option Bool
  | .copy, _, _ => none
  | .or, _, _ => none
  | .and, _, _ => none
  | .xor, _, _ => none
  | .add, a, b => some (decide (a + b < a))
  | .subtract, a, b => some (decide (b ≤ a))
  | .shiftRight, a, _ => some (a &&& 1 != 0)
  | .subtractFrom, a, b => some (decide (a < b))
  | .shiftLeft, a, _ => some (a &&& 0x80 != 0)

end Arithmetic

end Chip8
