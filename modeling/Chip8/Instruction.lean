import Chip8.Arithmetic
import Chip8.Layout
import Chip8.Opcode

/-!
# Instructions

What opcodes mean: every instruction with its operands, and one constructor for
the opcodes that mean nothing.
-/

namespace Chip8

inductive Instruction where
  | clear
  | goBack
  /-- A machine code routine, which is ignored. -/
  | routine (nnn : Address)
  | jump (nnn : Address)
  | call (nnn : Address)
  | skipIfValue (x : Nibble) (nn : UInt8)
  | skipUnlessValue (x : Nibble) (nn : UInt8)
  | skipIfSame (x y : Nibble)
  | skipUnlessSame (x y : Nibble)
  | setValue (x : Nibble) (nn : UInt8)
  | addValue (x : Nibble) (nn : UInt8)
  | combine (operation : Arithmetic) (x y : Nibble)
  | setIndex (nnn : Address)
  /-- Jump to an address plus the value of V0. -/
  | jumpOffset (nnn : Address)
  /-- Load a random byte, masked with a value. -/
  | random (x : Nibble) (nn : UInt8)
  /-- Draw the sprite of `n` rows that the index points to. -/
  | draw (x y n : Nibble)
  | skipIfPin (x : Nibble)
  | skipUnlessPin (x : Nibble)
  | getDelay (x : Nibble)
  /-- Load the lowest pin that is set, or try again. -/
  | awaitPin (x : Nibble)
  | setDelay (x : Nibble)
  | setSound (x : Nibble)
  | addIndex (x : Nibble)
  | glyph (x : Nibble)
  | decimal (x : Nibble)
  | save (x : Nibble)
  | restore (x : Nibble)
  /-- An opcode without a meaning, which is ignored. -/
  | unknown (opcode : UnknownOpcode)
  deriving DecidableEq, Repr

end Chip8
