/-!
# Machine layout

The fixed numbers of a CHIP-8 machine: the sizes of its parts, the addresses at
which the font and the program stand, and the types that hold half a byte and
an address written in an opcode.
-/

namespace Chip8

/-- Half a byte: the number of a register, of an input pin or of an instruction class. -/
abbrev Nibble := Fin 16

namespace Nibble

-- Numerals that denote half bytes rest on this instance; its zero is spelled out so that
-- they are the same numerals under every import.
instance neZero : @NeZero Nat Zero.ofOfNat0 16 :=
  ⟨by decide⟩

theorem val_lt (nibble : Nibble) : nibble.val < 16 :=
  nibble.isLt

def high (value : UInt8) : Nibble :=
  ⟨value.toNat / 16, Nat.div_lt_of_lt_mul value.toNat_lt⟩

def low (value : UInt8) : Nibble :=
  ⟨value.toNat % 16, Nat.mod_lt value.toNat (by decide)⟩

@[simp] theorem val_high (value : UInt8) : (high value).val = value.toNat / 16 :=
  rfl

@[simp] theorem val_low (value : UInt8) : (low value).val = value.toNat % 16 :=
  rfl

end Nibble

/-- An address of three hexadecimal digits, which always lies inside memory. -/
abbrev Address := Fin 4096

namespace Layout

def memorySize : Nat := 4096

/-- The address at which programs are loaded and started. -/
def programStart : Nat := 0x200

def programCapacity : Nat := memorySize - programStart

def fontStart : Nat := 0x50

def glyphSize : Nat := 5

def fontSize : Nat := 16 * glyphSize

-- Sizes that stand in types are reducible, so that an index is bounded by a number.
abbrev displayWidth : Nat := 64

abbrev displayHeight : Nat := 32

abbrev pixelCount : Nat := displayWidth * displayHeight

abbrev registerCount : Nat := 16

/-- The register that receives carries, borrows and collisions. -/
def flagRegister : Nibble := 15

abbrev pinCount : Nat := 16

def tickMillis : Nat := 1000

/-- A program that is not too large ends inside memory. -/
theorem program_fits {size : Nat} (fits : size ≤ programCapacity) :
    programStart + size ≤ 4096 := by
  simp only [programCapacity, memorySize, programStart] at fits ⊢
  omega

end Layout

def Address.word (address : Address) : UInt16 :=
  UInt16.ofNat address.val

@[simp] theorem Address.toNat_word (address : Address) : address.word.toNat = address.val := by
  have := address.isLt
  simp only [Address.word, UInt16.toNat_ofNat']
  omega

end Chip8
