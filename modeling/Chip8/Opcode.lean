import Chip8.Hex
import Chip8.Layout

/-!
# Opcodes

An opcode is two bytes, or four nibbles: the class of the instruction and twelve
bits of payload. The payload is read as an address, as a register and a value, or
as three operands. An opcode that turns out to mean nothing is kept as it was read.
-/

namespace Chip8

@[ext] structure Opcode where
  kind : Nibble
  x : Nibble
  y : Nibble
  n : Nibble
  deriving DecidableEq, Repr

inductive Shape where
  | address
  | registerValue
  | operands
  deriving DecidableEq, Repr

inductive Payload : Shape → Type where
  | address (nnn : Address) : Payload .address
  | registerValue (x : Nibble) (nn : UInt8) : Payload .registerValue
  | operands (x y n : Nibble) : Payload .operands
  deriving DecidableEq, Repr

namespace Opcode

/-- The opcode of two bytes, the more significant one first. -/
def ofBytes (high low : UInt8) : Opcode where
  kind := .high high
  x := .low high
  y := .high low
  n := .low low

def ofWord (word : UInt16) : Opcode where
  kind := ⟨word.toNat / 4096, by have := word.toNat_lt; omega⟩
  x := ⟨word.toNat / 256 % 16, by omega⟩
  y := ⟨word.toNat / 16 % 16, by omega⟩
  n := ⟨word.toNat % 16, by omega⟩

def address (opcode : Opcode) : Address :=
  ⟨256 * opcode.x.val + 16 * opcode.y.val + opcode.n.val, by omega⟩

/-- The last two nibbles of the payload as a byte. -/
def value (opcode : Opcode) : UInt8 :=
  UInt8.ofNat (16 * opcode.y.val + opcode.n.val)

def word (opcode : Opcode) : UInt16 :=
  UInt16.ofNat (4096 * opcode.kind.val + opcode.address.val)

def text (opcode : Opcode) : String :=
  Hex.text 4 opcode.word.toNat

def payload (opcode : Opcode) : (shape : Shape) → Payload shape
  | .address => .address opcode.address
  | .registerValue => .registerValue opcode.x opcode.value
  | .operands => .operands opcode.x opcode.y opcode.n

theorem toNat_word (opcode : Opcode) :
    opcode.word.toNat = 4096 * opcode.kind.val + opcode.address.val := by
  have := opcode.address.isLt
  simp only [word, UInt16.toNat_ofNat']
  omega

theorem toNat_value (opcode : Opcode) :
    opcode.value.toNat = 16 * opcode.y.val + opcode.n.val := by
  simp only [value, UInt8.toNat_ofNat']
  omega

theorem toNat_word_ofBytes (high low : UInt8) :
    (ofBytes high low).word.toNat = 256 * high.toNat + low.toNat := by
  rw [toNat_word]
  simp only [ofBytes, address, Nibble.val_high, Nibble.val_low]
  omega

@[simp] theorem word_ofWord (word : UInt16) : (ofWord word).word = word := by
  apply UInt16.toNat_inj.mp
  rw [toNat_word]
  simp only [ofWord, address]
  omega

@[simp] theorem ofWord_word (opcode : Opcode) : ofWord opcode.word = opcode := by
  ext <;> simp only [ofWord, toNat_word, address] <;> omega

end Opcode

/-- The word of a class and a payload. -/
def Payload.word (kind : Nibble) {shape : Shape} : Payload shape → UInt16
  | .address nnn => UInt16.ofNat (4096 * kind.val + nnn.val)
  | .registerValue x nn => UInt16.ofNat (4096 * kind.val + 256 * x.val + nn.toNat)
  | .operands x y n =>
      UInt16.ofNat (4096 * kind.val + 256 * x.val + 16 * y.val + n.val)

/-- However the payload is read, it keeps the word. -/
theorem Payload.word_payload (opcode : Opcode) (shape : Shape) :
    (opcode.payload shape).word opcode.kind = opcode.word := by
  cases shape <;>
    simp only [Opcode.payload, Payload.word, Opcode.word, Opcode.address, Opcode.toNat_value,
      Nat.add_assoc]

/-- An opcode that means nothing within its class: the digit of the class, and the payload in
the way in which the class reads it. -/
inductive UnknownOpcode where
  | operands (digit : Char) (x y n : Nibble)
  | registerValue (digit : Char) (x : Nibble) (nn : UInt8)
  deriving DecidableEq, Repr

/-- The digits that a log shows: half a byte has one, and a byte has two. -/
def UnknownOpcode.text : UnknownOpcode → String
  | .operands digit x y n =>
      String.singleton digit ++ Hex.text 1 x.val ++ Hex.text 1 y.val ++ Hex.text 1 n.val
  | .registerValue digit x nn =>
      String.singleton digit ++ Hex.text 1 x.val ++ Hex.text 2 nn.toNat

end Chip8
