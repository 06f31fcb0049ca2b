import Chip8.Fault
import Chip8.Instruction
import Chip8.Opcode

/-!
# Instruction families

The sixteen families of instructions, one for each class of opcodes. A family
reads the payload of its own class and refuses the others; `Opcode.decode` asks
the family of the class. The main statement is `Opcode.decode_eq_ok`: that family
never refuses, so every opcode has an instruction.
-/

namespace Chip8

inductive Family where
  | system
  | jump
  | call
  | skipIfValue
  | skipUnlessValue
  | skipIfSame
  | setValue
  | addValue
  | arithmetic
  | skipUnlessSame
  | setIndex
  | jumpOffset
  | random
  | draw
  | skipPin
  | peripheral
  deriving DecidableEq, Repr

namespace Family

def kind : Family → Nibble
  | .system => 0x0
  | .jump => 0x1
  | .call => 0x2
  | .skipIfValue => 0x3
  | .skipUnlessValue => 0x4
  | .skipIfSame => 0x5
  | .setValue => 0x6
  | .addValue => 0x7
  | .arithmetic => 0x8
  | .skipUnlessSame => 0x9
  | .setIndex => 0xA
  | .jumpOffset => 0xB
  | .random => 0xC
  | .draw => 0xD
  | .skipPin => 0xE
  | .peripheral => 0xF

def ofKind (kind : Nibble) : Family :=
  match kind.val with
  | 0x0 => .system
  | 0x1 => .jump
  | 0x2 => .call
  | 0x3 => .skipIfValue
  | 0x4 => .skipUnlessValue
  | 0x5 => .skipIfSame
  | 0x6 => .setValue
  | 0x7 => .addValue
  | 0x8 => .arithmetic
  | 0x9 => .skipUnlessSame
  | 0xA => .setIndex
  | 0xB => .jumpOffset
  | 0xC => .random
  | 0xD => .draw
  | 0xE => .skipPin
  | _ => .peripheral

def shape : Family → Shape
  | .system => .address
  | .jump => .address
  | .call => .address
  | .skipIfValue => .registerValue
  | .skipUnlessValue => .registerValue
  | .skipIfSame => .operands
  | .setValue => .registerValue
  | .addValue => .registerValue
  | .arithmetic => .operands
  | .skipUnlessSame => .operands
  | .setIndex => .address
  | .jumpOffset => .address
  | .random => .registerValue
  | .draw => .operands
  | .skipPin => .registerValue
  | .peripheral => .registerValue

/-- Reads an opcode of the family's class; an opcode of another class is refused. -/
def read (family : Family) (opcode : Opcode) : Except Fault (Payload family.shape) :=
  if opcode.kind = family.kind then
    .ok (opcode.payload family.shape)
  else
    .error (.wrongClass (UInt8.ofNat opcode.kind.val) (UInt8.ofNat family.kind.val))

def instruction : (family : Family) → Payload family.shape → Instruction
  | .system, .address nnn =>
      match nnn.val with
      | 0x0E0 => .clear
      | 0x0EE => .goBack
      | _ => .routine nnn
  | .jump, .address nnn => .jump nnn
  | .call, .address nnn => .call nnn
  | .skipIfValue, .registerValue x nn => .skipIfValue x nn
  | .skipUnlessValue, .registerValue x nn => .skipUnlessValue x nn
  | .skipIfSame, .operands x y n =>
      if n = 0 then .skipIfSame x y else .unknown (.operands '5' x y n)
  | .setValue, .registerValue x nn => .setValue x nn
  | .addValue, .registerValue x nn => .addValue x nn
  | .arithmetic, .operands x y n =>
      match Arithmetic.ofNibble? n with
      | some operation => .combine operation x y
      | none => .unknown (.operands '8' x y n)
  | .skipUnlessSame, .operands x y n =>
      if n = 0 then .skipUnlessSame x y else .unknown (.operands '9' x y n)
  | .setIndex, .address nnn => .setIndex nnn
  | .jumpOffset, .address nnn => .jumpOffset nnn
  | .random, .registerValue x nn => .random x nn
  | .draw, .operands x y n => .draw x y n
  | .skipPin, .registerValue x nn =>
      match nn.toNat with
      | 0x9E => .skipIfPin x
      | 0xA1 => .skipUnlessPin x
      | _ => .unknown (.registerValue 'E' x nn)
  | .peripheral, .registerValue x nn =>
      match nn.toNat with
      | 0x07 => .getDelay x
      | 0x0A => .awaitPin x
      | 0x15 => .setDelay x
      | 0x18 => .setSound x
      | 0x1E => .addIndex x
      | 0x29 => .glyph x
      | 0x33 => .decimal x
      | 0x55 => .save x
      | 0x65 => .restore x
      | _ => .unknown (.registerValue 'F' x nn)

@[simp] theorem ofKind_kind (family : Family) : ofKind family.kind = family := by
  cases family <;> rfl

@[simp] theorem kind_ofKind (kind : Nibble) : (ofKind kind).kind = kind := by
  revert kind
  decide

theorem read_eq_ok {family : Family} {opcode : Opcode} (same : opcode.kind = family.kind) :
    family.read opcode = .ok (opcode.payload family.shape) :=
  if_pos same

end Family

namespace Opcode

def family (opcode : Opcode) : Family :=
  Family.ofKind opcode.kind

@[simp] theorem kind_family (opcode : Opcode) : opcode.family.kind = opcode.kind :=
  Family.kind_ofKind opcode.kind

def decode (opcode : Opcode) : Except Fault Instruction :=
  (opcode.family.read opcode).map opcode.family.instruction

theorem decode_eq_ok (opcode : Opcode) :
    opcode.decode = .ok (opcode.family.instruction (opcode.payload opcode.family.shape)) := by
  rw [decode, Family.read_eq_ok opcode.kind_family.symm]
  rfl

end Opcode

end Chip8
