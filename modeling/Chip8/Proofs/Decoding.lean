import Chip8.Proofs.Execution

/-! # Opcodes of instructions

`Opcode.Encodes` lists for every instruction the opcodes that stand for it, and
`encodes_instruction` inverts the decoder by it, once. Whoever knows the instruction of
an opcode reads the nibbles off there.
-/

namespace Chip8

namespace Opcode

/-- The opcodes that mean nothing within a class whose other opcodes mean something. -/
def Meaningless (opcode : Opcode) : Prop :=
  (opcode.kind = 0x5 ∧ opcode.n ≠ 0) ∨
  (opcode.kind = 0x8 ∧ Arithmetic.ofNibble? opcode.n = none) ∨
  (opcode.kind = 0x9 ∧ opcode.n ≠ 0) ∨
  (opcode.kind = 0xE ∧ opcode.value.toNat ∉ [0x9E, 0xA1]) ∨
  (opcode.kind = 0xF ∧
    opcode.value.toNat ∉ [0x07, 0x0A, 0x15, 0x18, 0x1E, 0x29, 0x33, 0x55, 0x65])

/-- What a machine keeps of an opcode without a meaning: the digit of its class, and its payload
in the way in which the family of the class reads it. -/
def unknown (opcode : Opcode) : UnknownOpcode :=
  match opcode.family.shape with
  | .operands => .operands (Hex.digit opcode.kind.val) opcode.x opcode.y opcode.n
  | _ => .registerValue (Hex.digit opcode.kind.val) opcode.x opcode.value

/-- An opcode of a class without address, whose last byte is given. -/
def HasByte (opcode : Opcode) (kind x : Nibble) (byte : Nat) : Prop :=
  opcode.kind = kind ∧ opcode.x = x ∧ opcode.value.toNat = byte

def Encodes (opcode : Opcode) : Instruction → Prop
  | .clear => opcode.kind = 0x0 ∧ opcode.address.val = 0x0E0
  | .goBack => opcode.kind = 0x0 ∧ opcode.address.val = 0x0EE
  | .routine nnn =>
      opcode.kind = 0x0 ∧ opcode.address = nnn ∧ nnn.val ≠ 0x0E0 ∧ nnn.val ≠ 0x0EE
  | .jump nnn => opcode.kind = 0x1 ∧ opcode.address = nnn
  | .call nnn => opcode.kind = 0x2 ∧ opcode.address = nnn
  | .skipIfValue x nn => opcode.kind = 0x3 ∧ opcode.x = x ∧ opcode.value = nn
  | .skipUnlessValue x nn => opcode.kind = 0x4 ∧ opcode.x = x ∧ opcode.value = nn
  | .skipIfSame x y => opcode.kind = 0x5 ∧ opcode.x = x ∧ opcode.y = y ∧ opcode.n = 0
  | .skipUnlessSame x y => opcode.kind = 0x9 ∧ opcode.x = x ∧ opcode.y = y ∧ opcode.n = 0
  | .setValue x nn => opcode.kind = 0x6 ∧ opcode.x = x ∧ opcode.value = nn
  | .addValue x nn => opcode.kind = 0x7 ∧ opcode.x = x ∧ opcode.value = nn
  | .combine operation x y =>
      opcode.kind = 0x8 ∧ opcode.x = x ∧ opcode.y = y ∧
        Arithmetic.ofNibble? opcode.n = some operation
  | .setIndex nnn => opcode.kind = 0xA ∧ opcode.address = nnn
  | .jumpOffset nnn => opcode.kind = 0xB ∧ opcode.address = nnn
  | .random x nn => opcode.kind = 0xC ∧ opcode.x = x ∧ opcode.value = nn
  | .draw x y n => opcode.kind = 0xD ∧ opcode.x = x ∧ opcode.y = y ∧ opcode.n = n
  | .skipIfPin x => opcode.HasByte 0xE x 0x9E
  | .skipUnlessPin x => opcode.HasByte 0xE x 0xA1
  | .getDelay x => opcode.HasByte 0xF x 0x07
  | .awaitPin x => opcode.HasByte 0xF x 0x0A
  | .setDelay x => opcode.HasByte 0xF x 0x15
  | .setSound x => opcode.HasByte 0xF x 0x18
  | .addIndex x => opcode.HasByte 0xF x 0x1E
  | .glyph x => opcode.HasByte 0xF x 0x29
  | .decimal x => opcode.HasByte 0xF x 0x33
  | .save x => opcode.HasByte 0xF x 0x55
  | .restore x => opcode.HasByte 0xF x 0x65
  | .unknown shown => opcode.unknown = shown ∧ opcode.Meaningless

theorem unknown_of_operands {opcode : Opcode} (family : Family)
    (kind : opcode.kind = family.kind) (shape : family.shape = .operands) :
    opcode.unknown = .operands (Hex.digit family.kind.val) opcode.x opcode.y opcode.n := by
  rw [unknown, Opcode.family, kind, Family.ofKind_kind, shape]

theorem unknown_of_registerValue {opcode : Opcode} (family : Family)
    (kind : opcode.kind = family.kind) (shape : family.shape = .registerValue) :
    opcode.unknown = .registerValue (Hex.digit family.kind.val) opcode.x opcode.value := by
  rw [unknown, Opcode.family, kind, Family.ofKind_kind, shape]

theorem encodes_instruction (opcode : Opcode) : opcode.Encodes opcode.instruction := by
  have kind : opcode.kind = opcode.family.kind := opcode.kind_family.symm
  unfold instruction
  cases family : opcode.family with
  | system =>
      rw [family] at kind
      dsimp only [Family.shape, payload, Family.instruction]
      split
      · rename_i clears
        exact ⟨kind, clears⟩
      · rename_i returns
        exact ⟨kind, returns⟩
      · rename_i notClear notReturn
        exact ⟨kind, rfl, notClear, notReturn⟩
  | skipIfSame =>
      rw [family] at kind
      dsimp only [Family.shape, payload, Family.instruction]
      by_cases zero : opcode.n = 0
      · rw [if_pos zero]
        exact ⟨kind, rfl, rfl, zero⟩
      · rw [if_neg zero]
        exact ⟨unknown_of_operands .skipIfSame kind rfl, Or.inl ⟨kind, zero⟩⟩
  | skipUnlessSame =>
      rw [family] at kind
      dsimp only [Family.shape, payload, Family.instruction]
      by_cases zero : opcode.n = 0
      · rw [if_pos zero]
        exact ⟨kind, rfl, rfl, zero⟩
      · rw [if_neg zero]
        exact ⟨unknown_of_operands .skipUnlessSame kind rfl, Or.inr (Or.inr (Or.inl ⟨kind, zero⟩))⟩
  | arithmetic =>
      rw [family] at kind
      dsimp only [Family.shape, payload, Family.instruction]
      split
      · rename_i operation named
        exact ⟨kind, rfl, rfl, named⟩
      · rename_i unnamed
        exact ⟨unknown_of_operands .arithmetic kind rfl, Or.inr (Or.inl ⟨kind, unnamed⟩)⟩
  | skipPin =>
      rw [family] at kind
      dsimp only [Family.shape, payload, Family.instruction]
      split
      case h_1 byte => exact ⟨kind, rfl, byte⟩
      case h_2 byte => exact ⟨kind, rfl, byte⟩
      case h_3 notIf notUnless =>
        refine ⟨unknown_of_registerValue .skipPin kind rfl,
          Or.inr (Or.inr (Or.inr (Or.inl ⟨kind, ?_⟩)))⟩
        simp only [List.mem_cons, List.not_mem_nil, or_false, not_or]
        exact ⟨notIf, notUnless⟩
  | peripheral =>
      rw [family] at kind
      dsimp only [Family.shape, payload, Family.instruction]
      split
      case h_10 =>
        refine ⟨unknown_of_registerValue .peripheral kind rfl,
          Or.inr (Or.inr (Or.inr (Or.inr ⟨kind, ?_⟩)))⟩
        simp only [List.mem_cons, List.not_mem_nil, or_false, not_or]
        and_intros <;> assumption
      all_goals
        rename_i byte
        exact ⟨kind, rfl, byte⟩
  | draw =>
      rw [family] at kind
      exact ⟨kind, rfl, rfl, rfl⟩
  | skipIfValue | skipUnlessValue | setValue | addValue | random =>
      rw [family] at kind
      exact ⟨kind, rfl, rfl⟩
  | jump | call | setIndex | jumpOffset =>
      rw [family] at kind
      exact ⟨kind, rfl⟩

theorem instruction_of_kind {opcode : Opcode} (family : Family)
    (kind : opcode.kind = family.kind) :
    opcode.instruction = family.instruction (opcode.payload family.shape) := by
  have same : opcode.family = family := by rw [Opcode.family, kind, Family.ofKind_kind]
  subst same
  rfl

theorem instruction_of_meaningless {opcode : Opcode} (meaningless : opcode.Meaningless) :
    opcode.instruction = .unknown opcode.unknown := by
  rcases meaningless with
    ⟨kind, other⟩ | ⟨kind, unnamed⟩ | ⟨kind, other⟩ | ⟨kind, byte⟩ | ⟨kind, byte⟩
  · rw [instruction_of_kind .skipIfSame kind, unknown_of_operands .skipIfSame kind rfl]
    exact if_neg other
  · rw [instruction_of_kind .arithmetic kind, unknown_of_operands .arithmetic kind rfl]
    simp only [Family.shape, payload, Family.instruction, unnamed]
    rfl
  · rw [instruction_of_kind .skipUnlessSame kind, unknown_of_operands .skipUnlessSame kind rfl]
    exact if_neg other
  · rw [instruction_of_kind .skipPin kind, unknown_of_registerValue .skipPin kind rfl]
    simp only [List.mem_cons, List.not_mem_nil, or_false, not_or] at byte
    dsimp only [Family.shape, payload, Family.instruction]
    split
    · exact absurd ‹_› byte.1
    · exact absurd ‹_› byte.2
    · rfl
  · rw [instruction_of_kind .peripheral kind, unknown_of_registerValue .peripheral kind rfl]
    simp only [List.mem_cons, List.not_mem_nil, or_false, not_or] at byte
    dsimp only [Family.shape, payload, Family.instruction]
    split
    case h_10 => rfl
    all_goals omega

theorem instruction_of_encodes {opcode : Opcode} {instruction : Instruction}
    (encodes : opcode.Encodes instruction) : opcode.instruction = instruction := by
  cases instruction with
  | clear | goBack =>
      obtain ⟨kind, address⟩ := encodes
      simp only [instruction_of_kind .system kind, Family.shape, payload, Family.instruction,
        address]
  | routine nnn =>
      obtain ⟨kind, rfl, notClear, notReturn⟩ := encodes
      rw [instruction_of_kind .system kind]
      dsimp only [Family.shape, payload, Family.instruction]
      split
      · exact absurd ‹_› notClear
      · exact absurd ‹_› notReturn
      · rfl
  | jump nnn =>
      obtain ⟨kind, rfl⟩ := encodes
      exact instruction_of_kind .jump kind
  | call nnn =>
      obtain ⟨kind, rfl⟩ := encodes
      exact instruction_of_kind .call kind
  | skipIfValue x nn =>
      obtain ⟨kind, rfl, rfl⟩ := encodes
      exact instruction_of_kind .skipIfValue kind
  | skipUnlessValue x nn =>
      obtain ⟨kind, rfl, rfl⟩ := encodes
      exact instruction_of_kind .skipUnlessValue kind
  | skipIfSame x y =>
      obtain ⟨kind, rfl, rfl, zero⟩ := encodes
      rw [instruction_of_kind .skipIfSame kind]
      exact if_pos zero
  | skipUnlessSame x y =>
      obtain ⟨kind, rfl, rfl, zero⟩ := encodes
      rw [instruction_of_kind .skipUnlessSame kind]
      exact if_pos zero
  | setValue x nn =>
      obtain ⟨kind, rfl, rfl⟩ := encodes
      exact instruction_of_kind .setValue kind
  | addValue x nn =>
      obtain ⟨kind, rfl, rfl⟩ := encodes
      exact instruction_of_kind .addValue kind
  | combine operation x y =>
      obtain ⟨kind, rfl, rfl, named⟩ := encodes
      simp only [instruction_of_kind .arithmetic kind, Family.shape, payload, Family.instruction,
        named]
  | setIndex nnn =>
      obtain ⟨kind, rfl⟩ := encodes
      exact instruction_of_kind .setIndex kind
  | jumpOffset nnn =>
      obtain ⟨kind, rfl⟩ := encodes
      exact instruction_of_kind .jumpOffset kind
  | random x nn =>
      obtain ⟨kind, rfl, rfl⟩ := encodes
      exact instruction_of_kind .random kind
  | draw x y n =>
      obtain ⟨kind, rfl, rfl, rfl⟩ := encodes
      exact instruction_of_kind .draw kind
  | skipIfPin x | skipUnlessPin x =>
      obtain ⟨kind, rfl, byte⟩ := encodes
      simp only [instruction_of_kind .skipPin kind, Family.shape, payload, Family.instruction, byte]
  | getDelay x | awaitPin x | setDelay x | setSound x | addIndex x | glyph x | decimal x
  | save x | restore x =>
      obtain ⟨kind, rfl, byte⟩ := encodes
      simp only [instruction_of_kind .peripheral kind, Family.shape, payload, Family.instruction,
        byte]
  | unknown shown =>
      obtain ⟨rfl, meaningless⟩ := encodes
      exact instruction_of_meaningless meaningless

/-- The decoder reads an opcode as the one instruction that the opcode stands for. -/
theorem instruction_eq_iff {opcode : Opcode} {instruction : Instruction} :
    opcode.instruction = instruction ↔ opcode.Encodes instruction := by
  constructor
  · rintro rfl
    exact opcode.encodes_instruction
  · exact instruction_of_encodes

theorem instruction_of_draw {opcode : Opcode} (isDraw : opcode.kind = 0xD) :
    opcode.instruction = .draw opcode.x opcode.y opcode.n :=
  instruction_eq_iff.mpr ⟨isDraw, rfl, rfl, rfl⟩

end Opcode

end Chip8
