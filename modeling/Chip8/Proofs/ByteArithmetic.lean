import Chip8.Proofs.Cycle
import Chip8.Proofs.Decoding

/-! # Arithmetic on bytes

What the opcodes of the arithmetic class leave in the registers, as arithmetic on integers.
The tables of what is computed and what the flag tells are read off the last nibble here,
independently of the decoder; bytes agree with them, and so do the registers they are
written to, also where both operands or the flag share a register.
-/

namespace Chip8

/-! ## In integers -/

namespace Opcode

/-- The number that an opcode of the arithmetic class computes from two bytes, by its last
nibble; six nibbles compute nothing. -/
def computed? (n : Nibble) (a b : Nat) : Option Int :=
  match n.val with
  | 0x0 => some b
  | 0x1 => some (a ||| b : Nat)
  | 0x2 => some (a &&& b : Nat)
  | 0x3 => some (a ^^^ b : Nat)
  | 0x4 => some ((a + b) % 256)
  | 0x5 => some ((a - b) % 256)
  | 0x6 => some (a / 2)
  | 0x7 => some ((b - a) % 256)
  | 0xE => some (2 * a % 256)
  | _ => none

/-- What the flag tells about two bytes: a sum that does not fit, a difference that is not
negative or that is positive, and the bit that a shift loses. -/
def flagged? (n : Nibble) (a b : Nat) : Option Bool :=
  match n.val with
  | 0x4 => some (decide (255 < a + b))
  | 0x5 => some (decide (b ≤ a))
  | 0x6 => some (decide (a % 2 = 1))
  | 0x7 => some (decide (a < b))
  | 0xE => some (decide (128 ≤ a))
  | _ => none

end Opcode

/-! ## Bits of a byte -/

/-- A mask of one bit picks that bit out of a byte. -/
theorem and_mask_ne_zero_iff {bits mask : UInt8} {place : Nat}
    (single : ∀ i, mask.toNat.testBit i = decide (i = place)) :
    bits &&& mask ≠ 0 ↔ bits.toNat.testBit place = true := by
  have masked : ∀ i, (bits &&& mask).toNat.testBit i =
      (bits.toNat.testBit i && decide (i = place)) := by
    intro i
    rw [UInt8.toNat_and, Nat.testBit_and, single]
  constructor
  · intro nonzero
    cases isSet : bits.toNat.testBit place with
    | true => rfl
    | false =>
        refine absurd (UInt8.toNat_inj.mp (Nat.eq_of_testBit_eq fun i => ?_)) nonzero
        rw [masked, UInt8.toNat_zero, Nat.zero_testBit]
        by_cases same : i = place
        · rw [same, isSet, Bool.false_and]
        · rw [decide_eq_false same, Bool.and_false]
  · rintro isSet zero
    have unset := masked place
    rw [zero, isSet, UInt8.toNat_zero, Nat.zero_testBit] at unset
    simp at unset

/-- A power of two is a mask of one bit. -/
theorem testBit_of_power {mask : UInt8} {place : Nat} (power : mask.toNat = 1 <<< place) (i : Nat) :
    mask.toNat.testBit i = decide (i = place) := by
  rw [power, Nat.one_shiftLeft, Nat.testBit_two_pow]
  exact decide_eq_decide.mpr eq_comm

/-! ## Bytes -/

namespace Arithmetic

theorem add_lt_left_iff (a b : UInt8) : a + b < a ↔ 255 < a.toNat + b.toNat := by
  have := a.toNat_lt
  have := b.toNat_lt
  rw [UInt8.lt_iff_toNat_lt, UInt8.toNat_add]
  omega

theorem toNat_sub_eq (a b : UInt8) : ((a - b).toNat : Int) = ((a.toNat : Int) - b.toNat) % 256 := by
  have := a.toNat_lt
  have := b.toNat_lt
  rw [UInt8.toNat_sub]
  omega

theorem toNat_shiftRight_one (a : UInt8) : (a >>> 1).toNat = a.toNat / 2 := by
  rw [UInt8.toNat_shiftRight]
  exact Nat.shiftRight_eq_div_pow a.toNat 1

theorem toNat_shiftLeft_one (a : UInt8) : (a <<< 1).toNat = 2 * a.toNat % 256 := by
  rw [UInt8.toNat_shiftLeft, Nat.mul_comm]
  exact congrArg (· % 256) (Nat.shiftLeft_eq a.toNat 1)

theorem and_one_ne_zero_iff (a : UInt8) : a &&& 1 ≠ 0 ↔ a.toNat % 2 = 1 := by
  have single : ∀ i, (1 : UInt8).toNat.testBit i = decide (i = 0) := testBit_of_power rfl
  rw [and_mask_ne_zero_iff single, Nat.testBit_zero, decide_eq_true_eq]

theorem and_high_ne_zero_iff (a : UInt8) : a &&& 0x80 ≠ 0 ↔ 128 ≤ a.toNat := by
  have single : ∀ i, (0x80 : UInt8).toNat.testBit i = decide (i = 7) := testBit_of_power rfl
  have := a.toNat_lt
  rw [and_mask_ne_zero_iff single, Nat.testBit_eq_decide_div_mod_eq, decide_eq_true_eq]
  omega

/-- Byte by byte, an operation computes what its nibble says. -/
theorem computed?_of_named {n : Nibble} {operation : Arithmetic}
    (named : ofNibble? n = some operation) (a b : UInt8) :
    Opcode.computed? n a.toNat b.toNat = some ((operation.value a b).toNat : Int) := by
  unfold ofNibble? at named
  split at named <;> cases named
  all_goals
    rename_i nibble
    simp only [Opcode.computed?, nibble, value, Option.some.injEq]
  · rw [UInt8.toNat_or]
  · rw [UInt8.toNat_and]
  · rw [UInt8.toNat_xor]
  · rw [UInt8.toNat_add]
    rfl
  · exact (toNat_sub_eq a b).symm
  · rw [toNat_shiftRight_one]
    rfl
  · exact (toNat_sub_eq b a).symm
  · rw [toNat_shiftLeft_one]
    rfl

theorem flagged?_of_named {n : Nibble} {operation : Arithmetic}
    (named : ofNibble? n = some operation) (a b : UInt8) :
    Opcode.flagged? n a.toNat b.toNat = operation.flag? a b := by
  unfold ofNibble? at named
  split at named <;> cases named
  all_goals
    rename_i nibble
    simp only [Opcode.flagged?, nibble, flag?, Option.some.injEq]
  · rw [decide_eq_decide, add_lt_left_iff]
  · rw [decide_eq_decide, UInt8.le_iff_toNat_le]
  · rw [Bool.eq_iff_iff, decide_eq_true_eq, bne_iff_ne, and_one_ne_zero_iff]
  · rw [decide_eq_decide, UInt8.lt_iff_toNat_lt]
  · rw [Bool.eq_iff_iff, decide_eq_true_eq, bne_iff_ne, and_high_ne_zero_iff]

theorem named_of_listed {n : Nibble} (listed : n.val ≤ 7 ∨ n = 0xE) :
    ∃ operation, ofNibble? n = some operation := by
  have all : ∀ n : Nibble, n.val ≤ 7 ∨ n = 0xE → (ofNibble? n).isSome := by decide
  exact Option.isSome_iff_exists.mp (all n listed)

end Arithmetic

/-! ## Registers -/

/-- What an opcode of the arithmetic class leaves of the registers it finds. The flag is
written last, so it stands where the first operand is the flag register. -/
structure Registers.Combined (before : Registers) (x y n : Nibble) (after : Registers) : Prop where
  value : (x = Layout.flagRegister →
      Opcode.flagged? n (before.get x).toNat (before.get y).toNat = none) →
    Opcode.computed? n (before.get x).toNat (before.get y).toNat =
      some ((after.get x).toNat : Int)
  flag : ∀ raised, Opcode.flagged? n (before.get x).toNat (before.get y).toNat = some raised →
    after.get Layout.flagRegister = if raised then 1 else 0
  flagKept : Opcode.flagged? n (before.get x).toNat (before.get y).toNat = none →
    x ≠ Layout.flagRegister → after.get Layout.flagRegister = before.get Layout.flagRegister
  others : ∀ r, r ≠ x → r ≠ Layout.flagRegister → after.get r = before.get r

namespace Machine

variable {machine : Machine} {operation : Arithmetic} {x y : Nibble}

theorem registers_combine_of_unflagged
    (told : operation.flag? (machine.registers.get x) (machine.registers.get y) = none) :
    (machine.combine operation x y).registers =
      machine.registers.set x
        (operation.value (machine.registers.get x) (machine.registers.get y)) := by
  simp only [combine, told]

theorem registers_combine_of_flagged {raised : Bool}
    (told : operation.flag? (machine.registers.get x) (machine.registers.get y) = some raised) :
    (machine.combine operation x y).registers =
      (machine.registers.set x
        (operation.value (machine.registers.get x) (machine.registers.get y))).setFlag raised := by
  simp only [combine, told]

theorem combined_combine {n : Nibble} (named : Arithmetic.ofNibble? n = some operation)
    (machine : Machine) (x y : Nibble) :
    machine.registers.Combined x y n (machine.combine operation x y).registers := by
  have computed := Arithmetic.computed?_of_named named (machine.registers.get x)
    (machine.registers.get y)
  have flagged := Arithmetic.flagged?_of_named named (machine.registers.get x)
    (machine.registers.get y)
  cases told : operation.flag? (machine.registers.get x) (machine.registers.get y) with
  | none =>
      rw [told] at flagged
      rw [registers_combine_of_unflagged told]
      constructor
      case value =>
        intro _
        rw [computed, Registers.get_set, if_pos rfl]
      case flag =>
        intro raised found
        rw [flagged] at found
        cases found
      case flagKept =>
        intro _ own
        rw [Registers.get_set, if_neg own.symm]
      case others =>
        intro r notFirst _
        rw [Registers.get_set, if_neg notFirst]
  | some raised =>
      rw [told] at flagged
      rw [registers_combine_of_flagged told]
      constructor
      case value =>
        intro spared
        have own : x ≠ Layout.flagRegister := by
          intro shared
          rw [spared shared] at flagged
          cases flagged
        rw [computed, Registers.get_setFlag, if_neg own, Registers.get_set, if_pos rfl]
      case flag =>
        intro found same
        rw [flagged] at same
        cases same
        rw [Registers.get_setFlag, if_pos rfl]
      case flagKept =>
        intro unflagged
        rw [unflagged] at flagged
        cases flagged
      case others =>
        intro r notFirst notFlag
        rw [Registers.get_setFlag, if_neg notFlag, Registers.get_set, if_neg notFirst]

end Machine

namespace Console

/-- An opcode of the arithmetic class that computes something computes it on the values that
both registers had before, leaves it in the first and what the flag tells in the flag
register, the flag last, and changes nothing else. -/
theorem combining_is_integer_arithmetic {n : Nibble} (listed : n.val ≤ 7 ∨ n = 0xE)
    (console : Console) (x y : Nibble) (random : UInt8) :
    ∃ after, console.execute ⟨0x8, x, y, n⟩ random =
        quiet { console with machine.registers := after } ∧
      console.machine.registers.Combined x y n after := by
  obtain ⟨operation, named⟩ := Arithmetic.named_of_listed listed
  have decoded : (⟨0x8, x, y, n⟩ : Opcode).instruction = .combine operation x y :=
    Opcode.instruction_eq_iff.mpr ⟨rfl, rfl, rfl, named⟩
  exact ⟨_, execute_of_silent decoded rfl, Machine.combined_combine named console.machine x y⟩

def addingToFlag : Console :=
  { create with
    machine := { Machine.fresh with registers := (Registers.zero.set 0xF 200).set 3 100 } }

theorem adding_to_flag_leaves_carry :
    ((4 : Nibble).val ≤ 7 ∨ (4 : Nibble) = 0xE) ∧
    ∃ after, addingToFlag.execute ⟨0x8, 0xF, 3, 4⟩ 0 =
        quiet { addingToFlag with machine.registers := after } ∧
      addingToFlag.machine.registers.Combined 0xF 3 4 after ∧
      after.get Layout.flagRegister = 1 ∧ after.get 3 = 100 := by
  have listed : (4 : Nibble).val ≤ 7 ∨ (4 : Nibble) = 0xE := by decide
  obtain ⟨after, left, combined⟩ := combining_is_integer_arithmetic listed addingToFlag 0xF 3 0
  refine ⟨listed, after, left, combined, combined.flag true (by decide), ?_⟩
  exact combined.others 3 (by decide) (by decide)

end Console

end Chip8
