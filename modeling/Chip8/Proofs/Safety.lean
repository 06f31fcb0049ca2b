import Chip8.Proofs.ByteArithmetic
import Chip8.Proofs.Decoding
import Chip8.Proofs.Drawing
import Chip8.Proofs.Guarded

/-! # Safety of the host

No program can make a check of the guarded work fail, whatever the state of the machine:
`Guarded.cycle` ends in the very effect of the machine's own cycle.
-/

namespace Chip8.Guarded

/-! ## Registers and memory -/

variable (machine : Machine)

@[simp] theorem get_eq (r : Nibble) : get machine r.val = .ok (machine.registers.get r) :=
  element_toList machine.registers.values r.val_lt

@[simp] theorem put_eq (r : Nibble) (value : UInt8) :
    put machine r.val value = .ok (machine.setRegister r value) := by
  rw [put, replace_eq _ value r.val_lt]
  rfl

theorem put_flag (lit : Bool) :
    put machine 15 (if lit then 1 else 0) =
      .ok { machine with registers := machine.registers.setFlag lit } :=
  put_eq machine Layout.flagRegister _

theorem range_eq (start : UInt16) {size : Nat} (small : size ≤ 16) :
    range start size =
      .ok ((Span.check start size).map fun span => (span.start, span.stop)) := by
  have below := start.toNat_lt
  rw [range, bounded_eq (by rw [longLimit]; omega), ok_bind]
  by_cases fits : start.toNat + size ≤ 4096
  · rw [if_neg (Nat.not_lt.mpr fits), Span.check_eq_ok fits]
    rfl
  · rw [if_pos (Nat.lt_of_not_le fits), Span.check_eq_error (Nat.lt_of_not_le fits)]
    rfl

/-- A guarded range goes on as a span does, if the work on it goes on alike. -/
theorem withRange_eq {size : Nat} (small : size ≤ 16) {next : Nat → Nat → Except Trap Effect}
    {next' : Span → Effect}
    (alike : ∀ span : Span, span.start = machine.index.toNat → span.size = size →
      next span.start span.stop = .ok (next' span)) :
    withRange machine size next = .ok (machine.withSpan size next') := by
  rw [withRange, range_eq machine.index small, ok_bind]
  by_cases fits : machine.index.toNat + size ≤ 4096
  · rw [Machine.withSpan_of_fits next' fits, Span.check_eq_ok fits]
    exact alike ⟨machine.index.toNat, size, fits⟩ rfl rfl
  · have past := Nat.lt_of_not_le fits
    rw [Machine.withSpan_of_past next' past, Span.check_eq_error past]
    rfl

theorem slice_memory (span : Span) :
    slice machine.memory.cells.toList span.start span.stop = .ok (machine.memory.read span) := by
  have fits := span.fits
  have length : machine.memory.cells.toList.length = 4096 := Vector.length_toList
  rw [slice_eq (by rw [Span.stop]; omega) (by rw [length]; exact fits)]
  refine congrArg Except.ok (List.ext_getElem ?_ ?_)
  · rw [List.length_take, List.length_drop, length, Memory.length_read, Span.stop]
    omega
  · intro k inside inside'
    rw [Memory.length_read] at inside'
    have address : span.start + k < 4096 := by omega
    rw [List.getElem_take, List.getElem_drop, Vector.getElem_toList]
    simp only [Memory.read, List.getElem_map, List.getElem_range, Memory.byte, dif_pos address]

/-! ## Sprites -/

theorem flagHit_eq (lit : Bool) :
    flagHit machine lit =
      .ok { machine with
        registers := if lit then machine.registers.setFlag true else machine.registers } := by
  cases lit with
  | false => rfl
  | true => exact put_flag machine true

theorem invert_eq (cell : Cell) :
    invert machine cell.row.val cell.column.val = .ok (machine.touch cell) := by
  have inside := cell.index_lt
  have place : cell.row.val * 64 + cell.column.val < longLimit :=
    Nat.lt_trans inside (by decide)
  have above : cell.row.val * 64 < longLimit := Nat.lt_of_le_of_lt (Nat.le_add_right _ _) place
  rw [invert, bounded_eq above, ok_bind, bounded_eq place, ok_bind, element_toList _ inside,
    ok_bind, flagHit_eq, ok_bind, replace_eq _ _ inside]
  rfl

theorem drawRow_eq {x row offset count : Nat} {mask : UInt8} (bits : UInt8) (small : x < 64)
    (onDisplay : row < 32) (whole : offset + count = 8)
    (single : ∀ i, mask.toNat.testBit i = decide (i + 1 = count)) :
    drawRow machine x row bits offset mask count =
      .ok (((List.range' offset count).filterMap fun offset =>
        if Sprite.lit bits offset then Cell.locate? (x + offset) row else none).foldl
          Machine.touch machine) := by
  induction count generalizing machine offset mask with
  | zero => rfl
  | succ count ih =>
      rw [drawRow, bounded_eq (by rw [longLimit]; omega), ok_bind]
      by_cases beyond : 64 ≤ x + offset
      · -- What is left of the row is beyond the right edge.
        have nothing : (List.range' offset (count + 1)).filterMap (fun offset =>
            if Sprite.lit bits offset then Cell.locate? (x + offset) row else none) = [] := by
          apply List.filterMap_eq_nil_iff.mpr
          intro later listed
          have := List.mem_range'_1.mp listed
          rw [Sprite.locate?_eq_none (Or.inl (by omega)), ite_self]
        rw [if_pos beyond, nothing]
        rfl
      · have here : ∀ i, mask.toNat.testBit i = decide (i = count) := by
          simpa only [Nat.add_right_cancel_iff] using single
        have moved : ∀ i, (mask >>> 1).toNat.testBit i = decide (i + 1 = count) := by
          intro i
          rw [UInt8.toNat_shiftRight, Nat.testBit_shiftRight, here, Nat.add_comm]
          rfl
        have bit : Sprite.lit bits offset = bits.toNat.testBit count := by
          rw [Sprite.lit, show 7 - offset = count by omega]
        have rest := fun machine => ih machine (by omega : offset + 1 + count = 8) moved
        rw [if_neg beyond, List.range'_succ, List.filterMap_cons, bit]
        by_cases isLit : bits.toNat.testBit count = true
        · have inside : x + offset < Layout.displayWidth := Nat.lt_of_not_le beyond
          obtain ⟨cell, located⟩ : ∃ cell, Cell.locate? (x + offset) row = some cell :=
            ⟨⟨⟨x + offset, inside⟩, ⟨row, onDisplay⟩⟩, Cell.locate?_eq_some_iff.mpr ⟨rfl, rfl⟩⟩
          obtain ⟨column_eq, row_eq⟩ := Cell.locate?_eq_some_iff.mp located
          rw [if_pos ((and_mask_ne_zero_iff here).mpr isLit), if_pos isLit, located,
            ← column_eq, ← row_eq, invert_eq, ok_bind, row_eq]
          exact rest (machine.touch cell)
        · rw [if_neg fun masked => isLit ((and_mask_ne_zero_iff here).mp masked), if_neg isLit,
            ok_bind]
          exact rest machine

theorem drawRows_eq {x y offset : Nat} {rows : List UInt8} (small : x < 64)
    (short : y + offset + rows.length < 65536) :
    drawRows machine x y offset rows =
      .ok ((Sprite.cells x (y + offset) rows).foldl Machine.touch machine) := by
  induction rows generalizing machine offset with
  | nil => rfl
  | cons bits rest ih =>
      rw [List.length_cons] at short
      rw [drawRows, bounded_eq (by rw [longLimit]; omega), ok_bind]
      by_cases below : 32 ≤ y + offset
      · rw [if_pos below, Sprite.cells_of_below below]
        rfl
      · have leftmost : ∀ i, (0x80 : UInt8).toNat.testBit i = decide (i + 1 = 8) := by
          intro i
          have power : (0x80 : UInt8).toNat = 2 ^ 7 := rfl
          rw [power, Nat.testBit_two_pow]
          exact decide_eq_decide.mpr ⟨fun same => by omega, fun same => by omega⟩
        have first := drawRow_eq machine bits small (Nat.lt_of_not_le below)
          (show 0 + 8 = 8 from rfl) leftmost
        rw [← List.range_eq_range'] at first
        rw [if_neg below, first, ok_bind, ih _ (by omega), Sprite.cells, List.foldl_append]
        rfl

theorem draw_eq (opcode : Opcode) (random : UInt8) :
    draw machine (.ofOpcode opcode) =
      .ok (machine.execute random (.draw opcode.x opcode.y opcode.n)) := by
  have few := opcode.n.val_lt
  simp only [draw, Bare.toNat_x, Bare.toNat_y, Bare.toNat_n, get_eq, ok_bind]
  rw [Machine.execute]
  apply withRange_eq machine (by omega)
  intro span start size
  have rows : (machine.memory.read span).length = opcode.n.val := by rw [Memory.length_read, size]
  have cleared : put machine 15 0 =
      .ok { machine with registers := machine.registers.setFlag false } := put_flag machine false
  have top : (machine.registers.get opcode.y).toNat % 32 < 32 := Nat.mod_lt _ (by decide)
  have short : (machine.registers.get opcode.y).toNat % 32 + 0 +
      (machine.memory.read span).length < 65536 := by omega
  rw [slice_memory, ok_bind, throughBuffer_eq _ (by omega) rows, ok_bind, cleared, ok_bind,
    drawRows_eq _ (Nat.mod_lt _ (by decide)) short, ok_bind, Nat.add_zero,
    Machine.drawSprite_eq_foldl]

/-! ## Instructions -/

variable (opcode : Opcode) (random : UInt8)

theorem ignoredOperands_eq (digit : Char) : (Bare.ofOpcode opcode).ignoredOperands digit machine =
    machine.execute random (.unknown (.operands digit opcode.x opcode.y opcode.n)) := by
  simp only [Bare.ignoredOperands, Bare.ofOpcode, low_ofNat_nibble, Machine.execute]

theorem ignoredValue_eq (digit : Char) : (Bare.ofOpcode opcode).ignoredValue digit machine =
    machine.execute random (.unknown (.registerValue digit opcode.x opcode.value)) := by
  rw [Bare.ignoredValue, Bare.value_ofOpcode]
  simp only [Bare.ofOpcode, low_ofNat_nibble, Machine.execute]

theorem skipOnValue_eq (condition : UInt8 → UInt8 → Bool) :
    skipOnValue machine (.ofOpcode opcode) condition =
      .ok (.silent (machine.skipIf
        (condition (machine.registers.get opcode.x) opcode.value))) := by
  rw [skipOnValue, Bare.toNat_x, get_eq, ok_bind, Bare.value_ofOpcode]

theorem skipOnRegisters_of_zero {opcode : Opcode} (zero : opcode.n = 0) (digit : Char)
    (condition : UInt8 → UInt8 → Bool) :
    skipOnRegisters machine (.ofOpcode opcode) digit condition =
      .ok (.silent (machine.skipIf
        (condition (machine.registers.get opcode.x) (machine.registers.get opcode.y)))) := by
  simp only [skipOnRegisters, Bare.toNat_x, Bare.toNat_y, Bare.toNat_n, get_eq, ok_bind]
  exact if_pos (congrArg Fin.val zero)

theorem skipOnRegisters_of_ne {opcode : Opcode} (other : opcode.n ≠ 0) (digit : Char)
    (condition : UInt8 → UInt8 → Bool) :
    skipOnRegisters machine (.ofOpcode opcode) digit condition =
      .ok ((Bare.ofOpcode opcode).ignoredOperands digit machine) := by
  rw [skipOnRegisters, Bare.toNat_n]
  exact if_neg fun zero => other (Fin.ext zero)

theorem assign_eq (value : UInt8) :
    assign machine (.ofOpcode opcode) value =
      .ok (.silent (machine.setRegister opcode.x value)) := by
  rw [assign, Bare.toNat_x, put_eq, ok_bind]

theorem addValue_eq :
    addValue machine (.ofOpcode opcode) =
      .ok (machine.execute random (.addValue opcode.x opcode.value)) := by
  rw [addValue, Bare.toNat_x, get_eq, ok_bind, put_eq, ok_bind, Bare.value_ofOpcode]
  rfl

theorem combine_eq (operation : Arithmetic) :
    combine machine (.ofOpcode opcode) operation =
      .ok (machine.execute random (.combine operation opcode.x opcode.y)) := by
  simp only [combine, Bare.toNat_x, Bare.toNat_y, get_eq, put_eq, ok_bind, Machine.execute,
    Machine.combine]
  cases operation.flag? (machine.registers.get opcode.x) (machine.registers.get opcode.y) with
  | none => rfl
  | some flag =>
      dsimp only
      rw [put_flag, ok_bind]
      rfl

theorem arithmetic_of_some {opcode : Opcode} {operation : Arithmetic}
    (named : Arithmetic.ofNibble? opcode.n = some operation) :
    arithmetic machine (.ofOpcode opcode) = combine machine (.ofOpcode opcode) operation := by
  rw [arithmetic, Bare.toNat_n]
  unfold Arithmetic.ofNibble? at named
  split at named
  case h_10 => cases named
  all_goals
    cases named
    simp only [*]

theorem arithmetic_of_none {opcode : Opcode} (unnamed : Arithmetic.ofNibble? opcode.n = none) :
    arithmetic machine (.ofOpcode opcode) =
      .ok ((Bare.ofOpcode opcode).ignoredOperands '8' machine) := by
  rw [arithmetic, Bare.toNat_n]
  unfold Arithmetic.ofNibble? at unnamed
  split at unnamed
  case h_10 => simp only [*]
  all_goals cases unnamed

theorem jumpOffset_eq :
    jumpOffset machine (.ofOpcode opcode) =
      .ok (machine.execute random (.jumpOffset opcode.address)) := by
  have address := opcode.address.isLt
  have first : get machine 0 = .ok (machine.registers.get 0) := get_eq machine 0
  have offset := (machine.registers.get 0).toNat_lt
  rw [jumpOffset, first, ok_bind, Bare.address_ofOpcode, Address.toNat_word,
    bounded_eq (by rw [longLimit]; omega), ok_bind, Machine.execute]
  by_cases inside : opcode.address.val + (machine.registers.get 0).toNat < 4096
  · rw [if_neg (Nat.not_le.mpr inside), if_pos inside]
  · rw [if_pos (Nat.le_of_not_lt inside), if_neg inside]

theorem toNat_and_fifteen (byte : UInt8) : (byte &&& 0xF).toNat = (Nibble.low byte).val := by
  rw [and_fifteen, toNat_ofNat_nibble]

theorem element_pins (pin : Nibble) :
    element machine.keypad.pins.toList pin.val = .ok (machine.keypad.get pin) :=
  element_toList machine.keypad.pins pin.val_lt

theorem firstSet_eq (pins : List Nibble) :
    firstSet machine (pins.map Fin.val) = .ok ((pins.find? machine.keypad.get).map Fin.val) := by
  induction pins with
  | nil => rfl
  | cons pin rest ih =>
      rw [List.map_cons, firstSet, element_pins, ok_bind, List.find?_cons]
      cases machine.keypad.get pin with
      | true => rfl
      | false => exact ih

theorem awaitPin_eq :
    awaitPin machine (.ofOpcode opcode) =
      .ok (machine.execute random (.awaitPin opcode.x)) := by
  have all : List.range 16 = (List.finRange 16).map Fin.val := by decide
  rw [awaitPin, all, firstSet_eq, ok_bind, Machine.execute, ← Keypad.lowest?]
  cases machine.keypad.lowest? with
  | none => rfl
  | some pin => exact assign_eq machine opcode (UInt8.ofNat pin.val)

theorem glyph_eq :
    glyph machine (.ofOpcode opcode) = .ok (machine.execute random (.glyph opcode.x)) := by
  have small := (Nibble.low (machine.registers.get opcode.x)).val_lt
  rw [glyph, Bare.toNat_x, get_eq, ok_bind, toNat_and_fifteen,
    bounded_eq (by rw [shortLimit]; omega), ok_bind,
    bounded_eq (by rw [shortLimit]; omega), ok_bind, Nat.mul_comm]
  rfl

theorem replace_memory (memory : Memory) {address : Nat} (value : UInt8)
    (inside : address < 4096) :
    replace memory.cells address value = .ok (memory.set address value).cells := by
  rw [replace_eq _ _ inside]
  refine congrArg Except.ok (Vector.ext fun i _ => ?_)
  rw [Vector.getElem_set, Memory.set, Vector.getElem_setIfInBounds]

theorem decimal_eq :
    decimal machine (.ofOpcode opcode) = .ok (machine.execute random (.decimal opcode.x)) := by
  rw [decimal, Bare.toNat_x, get_eq, ok_bind, Machine.execute]
  apply withRange_eq machine (by decide)
  intro span start size
  have fits := span.fits
  have within : ∀ (memory : Memory) (i : Nat) (value : UInt8), i < 3 →
      replaceWithin memory.cells span.start span.stop i value =
        .ok (memory.set (span.start + i) value).cells := by
    intro memory i value small
    rw [replaceWithin, if_pos (by rw [Span.stop]; omega), replace_memory _ _ (by omega)]
  rw [slice_memory, ok_bind, within _ 0 _ (by decide), ok_bind, within _ 1 _ (by decide), ok_bind,
    within _ 2 _ (by decide), ok_bind]
  rfl

theorem copyInto_memory (memory : Memory) (span : Span) {source : List UInt8}
    (whole : source.length = span.size) :
    copyInto memory.cells span.start span.stop source =
      .ok (memory.store span.start source).cells := by
  have fits := span.fits
  rw [copyInto_eq _ (by rw [Span.stop]; exact fits) (by rw [Span.stop, whole])]
  suffices same : ⟨splice memory.cells span.start source⟩ = memory.store span.start source from
    congrArg (fun memory => Except.ok memory.cells) same
  apply Memory.ext_byte
  intro address inside
  rw [Memory.byte_store _ (by omega), Memory.byte, dif_pos inside, getElem_splice]
  by_cases from_start : span.start ≤ address
  · by_cases listed : address < span.start + source.length
    · have later : address - span.start < source.length := by omega
      simp [from_start, listed, later]
    · have later : ¬ address - span.start < source.length := by omega
      simp [from_start, listed, later, Memory.byte, inside]
  · simp [from_start, Memory.byte, inside]

theorem slice_registers (last : Nibble) :
    slice machine.registers.values.toList 0 (last.val + 1) =
      .ok (machine.registers.upTo last) := by
  have inside : last.val + 1 ≤ machine.registers.values.toList.length := by
    rw [Vector.length_toList]
    exact last.isLt
  rw [slice_eq (Nat.zero_le _) inside]
  rfl

theorem save_eq :
    save machine (.ofOpcode opcode) = .ok (machine.execute random (.save opcode.x)) := by
  have last := opcode.x.val_lt
  rw [save, Bare.toNat_x, bounded_eq (by rw [longLimit]; omega), ok_bind, Machine.execute]
  apply withRange_eq machine (by omega)
  intro span start size
  have whole : (machine.registers.upTo opcode.x).length = span.size := by
    rw [Registers.length_upTo, size]
  rw [slice_registers, ok_bind, copyInto_memory _ _ whole, ok_bind]

theorem copyInto_registers (registers : Registers) {source : List UInt8}
    (few : source.length ≤ 16) :
    copyInto registers.values 0 source.length source = .ok (registers.load source).values := by
  rw [copyInto_eq _ few (Nat.zero_add _)]
  rfl

theorem restore_eq :
    restore machine (.ofOpcode opcode) = .ok (machine.execute random (.restore opcode.x)) := by
  have last := opcode.x.val_lt
  rw [restore, Bare.toNat_x, bounded_eq (by rw [longLimit]; omega), ok_bind, Machine.execute]
  apply withRange_eq machine (by omega)
  intro span start size
  have whole : (machine.memory.read span).length = opcode.x.val + 1 := by
    rw [Memory.length_read, size]
  have few : (machine.memory.read span).length ≤ 16 := by omega
  rw [slice_memory, ok_bind, throughBuffer_eq _ (whole ▸ few) whole, ok_bind, ← whole,
    copyInto_registers _ few, ok_bind]

/-! ## Opcodes at work -/

theorem perform_of_kind {opcode : Opcode} (family : Family) (kind : opcode.kind = family.kind) :
    perform machine random (.ofOpcode opcode) = work machine random (.ofOpcode opcode) family := by
  have same : (Bare.ofOpcode opcode).family = family := by
    rw [Bare.family_ofOpcode, Opcode.family, kind, Family.ofKind_kind]
  simp only [perform, same]
  exact if_pos (congrArg (fun nibble : Nibble => UInt8.ofNat nibble.val) kind)

theorem perform_of_meaningless {opcode : Opcode} (meaningless : opcode.Meaningless) :
    perform machine random (.ofOpcode opcode) =
      .ok (machine.execute random (.unknown opcode.unknown)) := by
  rcases meaningless with ⟨kind, other⟩ | ⟨kind, unnamed⟩ | ⟨kind, other⟩ | ⟨kind, byte⟩ |
    ⟨kind, byte⟩
  · rw [perform_of_kind machine random .skipIfSame kind,
      Opcode.unknown_of_operands .skipIfSame kind rfl, ← ignoredOperands_eq]
    exact skipOnRegisters_of_ne machine other _ _
  · rw [perform_of_kind machine random .arithmetic kind,
      Opcode.unknown_of_operands .arithmetic kind rfl, ← ignoredOperands_eq]
    exact arithmetic_of_none machine unnamed
  · rw [perform_of_kind machine random .skipUnlessSame kind,
      Opcode.unknown_of_operands .skipUnlessSame kind rfl, ← ignoredOperands_eq]
    exact skipOnRegisters_of_ne machine other _ _
  · simp only [List.mem_cons, List.not_mem_nil, or_false, not_or] at byte
    rw [perform_of_kind machine random .skipPin kind, work, skipPin, Bare.toNat_x, get_eq, ok_bind,
      Bare.value_ofOpcode, Opcode.unknown_of_registerValue .skipPin kind rfl, ← ignoredValue_eq]
    dsimp only
    split
    · exact absurd ‹_› byte.1
    · exact absurd ‹_› byte.2
    · rfl
  · simp only [List.mem_cons, List.not_mem_nil, or_false, not_or] at byte
    rw [perform_of_kind machine random .peripheral kind, work, Bare.value_ofOpcode,
      Opcode.unknown_of_registerValue .peripheral kind rfl, ← ignoredValue_eq]
    unfold peripheral
    split
    case h_10 => rfl
    all_goals omega

theorem perform_peripheral {opcode : Opcode} {x : Nibble} {byte : Nat}
    (has : opcode.HasByte 0xF x byte) :
    perform machine random (.ofOpcode opcode) = peripheral machine (.ofOpcode opcode) byte := by
  rw [perform_of_kind machine random .peripheral has.1, work, Bare.value_ofOpcode, has.2.2]

theorem perform_eq :
    perform machine random (.ofOpcode opcode) = .ok (machine.perform opcode random) := by
  rw [Machine.perform_eq_execute]
  have encodes := opcode.encodes_instruction
  generalize opcode.instruction = instruction at encodes ⊢
  cases instruction with
  | clear | goBack =>
      obtain ⟨kind, address⟩ := encodes
      rw [perform_of_kind machine random .system kind, work, system, Bare.address_ofOpcode,
        Address.toNat_word, address]
      rfl
  | routine nnn =>
      obtain ⟨kind, rfl, notClear, notReturn⟩ := encodes
      rw [perform_of_kind machine random .system kind, work, system, Bare.address_ofOpcode,
        Address.toNat_word]
      dsimp only
      split
      · exact absurd ‹_› notClear
      · exact absurd ‹_› notReturn
      · simp only [Nat.mod_eq_of_lt opcode.address.isLt]
        rfl
  | jump nnn =>
      obtain ⟨kind, rfl⟩ := encodes
      rw [perform_of_kind machine random .jump kind, work, Bare.address_ofOpcode]
      rfl
  | call nnn =>
      obtain ⟨kind, rfl⟩ := encodes
      rw [perform_of_kind machine random .call kind, work, Bare.address_ofOpcode]
      rfl
  | setIndex nnn =>
      obtain ⟨kind, rfl⟩ := encodes
      rw [perform_of_kind machine random .setIndex kind, work, Bare.address_ofOpcode]
      rfl
  | jumpOffset nnn =>
      obtain ⟨kind, rfl⟩ := encodes
      rw [perform_of_kind machine random .jumpOffset kind]
      exact jumpOffset_eq machine opcode random
  | skipIfValue x nn =>
      obtain ⟨kind, rfl, rfl⟩ := encodes
      rw [perform_of_kind machine random .skipIfValue kind]
      exact skipOnValue_eq machine opcode _
  | skipUnlessValue x nn =>
      obtain ⟨kind, rfl, rfl⟩ := encodes
      rw [perform_of_kind machine random .skipUnlessValue kind]
      exact skipOnValue_eq machine opcode _
  | skipIfSame x y =>
      obtain ⟨kind, rfl, rfl, zero⟩ := encodes
      rw [perform_of_kind machine random .skipIfSame kind]
      exact skipOnRegisters_of_zero machine zero _ _
  | skipUnlessSame x y =>
      obtain ⟨kind, rfl, rfl, zero⟩ := encodes
      rw [perform_of_kind machine random .skipUnlessSame kind]
      exact skipOnRegisters_of_zero machine zero _ _
  | setValue x nn =>
      obtain ⟨kind, rfl, rfl⟩ := encodes
      rw [perform_of_kind machine random .setValue kind, work, Bare.value_ofOpcode]
      exact assign_eq machine opcode _
  | random x nn =>
      obtain ⟨kind, rfl, rfl⟩ := encodes
      rw [perform_of_kind machine random .random kind, work, Bare.value_ofOpcode]
      exact assign_eq machine opcode _
  | addValue x nn =>
      obtain ⟨kind, rfl, rfl⟩ := encodes
      rw [perform_of_kind machine random .addValue kind]
      exact addValue_eq machine opcode random
  | combine operation x y =>
      obtain ⟨kind, rfl, rfl, named⟩ := encodes
      rw [perform_of_kind machine random .arithmetic kind, work, arithmetic_of_some machine named]
      exact combine_eq machine opcode random operation
  | draw x y n =>
      obtain ⟨kind, rfl, rfl, rfl⟩ := encodes
      rw [perform_of_kind machine random .draw kind]
      exact draw_eq machine opcode random
  | skipIfPin x | skipUnlessPin x =>
      obtain ⟨kind, rfl, byte⟩ := encodes
      rw [perform_of_kind machine random .skipPin kind, work, skipPin, Bare.toNat_x, get_eq,
        ok_bind, Bare.value_ofOpcode, byte, toNat_and_fifteen]
      simp only [element_pins, ok_bind]
      rfl
  | getDelay x =>
      obtain ⟨kind, rfl, byte⟩ := encodes
      rw [perform_peripheral machine random ⟨kind, rfl, byte⟩]
      exact assign_eq machine opcode _
  | awaitPin x =>
      obtain ⟨kind, rfl, byte⟩ := encodes
      rw [perform_peripheral machine random ⟨kind, rfl, byte⟩]
      exact awaitPin_eq machine opcode random
  | setDelay x | setSound x | addIndex x =>
      obtain ⟨kind, rfl, byte⟩ := encodes
      rw [perform_peripheral machine random ⟨kind, rfl, byte⟩, peripheral, Bare.toNat_x]
      simp only [get_eq, ok_bind]
      rfl
  | glyph x =>
      obtain ⟨kind, rfl, byte⟩ := encodes
      rw [perform_peripheral machine random ⟨kind, rfl, byte⟩]
      exact glyph_eq machine opcode random
  | decimal x =>
      obtain ⟨kind, rfl, byte⟩ := encodes
      rw [perform_peripheral machine random ⟨kind, rfl, byte⟩]
      exact decimal_eq machine opcode random
  | save x =>
      obtain ⟨kind, rfl, byte⟩ := encodes
      rw [perform_peripheral machine random ⟨kind, rfl, byte⟩]
      exact save_eq machine opcode random
  | restore x =>
      obtain ⟨kind, rfl, byte⟩ := encodes
      rw [perform_peripheral machine random ⟨kind, rfl, byte⟩]
      exact restore_eq machine opcode random
  | unknown shown =>
      obtain ⟨rfl, meaningless⟩ := encodes
      rw [perform_of_meaningless machine random meaningless]

/-! ## Cycles -/

theorem ofBytes_word (word : UInt16) :
    Opcode.ofBytes (word >>> 8).toUInt8 word.toUInt8 = .ofWord word := by
  have small := word.toNat_lt
  have high : (word >>> 8).toUInt8.toNat = word.toNat / 256 := by
    have shifted : (word >>> 8).toNat = word.toNat / 256 := by
      rw [UInt16.toNat_shiftRight, Nat.shiftRight_eq_div_pow]
      rfl
    rw [UInt16.toNat_toUInt8, shifted]
    omega
  have low : word.toUInt8.toNat = word.toNat % 256 := UInt16.toNat_toUInt8 word
  ext <;> simp only [Opcode.ofBytes, Opcode.ofWord, Nibble.val_high, Nibble.val_low, high, low] <;>
    omega

theorem execute_eq (word : UInt16) :
    execute machine random word = .ok (machine.perform (.ofWord word) random) := by
  rw [execute, Bare.ofBytes_eq, ofBytes_word, perform_eq]

theorem fetch_eq : fetch machine = .ok (machine.fetch.map Bare.ofOpcode) := by
  rw [fetch, range_eq machine.pc (by decide), ok_bind, Machine.fetch]
  by_cases fits : machine.pc.toNat + 2 ≤ 4096
  · have bytes := slice_memory machine ⟨machine.pc.toNat, 2, fits⟩
    rw [Span.check_eq_ok fits]
    simp only [Except.map, bytes, ok_bind]
    rw [← Bare.ofBytes_eq]
    rfl
  · rw [Span.check_eq_error (Nat.lt_of_not_le fits)]
    rfl

theorem attempt_eq : attempt machine random = .ok (machine.attempt random) := by
  rw [attempt, fetch_eq, ok_bind, Machine.attempt]
  cases machine.fetch with
  | error fault => rfl
  | ok opcode =>
      simp only [Except.map, perform_eq, ok_bind, Bare.word_ofOpcode]

theorem cycle_eq : cycle machine random = .ok (machine.cycle random) := by
  rw [cycle, Machine.cycle]
  cases machine.fault with
  | some fault => rfl
  | none =>
      dsimp only
      rw [attempt_eq, ok_bind]

/-- Neither a cycle nor the execution of a word ever fails a check, whatever the state:
both end in the effect that the machine itself has. Every opcode has an instruction, and the
only fault of an instruction is an access past the end of memory. -/
theorem nothing_traps (machine : Machine) (random : UInt8) :
    cycle machine random = .ok (machine.cycle random) ∧
    (∀ word, execute machine random word = .ok (machine.perform (.ofWord word) random)) ∧
    (∀ opcode : Opcode, ∃ instruction, opcode.decode = .ok instruction) ∧
    (∀ word fault, (machine.perform (.ofWord word) random).fault = some fault →
      ∃ address, fault = .outOfBounds address) := by
  refine ⟨cycle_eq machine random, execute_eq machine random, ?_, ?_⟩
  · intro opcode
    exact ⟨_, opcode.decode_eq_ok⟩
  · intro word fault failed
    rw [Machine.perform_eq_execute] at failed
    rcases machine.past_or_fits (Opcode.ofWord word).instruction with ⟨reach, reached, past⟩ | fits
    · rw [Machine.execute_of_past reached past random] at failed
      exact ⟨_, (Option.some.inj failed).symm⟩
    · rw [(Machine.execute_spec fits random).fault] at failed
      cases failed

end Chip8.Guarded
