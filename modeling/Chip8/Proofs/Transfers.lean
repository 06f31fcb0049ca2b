import Chip8.Proofs.Decoding
import Chip8.Proofs.Cycle

/-! # Registers and memory

What the three instructions between registers and memory leave: the stored registers and
the loaded bytes one by one, and the decimal digits of a register. From these statements
alone it follows that what was stored is loaded again, whatever happened to the registers
meanwhile, and that storing what was just loaded changes no byte.
-/

namespace Chip8

namespace Machine

/-- The registers up to a last one have been stored from the index on. -/
structure Saved (before : Machine) (last : Nibble) (after : Machine) : Prop where
  stored : ∀ r ≤ last,
    after.memory.byte (before.index.toNat + r.val) = before.registers.get r
  memory : ∀ address, ¬ (before.index.toNat ≤ address ∧ address ≤ before.index.toNat + last.val) →
    after.memory.byte address = before.memory.byte address
  rest : after = { before with memory := after.memory }

/-- The registers up to a last one have been loaded from the index on. -/
structure Restored (before : Machine) (last : Nibble) (after : Machine) : Prop where
  loaded : ∀ r ≤ last,
    after.registers.get r = before.memory.byte (before.index.toNat + r.val)
  registers : ∀ r, last < r → after.registers.get r = before.registers.get r
  rest : after = { before with registers := after.registers }

/-- The decimal digits of a register have been stored from the index on. -/
structure Spelled (before : Machine) (x : Nibble) (after : Machine) : Prop where
  digit : ∀ k < 3, (after.memory.byte (before.index.toNat + k)).toNat ≤ 9
  number : 100 * (after.memory.byte before.index.toNat).toNat +
      10 * (after.memory.byte (before.index.toNat + 1)).toNat +
      (after.memory.byte (before.index.toNat + 2)).toNat = (before.registers.get x).toNat
  memory : ∀ address, ¬ (before.index.toNat ≤ address ∧ address ≤ before.index.toNat + 2) →
    after.memory.byte address = before.memory.byte address
  rest : after = { before with memory := after.memory }

/-! ## One instruction -/

variable {machine : Machine} {x : Nibble}

theorem execute_save (fits : machine.index.toNat + (x.val + 1) ≤ 4096) (random : UInt8) :
    machine.execute random (.save x) =
      .silent { machine with
        memory := machine.memory.store machine.index.toNat (machine.registers.upTo x) } :=
  withSpan_of_fits _ fits

theorem execute_restore (fits : machine.index.toNat + (x.val + 1) ≤ 4096) (random : UInt8) :
    machine.execute random (.restore x) =
      .silent { machine with
        registers := machine.registers.load (machine.bytesAtIndex (x.val + 1)) } :=
  withSpan_of_fits _ fits

theorem execute_decimal (fits : machine.index.toNat + 3 ≤ 4096) (random : UInt8) :
    machine.execute random (.decimal x) =
      .silent { machine with
        memory := machine.memory.store machine.index.toNat
          (decimalDigits (machine.registers.get x)) } :=
  withSpan_of_fits _ fits

theorem getD_upTo (registers : Registers) {last r : Nibble} (within : r ≤ last) :
    (registers.upTo last).getD r.val 0 = registers.get r := by
  rw [List.getD_eq_getElem?_getD, registers.getElem_upTo last r within, Option.getD_some]

theorem saved_store (fits : machine.index.toNat + (x.val + 1) ≤ 4096) :
    machine.Saved x { machine with
      memory := machine.memory.store machine.index.toNat (machine.registers.upTo x) } := by
  have length := machine.registers.length_upTo x
  refine ⟨?_, ?_, rfl⟩
  · intro r within
    have := Fin.le_def.mp within
    dsimp only
    rw [Memory.byte_store _ (by rwa [length]), if_pos (by omega), Nat.add_sub_cancel_left]
    exact getD_upTo machine.registers within
  · intro address outside
    dsimp only
    rw [Memory.byte_store _ (by rwa [length]), if_neg (by omega)]

theorem restored_load (machine : Machine) (x : Nibble) :
    machine.Restored x { machine with
      registers := machine.registers.load (machine.bytesAtIndex (x.val + 1)) } := by
  refine ⟨?_, ?_, rfl⟩
  · intro r within
    dsimp only
    rw [Registers.get_load, machine.getD_bytesAtIndex (Nat.lt_succ_of_le (Fin.le_def.mp within))]
  · intro r above
    dsimp only
    rw [Registers.get_load, machine.getD_bytesAtIndex_of_le (Fin.lt_def.mp above)]

/-- Digit by digit, what the decimal digits of a byte leave where they are stored. -/
theorem toNat_byte_decimalDigits (memory : Memory) {start : Nat} (fits : start + 3 ≤ 4096)
    (value : UInt8) {k : Nat} (inside : k < 3) :
    ((memory.store start (decimalDigits value)).byte (start + k)).toNat =
      [value.toNat / 100, value.toNat / 10 % 10, value.toNat % 10].getD k 0 := by
  rw [Memory.byte_store _ fits, if_pos ⟨by omega, Nat.add_lt_add_left inside _⟩,
    Nat.add_sub_cancel_left]
  rcases (by omega : k = 0 ∨ k = 1 ∨ k = 2) with rfl | rfl | rfl <;> simp [decimalDigits]

theorem spelled_store (fits : machine.index.toNat + 3 ≤ 4096) :
    machine.Spelled x { machine with
      memory := machine.memory.store machine.index.toNat
        (decimalDigits (machine.registers.get x)) } := by
  have small := (machine.registers.get x).toNat_lt
  have hundreds := toNat_byte_decimalDigits machine.memory fits (machine.registers.get x)
    (show 0 < 3 by decide)
  have tens := toNat_byte_decimalDigits machine.memory fits (machine.registers.get x)
    (show 1 < 3 by decide)
  have ones := toNat_byte_decimalDigits machine.memory fits (machine.registers.get x)
    (show 2 < 3 by decide)
  simp only [Nat.add_zero, List.getD_cons_zero, List.getD_cons_succ] at hundreds tens ones
  refine ⟨?_, ?_, ?_, rfl⟩
  · intro k inside
    rcases (by omega : k = 0 ∨ k = 1 ∨ k = 2) with rfl | rfl | rfl
    · rw [Nat.add_zero, hundreds]
      omega
    · rw [tens]
      omega
    · rw [ones]
      omega
  · dsimp only
    rw [hundreds, tens, ones]
    omega
  · intro address outside
    dsimp only
    rw [Memory.byte_store _ fits, if_neg]
    rintro ⟨low, high⟩
    exact outside ⟨low, Nat.le_of_lt_succ high⟩

/-! ## There and back -/

/-- What was stored is loaded again from the same index, as long as the stored bytes stand. -/
theorem Saved.restored {before saved later after : Machine} {last y : Nibble}
    (stores : before.Saved last saved) (within : y ≤ last) (loads : later.Restored y after)
    (index : later.index = before.index)
    (stands : ∀ r ≤ y, later.memory.byte (before.index.toNat + r.val) =
      saved.memory.byte (before.index.toNat + r.val)) :
    ∀ r ≤ y, after.registers.get r = before.registers.get r := by
  intro r among
  calc after.registers.get r
      = later.memory.byte (later.index.toNat + r.val) := loads.loaded r among
    _ = later.memory.byte (before.index.toNat + r.val) := by rw [index]
    _ = saved.memory.byte (before.index.toNat + r.val) := stands r among
    _ = before.registers.get r := stores.stored r (Fin.le_trans among within)

theorem Restored.index {before after : Machine} (loads : before.Restored x after) :
    after.index = before.index := by
  rw [loads.rest]

theorem Restored.memory {before after : Machine} (loads : before.Restored x after) :
    after.memory = before.memory := by
  rw [loads.rest]

/-- Storing what was just loaded changes no byte. -/
theorem Restored.saved {before loaded after : Machine} (loads : before.Restored x loaded)
    (stores : loaded.Saved x after) : after.memory = before.memory := by
  apply Memory.ext_byte
  intro address _
  by_cases within : loaded.index.toNat ≤ address ∧ address ≤ loaded.index.toNat + x.val
  · have small := x.val_lt
    let r : Nibble := ⟨address - loaded.index.toNat, by omega⟩
    have place : loaded.index.toNat + r.val = address := by
      show loaded.index.toNat + (address - loaded.index.toNat) = address
      omega
    have among : r ≤ x := by
      rw [Fin.le_def]
      omega
    have stored := stores.stored r among
    rw [loads.loaded r among, ← loads.index, place] at stored
    exact stored
  · rw [stores.memory address within, loads.memory]

end Machine

namespace Console

variable {console : Console} {x : Nibble}

theorem save_spec (fits : console.machine.index.toNat + (x.val + 1) ≤ 4096) (random : UInt8) :
    (console.execute ⟨0xF, x, 0x5, 0x5⟩ random).result = .done ∧
      console.machine.Saved x (console.execute ⟨0xF, x, 0x5, 0x5⟩ random).console.machine := by
  have decoded : (⟨0xF, x, 0x5, 0x5⟩ : Opcode).instruction = .save x :=
    Opcode.instruction_eq_iff.mpr ⟨rfl, rfl, rfl⟩
  rw [execute_of_silent decoded (Machine.execute_save fits random)]
  exact ⟨rfl, Machine.saved_store fits⟩

theorem restore_spec (fits : console.machine.index.toNat + (x.val + 1) ≤ 4096) (random : UInt8) :
    (console.execute ⟨0xF, x, 0x6, 0x5⟩ random).result = .done ∧
      console.machine.Restored x (console.execute ⟨0xF, x, 0x6, 0x5⟩ random).console.machine := by
  have decoded : (⟨0xF, x, 0x6, 0x5⟩ : Opcode).instruction = .restore x :=
    Opcode.instruction_eq_iff.mpr ⟨rfl, rfl, rfl⟩
  rw [execute_of_silent decoded (Machine.execute_restore fits random)]
  exact ⟨rfl, console.machine.restored_load x⟩

theorem decimal_spec (fits : console.machine.index.toNat + 3 ≤ 4096) (random : UInt8) :
    (console.execute ⟨0xF, x, 0x3, 0x3⟩ random).result = .done ∧
      console.machine.Spelled x (console.execute ⟨0xF, x, 0x3, 0x3⟩ random).console.machine := by
  have decoded : (⟨0xF, x, 0x3, 0x3⟩ : Opcode).instruction = .decimal x :=
    Opcode.instruction_eq_iff.mpr ⟨rfl, rfl, rfl⟩
  rw [execute_of_silent decoded (Machine.execute_decimal fits random)]
  exact ⟨rfl, Machine.spelled_store fits⟩

/-- Storing, loading and spelling move exactly the bytes they are about. Registers that were
stored come back from the same index whatever has happened to them, and storing what was
just loaded leaves memory as it was. -/
theorem transfers_are_exact (console : Console) (x : Nibble) (random again : UInt8) :
    (console.machine.index.toNat + (x.val + 1) ≤ 4096 →
      let saved := console.execute ⟨0xF, x, 0x5, 0x5⟩ random
      let restored := console.execute ⟨0xF, x, 0x6, 0x5⟩ random
      (saved.result = .done ∧ console.machine.Saved x saved.console.machine) ∧
      (restored.result = .done ∧ console.machine.Restored x restored.console.machine) ∧
      (∀ (y : Nibble) (later : Console), y ≤ x →
        later.machine.index = console.machine.index →
        (∀ r ≤ y, later.machine.memory.byte (console.machine.index.toNat + r.val) =
          saved.console.machine.memory.byte (console.machine.index.toNat + r.val)) →
        let back := later.execute ⟨0xF, y, 0x6, 0x5⟩ again
        back.result = .done ∧
        (∀ r ≤ y, back.console.machine.registers.get r = console.machine.registers.get r) ∧
        ∀ r, y < r → back.console.machine.registers.get r = later.machine.registers.get r) ∧
      (restored.console.execute ⟨0xF, x, 0x5, 0x5⟩ again).result = .done ∧
      (restored.console.execute ⟨0xF, x, 0x5, 0x5⟩ again).console.machine.memory =
        console.machine.memory) ∧
    (console.machine.index.toNat + 3 ≤ 4096 →
      let spelled := console.execute ⟨0xF, x, 0x3, 0x3⟩ random
      spelled.result = .done ∧ console.machine.Spelled x spelled.console.machine) := by
  constructor
  · intro fits saved restored
    have saves : saved.result = .done ∧ console.machine.Saved x saved.console.machine :=
      save_spec fits random
    have restores : restored.result = .done ∧
        console.machine.Restored x restored.console.machine := restore_spec fits random
    refine ⟨saves, restores, ?_, ?_⟩
    · intro y later within index stands back
      have := Fin.le_def.mp within
      have fitsLater : later.machine.index.toNat + (y.val + 1) ≤ 4096 := by
        rw [index]
        omega
      have loads := restore_spec fitsLater again
      exact ⟨loads.1, saves.2.restored within loads.2 index stands, loads.2.registers⟩
    · have fitsStill : restored.console.machine.index.toNat + (x.val + 1) ≤ 4096 := by
        rwa [restores.2.index]
      have stores := save_spec fitsStill again
      exact ⟨stores.1, restores.2.saved stores.2⟩
  · intro fits
    exact decimal_spec fits random

def savingAtEnd : Console :=
  { create with
    machine := { Machine.fresh with
      registers := (Registers.zero.set 0 7).set 0xF 255
      index := 0xFF0 } }

theorem saving_at_end_is_exact :
    savingAtEnd.machine.index.toNat + ((0xF : Nibble).val + 1) ≤ 4096 ∧
    savingAtEnd.machine.index.toNat + 3 ≤ 4096 ∧
    let saved := savingAtEnd.execute ⟨0xF, 0xF, 0x5, 0x5⟩ 0
    let wiped := { saved.console with machine.registers := Registers.zero }
    let back := wiped.execute ⟨0xF, 0xE, 0x6, 0x5⟩ 0
    let spelled := savingAtEnd.execute ⟨0xF, 0xF, 0x3, 0x3⟩ 0
    saved.console.machine.memory.byte 0xFFF = 255 ∧
    back.console.machine.registers.get 0 = 7 ∧ back.console.machine.registers.get 0xF = 0 ∧
    savingAtEnd.machine.Spelled 0xF spelled.console.machine := by
  have fits : savingAtEnd.machine.index.toNat + ((0xF : Nibble).val + 1) ≤ 4096 := by decide
  have room : savingAtEnd.machine.index.toNat + 3 ≤ 4096 := by decide
  obtain ⟨transfers, spelling⟩ := transfers_are_exact savingAtEnd 0xF 0 0
  obtain ⟨⟨-, saved⟩, -, restores, -⟩ := transfers fits
  refine ⟨fits, room, ?_⟩
  intro _ wiped back spelled
  have loads := restores 0xE wiped (by decide) rfl (fun _ _ => rfl)
  exact ⟨saved.stored 0xF (by decide), loads.2.1 0 (by decide), loads.2.2 0xF (by decide),
    (spelling room).2⟩

end Console

end Chip8
