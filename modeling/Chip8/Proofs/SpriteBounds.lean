import Chip8.Proofs.Faults
import Chip8.Proofs.Halting
import Chip8.Proofs.Sprites

/-! # Sprites and the end of memory

When a draw is refused. The check looks at the end of the range and not at the bytes that are
read, so besides a sprite with a missing row it also refuses one without rows, if the index
points beyond the end of memory.
-/

namespace Chip8

namespace Machine

/-- One of the rows of the sprite that the index points to is not in memory. -/
def MissesRow (machine : Machine) (n : Nibble) : Prop :=
  ∃ row, row < n.val ∧ 4096 ≤ machine.index.toNat + row

/-- The sprite has no rows, but the index points beyond the end of memory. -/
def EmptyPastEnd (machine : Machine) (n : Nibble) : Prop :=
  n = 0 ∧ 4096 < machine.index.toNat

theorem reach_draw (machine : Machine) (x y n : Nibble) :
    machine.reach (.draw x y n) = some ⟨machine.index.toNat, n.val⟩ :=
  rfl

/-- Only of an empty sprite can the range end past memory without a row that does. -/
theorem draw_past_iff {machine : Machine} {n : Nibble} :
    4096 < machine.index.toNat + n.val ↔ machine.MissesRow n ∨ machine.EmptyPastEnd n := by
  constructor
  · intro past
    by_cases rows : n.val = 0
    · have empty : n = 0 := Fin.ext rows
      rw [rows, Nat.add_zero] at past
      exact Or.inr ⟨empty, past⟩
    · -- The last row is the one that lies furthest out.
      have last : n.val - 1 < n.val := by omega
      have missing : 4096 ≤ machine.index.toNat + (n.val - 1) := by omega
      exact Or.inl ⟨n.val - 1, last, missing⟩
  · intro refused
    cases refused with
    | inl misses =>
        obtain ⟨row, listed, missing⟩ := misses
        omega
    | inr empty =>
        have beyond := empty.2
        omega

theorem not_missesRow_zero (machine : Machine) : ¬ machine.MissesRow 0 := by
  intro misses
  obtain ⟨row, listed, _⟩ := misses
  exact Nat.not_lt_zero row listed

theorem fits_draw_iff {machine : Machine} {x y n : Nibble} :
    machine.Fits (.draw x y n) ↔ ¬ (machine.MissesRow n ∨ machine.EmptyPastEnd n) := by
  rw [← draw_past_iff, Nat.not_lt]
  constructor
  · intro fits
    exact fits _ (machine.reach_draw x y n)
  · intro inside
    exact fits_of_reach (machine.reach_draw x y n) inside

end Machine

namespace Console

variable {console : Console} {x y n : Nibble}

theorem execute_draw_of_past
    (past : console.machine.MissesRow n ∨ console.machine.EmptyPastEnd n) (random : UInt8) :
    console.execute ⟨0xD, x, y, n⟩ random =
      ⟨console, .failed (.outOfBounds (max console.machine.index.toNat 4096)), [], none⟩ := by
  have beyond := Machine.draw_past_iff.mpr past
  apply execute_of_fault
  rw [execute, proceed_result_eq_failed_iff, Machine.perform_eq_execute,
    Opcode.instruction_of_draw rfl,
    Machine.execute_of_past (console.machine.reach_draw x y n) beyond]
  rfl

theorem execute_draw_of_fits
    (fits : ¬ (console.machine.MissesRow n ∨ console.machine.EmptyPastEnd n)) (random : UInt8) :
    (console.execute ⟨0xD, x, y, n⟩ random).result = .done :=
  (console.draw_done random (Machine.fits_draw_iff.mpr fits)).1

theorem execute_draw_failed_iff {random : UInt8} :
    (∃ fault, (console.execute ⟨0xD, x, y, n⟩ random).result = .failed fault) ↔
      console.machine.MissesRow n ∨ console.machine.EmptyPastEnd n := by
  constructor
  · intro failed
    obtain ⟨fault, result⟩ := failed
    apply Classical.byContradiction
    intro fits
    rw [execute_draw_of_fits fits] at result
    cases result
  · intro past
    rw [execute_draw_of_past past]
    exact ⟨_, rfl⟩

theorem isHalted_cycle_iff {random : UInt8} :
    (console.cycle random).console.machine.isHalted = true ↔
      (console.cycle random).result ≠ .done := by
  rw [Ne, cycle, proceed_result_eq_done_iff, proceed_machine, Machine.isHalted,
    Machine.fault_cycle, Option.isSome_iff_ne_none]

theorem cycle_draw_done_iff {random : UInt8} (running : console.machine.fault = none)
    (fetched : console.machine.fetch = .ok ⟨0xD, x, y, n⟩) :
    (console.cycle random).result = .done ↔
      ¬ (console.machine.MissesRow n ∨ console.machine.EmptyPastEnd n) := by
  obtain ⟨inside, stands⟩ := Machine.fetch_eq_ok_iff.mp fetched
  rw [cycle_done_iff, stands, Opcode.instruction_of_draw rfl, Machine.fits_draw_iff]
  -- What is left of the condition is about the advanced machine, which has the same index.
  exact ⟨fun runs => runs.2.2, fun fits => ⟨running, inside, fits⟩⟩

/-- A draw fails exactly if a row of its sprite is not in memory, or if there is no row and
the index points beyond the end of memory; then nothing has changed. A running machine that
comes to the draw halts exactly in the same cases. -/
theorem draw_fails_iff (console : Console) (x y n : Nibble) (random : UInt8) :
    ((∃ fault, (console.execute ⟨0xD, x, y, n⟩ random).result = .failed fault) ↔
      console.machine.MissesRow n ∨ console.machine.EmptyPastEnd n) ∧
    (∀ fault, (console.execute ⟨0xD, x, y, n⟩ random).result = .failed fault →
      console.execute ⟨0xD, x, y, n⟩ random =
        ⟨console, .failed (.outOfBounds (max console.machine.index.toNat 4096)), [], none⟩) ∧
    (console.machine.fault = none → console.machine.fetch = .ok ⟨0xD, x, y, n⟩ →
      ((console.cycle random).console.machine.isHalted = true ↔
        console.machine.MissesRow n ∨ console.machine.EmptyPastEnd n)) := by
  refine ⟨execute_draw_failed_iff, ?unchanged, ?halts⟩
  case unchanged =>
    intro fault failed
    exact execute_draw_of_past (execute_draw_failed_iff.mp ⟨fault, failed⟩) random
  case halts =>
    intro running fetched
    rw [isHalted_cycle_iff, Ne, cycle_draw_done_iff running fetched, Classical.not_not]

/-- Five rows from two bytes before the end of memory halt the machine; two rows would be drawn. -/
theorem drawing_past_end_halts :
    drawingPastEnd.machine.fetch = .ok ⟨0xD, 0, 1, 5⟩ ∧
    drawingPastEnd.machine.MissesRow 5 ∧
    (drawingPastEnd.cycle 0).console.machine.isHalted = true ∧
    (∃ fault, (drawingPastEnd.execute ⟨0xD, 0, 1, 5⟩ 0).result = .failed fault) ∧
    ¬ ∃ fault, (drawingPastEnd.execute ⟨0xD, 0, 1, 2⟩ 0).result = .failed fault := by
  have inside : drawingPastEnd.machine.pc.toNat + 2 ≤ 4096 := by decide
  have fetched : drawingPastEnd.machine.fetch = .ok ⟨0xD, 0, 1, 5⟩ :=
    Machine.fetch_eq_ok_iff.mpr ⟨inside, opcode_drawingPastEnd⟩
  have misses : drawingPastEnd.machine.MissesRow 5 := ⟨2, by decide, by decide⟩
  have fits : ¬ (drawingPastEnd.machine.MissesRow 2 ∨ drawingPastEnd.machine.EmptyPastEnd 2) := by
    rw [← Machine.draw_past_iff]
    decide
  have fiveRows := draw_fails_iff drawingPastEnd 0 1 5 0
  have twoRows := draw_fails_iff drawingPastEnd 0 1 2 0
  exact ⟨fetched, misses, (fiveRows.2.2 rfl fetched).mpr (Or.inl misses),
    fiveRows.1.mpr (Or.inl misses), fun failed => fits (twoRows.1.mp failed)⟩

def drawingNothingPastEnd : Console :=
  (create.load [0x60, 0xFF, 0xAF, 0xFF, 0xF0, 0x1E, 0xD0, 0x00]).console.after
    [.cycle 0, .cycle 0, .cycle 0]

theorem drawing_nothing_past_end_halts :
    (drawingNothingPastEnd.cycle 0).result = .failed (.halted 0x206 (.outOfBounds 0x10FE)) ∧
    ¬ ∀ (console : Console) (x y n : Nibble) (random : UInt8),
      (∃ fault, (console.execute ⟨0xD, x, y, n⟩ random).result = .failed fault) ↔
        console.machine.MissesRow n := by
  have halts : (drawingNothingPastEnd.cycle 0).result =
      .failed (.halted 0x206 (.outOfBounds 0x10FE)) := by
    decide +kernel
  have fails : (drawingNothingPastEnd.execute ⟨0xD, 0, 0, 0⟩ 0).result =
      .failed (.outOfBounds 0x10FE) := by
    decide +kernel
  refine ⟨halts, ?_⟩
  intro onlyMissing
  have misses := (onlyMissing drawingNothingPastEnd 0 0 0 0).mp ⟨_, fails⟩
  exact Machine.not_missesRow_zero _ misses

end Console

end Chip8
