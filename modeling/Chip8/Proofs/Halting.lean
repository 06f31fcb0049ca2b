import Chip8.Proofs.Runs

/-! # Halting for good

A halted machine answers every cycle with the halt that it stores, and no operation
takes the halt away or touches what the program had computed. The log of a run shows
the halt once: at every moment the errors logged so far are those of the stored halt.
-/

namespace Chip8

/-! ## One record for one halt -/

def Machine.haltRecord (machine : Machine) : List Notice :=
  machine.fault.toList.map Notice.halted

namespace Machine

theorem length_haltRecord_le (machine : Machine) : machine.haltRecord.length ≤ 1 := by
  unfold haltRecord
  cases machine.fault with
  | none => exact Nat.zero_le 1
  | some fault => exact Nat.le_refl 1

theorem haltRecord_ne_nil_iff (machine : Machine) :
    machine.haltRecord ≠ [] ↔ machine.isHalted = true := by
  unfold haltRecord isHalted
  cases machine.fault with
  | none => simp
  | some fault => simp

theorem text_haltRecord (machine : Machine) :
    machine.haltRecord.map Notice.text = machine.fault.toList.map Fault.message := by
  unfold haltRecord
  rw [List.map_map]
  rfl

/-- A cycle logs an error exactly when it halts the machine. -/
theorem errors_cycle (machine : Machine) (random : UInt8) :
    machine.haltRecord ++ errors (machine.cycle random).notices =
      (machine.cycle random).machine.haltRecord := by
  cases machine.cycled random with
  | alreadyHalted fault stored turn =>
      rw [turn]
      exact List.append_nil _
  | fetchRefused running past turn =>
      rw [turn, haltRecord, running]
      rfl
  | instructionRefused running inside reach reached past turn =>
      rw [turn, haltRecord, running]
      rfl
  | executed running inside fits turn =>
      have spec := execute_spec fits random
      have mild : errors (machine.advance.execute random machine.opcodeAtPc.instruction).notices =
          [] := by
        apply errors_eq_nil
        intro notice noticed
        rw [spec.notices] at noticed
        exact level_of_noticesOf noticed
      rw [turn, haltRecord, haltRecord, Effect.noting, running, spec.halt.trans running]
      exact mild

theorem fault_cycle (machine : Machine) (random : UInt8) :
    (machine.cycle random).machine.fault = (machine.cycle random).fault := by
  cases machine.cycled random with
  | alreadyHalted fault stored turn =>
      rw [turn]
      exact stored
  | fetchRefused running past turn =>
      rw [turn]
      rfl
  | instructionRefused running inside reach reached past turn =>
      rw [turn]
      rfl
  | executed running inside fits turn =>
      have spec := execute_spec fits random
      rw [turn]
      exact (spec.halt.trans running).trans spec.fault.symm

end Machine

namespace Console

theorem errors_emit (console : Console) (notices : List Notice) :
    errors (console.emit notices).notices = errors notices := by
  unfold emit
  split
  · rfl
  · split
    · rfl
    · rw [errors_append]
      exact List.append_nil _

theorem errors_proceed (console : Console) (effect : Effect) :
    errors (console.proceed effect).notices = errors effect.notices := by
  obtain ⟨machine, fault, notices, drew⟩ := effect
  cases drew with
  | false => cases fault <;> rfl
  | true => cases fault <;> exact errors_emit _ notices

theorem errors_perform (console : Console) (operation : Operation) :
    console.machine.haltRecord ++ errors (console.perform operation).notices =
      (console.perform operation).console.machine.haltRecord := by
  rcases console.cycle_or_frozen operation with ⟨random, rfl⟩ | ⟨frozen, mild⟩
  · show console.machine.haltRecord ++ errors (console.cycle random).notices =
      (console.cycle random).console.machine.haltRecord
    rw [cycle, errors_proceed, proceed_machine]
    exact console.machine.errors_cycle random
  · rw [mild, List.append_nil, Machine.haltRecord, Machine.haltRecord, frozen.fault]

/-- Along a run the errors logged so far are those of the halt stored by now. -/
theorem errors_reports (console : Console) (operations : List Operation) :
    console.machine.haltRecord ++
        errors ((console.reports operations).flatMap Report.notices) =
      (console.after operations).machine.haltRecord := by
  induction operations generalizing console with
  | nil => exact List.append_nil _
  | cons operation rest ih =>
      have later := ih (console.perform operation).console
      simp only [reports, List.flatMap_cons, errors_append]
      rw [← List.append_assoc, errors_perform]
      exact later

/-! ## After the halt -/

theorem cycle_of_halted {console : Console} {fault : Fault}
    (stored : console.machine.fault = some fault) (random : UInt8) :
    console.cycle random = ⟨console, .failed fault, [], none⟩ := by
  rw [cycle, Machine.cycle_of_halted stored]
  rfl

theorem fault_cycle_of_failed {console : Console} {random : UInt8} {fault : Fault}
    (failed : (console.cycle random).result = .failed fault) :
    (console.cycle random).console.machine.fault = some fault := by
  rw [cycle, proceed_machine, Machine.fault_cycle]
  exact proceed_result_eq_failed_iff.mp failed

theorem perform_frozen_of_halted {console : Console} {fault : Fault}
    (stored : console.machine.fault = some fault) (operation : Operation) :
    console.machine.Frozen (console.perform operation).console.machine := by
  rcases console.cycle_or_frozen operation with ⟨random, rfl⟩ | ⟨frozen, _⟩
  · show console.machine.Frozen (console.cycle random).console.machine
    rw [cycle_of_halted stored]
    exact .refl console.machine
  · exact frozen

/-- No operation thaws a halted machine. -/
theorem after_frozen_of_halted {console : Console} {fault : Fault}
    (stored : console.machine.fault = some fault) (operations : List Operation) :
    console.machine.Frozen (console.after operations).machine := by
  have step : ∀ (current : Console) (operation : Operation),
      console.machine.Frozen current.machine →
      console.machine.Frozen (current.perform operation).console.machine := by
    intro current operation frozen
    have still : current.machine.fault = some fault := frozen.fault.trans stored
    exact frozen.trans (perform_frozen_of_halted still operation)
  exact after_induction step (.refl console.machine) operations

end Console

/-! ## The whole run -/

theorem Constructed.errors_log {start : Report} (constructed : Constructed start)
    (operations : List Operation) :
    errors (start.log operations) = (start.console.after operations).machine.haltRecord := by
  obtain ⟨frozen, mild⟩ := constructed.frozen
  have first : start.console.machine.haltRecord = [] := by
    rw [Machine.haltRecord, frozen.fault]
    rfl
  have later := start.console.errors_reports operations
  rw [first, List.nil_append] at later
  rw [Report.log, errors_append, mild, List.nil_append]
  exact later

/-- Once a cycle has failed, every later cycle of the run fails with the same error and
does nothing else, and no operation unfreezes the machine. The log of a run has at most one
error; it has one exactly if the machine has halted, and then it is the text of the halt. -/
theorem halt_is_permanent {start : Report} (constructed : Constructed start)
    (operations : List Operation) :
    (∀ random fault later,
      ((start.console.after operations).cycle random).result = .failed fault →
      let halted := ((start.console.after operations).cycle random).console
      let final := halted.after later
      (∀ next, final.cycle next = ⟨final, .failed fault, [], none⟩) ∧
        final.machine.isHalted = true ∧ halted.machine.Frozen final.machine) ∧
    (errors (start.log operations)).length ≤ 1 ∧
    (errors (start.log operations) ≠ [] ↔
      (start.console.after operations).machine.isHalted = true) ∧
    (errors (start.log operations)).map Notice.text =
      (start.console.after operations).machine.fault.toList.map Fault.message := by
  refine ⟨?_, ?_⟩
  · intro random fault later failed halted final
    have stored : halted.machine.fault = some fault := Console.fault_cycle_of_failed failed
    have frozen : halted.machine.Frozen final.machine :=
      Console.after_frozen_of_halted stored later
    have still : final.machine.fault = some fault := frozen.fault.trans stored
    refine ⟨Console.cycle_of_halted still, ?_, frozen⟩
    simp only [Machine.isHalted, still, Option.isSome_some]
  · rw [constructed.errors_log operations]
    exact ⟨Machine.length_haltRecord_le _, Machine.haltRecord_ne_nil_iff _,
      Machine.text_haltRecord _⟩

/-- A jump to the last byte halts the next cycle; a new program does not help. -/
theorem halt_after_jump_to_last_byte :
    Constructed (Console.create.load [0x1F, 0xFF]) ∧
    let halted := (((Console.create.load [0x1F, 0xFF]).console.after [.cycle 0]).cycle 0).console
    let final := halted.after [.load [0x12, 0x00], .setPin 3 true, .tick, .attach]
    (((Console.create.load [0x1F, 0xFF]).console.after [.cycle 0]).cycle 0).result =
        .failed (.halted 0xFFF (.outOfBounds 0x1000)) ∧
      (∀ next, final.cycle next =
        ⟨final, .failed (.halted 0xFFF (.outOfBounds 0x1000)), [], none⟩) ∧
      final.machine.isHalted = true ∧ halted.machine.Frozen final.machine := by
  have constructed : Constructed (Console.create.load [0x1F, 0xFF]) :=
    .withProgram [0x1F, 0xFF] _ (Console.withProgram_of_fits (by decide))
  have failed : (((Console.create.load [0x1F, 0xFF]).console.after [.cycle 0]).cycle 0).result =
      .failed (.halted 0xFFF (.outOfBounds 0x1000)) := by
    decide +kernel
  exact ⟨constructed, failed, (halt_is_permanent constructed [.cycle 0]).1 0 _ _ failed⟩

end Chip8
