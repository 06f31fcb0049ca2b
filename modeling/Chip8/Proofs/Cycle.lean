import Chip8.Console
import Chip8.Proofs.Execution

/-! # The four ways of a cycle

A cycle finds the machine halted, cannot fetch, fetches an instruction that is
refused, or executes one. `Machine.cycled` says in each case which state and which
outcome the cycle has; the results about a console's cycle follow from it.
-/

namespace Chip8

theorem Effect.haltedAt_of_no_fault {effect : Effect} (fine : effect.fault = none)
    (pc : UInt16) : effect.haltedAt pc = effect := by
  rw [Effect.haltedAt, fine]

namespace Machine

/-! ## Fetching -/

def opcodeAtPc (machine : Machine) : Opcode :=
  .ofBytes (machine.memory.byte machine.pc.toNat) (machine.memory.byte (machine.pc.toNat + 1))

theorem fetch_eq_ok {machine : Machine} (inside : machine.pc.toNat + 2 ≤ 4096) :
    machine.fetch = .ok machine.opcodeAtPc := by
  rw [fetch, Span.check_eq_ok inside]
  rfl

theorem fetch_eq_error {machine : Machine} (past : 4096 < machine.pc.toNat + 2) :
    machine.fetch = .error (.outOfBounds (max machine.pc.toNat 4096)) := by
  rw [fetch, Span.check_eq_error past]
  rfl

theorem fetch_eq_ok_iff {machine : Machine} {opcode : Opcode} :
    machine.fetch = .ok opcode ↔
      machine.pc.toNat + 2 ≤ 4096 ∧ machine.opcodeAtPc = opcode := by
  by_cases inside : machine.pc.toNat + 2 ≤ 4096
  · simp [fetch_eq_ok inside, inside]
  · simp [fetch_eq_error (Nat.lt_of_not_le inside), inside]

/-- A machine fetches the opcode that is stored where it stands. -/
theorem fetch_store (machine : Machine) {address : Nat} (here : machine.pc.toNat = address)
    (inside : address + 2 ≤ 4096) (high low : UInt8) :
    ({ machine with memory := machine.memory.store address [high, low] } : Machine).fetch =
      .ok (.ofBytes high low) := by
  have fits : address + [high, low].length ≤ 4096 := inside
  refine fetch_eq_ok_iff.mpr ⟨here ▸ inside, ?_⟩
  rw [opcodeAtPc, here, Memory.byte_store _ fits, Memory.byte_store _ fits]
  simp

theorem toNat_pc_advance {machine : Machine} (inside : machine.pc.toNat + 2 < 65536) :
    machine.advance.pc.toNat = machine.pc.toNat + 2 := by
  have sum : machine.advance.pc.toNat = (machine.pc.toNat + 2) % 65536 :=
    UInt16.toNat_add machine.pc 2
  rw [sum, Nat.mod_eq_of_lt inside]

/-! ## Cases -/

/-- What a cycle finds, and what it makes of it. -/
inductive Cycled (machine : Machine) (random : UInt8) : Prop where
  | alreadyHalted (fault : Fault) (stored : machine.fault = some fault)
      (turn : machine.cycle random = .refused machine fault)
  | fetchRefused (running : machine.fault = none) (past : 4096 < machine.pc.toNat + 2)
      (turn : machine.cycle random =
        (Effect.refused machine (.outOfBounds (max machine.pc.toNat 4096))).haltedAt machine.pc)
  | instructionRefused (running : machine.fault = none) (inside : machine.pc.toNat + 2 ≤ 4096)
      (reach : Reach) (reached : machine.reach machine.opcodeAtPc.instruction = some reach)
      (past : 4096 < reach.start + reach.size)
      (turn : machine.cycle random =
        ((Effect.refused machine.advance (.outOfBounds (max reach.start 4096))).noting
          (.fetched machine.pc machine.opcodeAtPc.word)).haltedAt machine.pc)
  | executed (running : machine.fault = none) (inside : machine.pc.toNat + 2 ≤ 4096)
      (fits : machine.advance.Fits machine.opcodeAtPc.instruction)
      (turn : machine.cycle random =
        (machine.advance.execute random machine.opcodeAtPc.instruction).noting
          (.fetched machine.pc machine.opcodeAtPc.word))

theorem cycle_of_halted {machine : Machine} {fault : Fault} (stored : machine.fault = some fault)
    (random : UInt8) : machine.cycle random = .refused machine fault := by
  rw [cycle, stored]

theorem cycle_of_running {machine : Machine} (running : machine.fault = none) (random : UInt8) :
    machine.cycle random = (machine.attempt random).haltedAt machine.pc := by
  rw [cycle, running]

theorem attempt_of_past {machine : Machine} (past : 4096 < machine.pc.toNat + 2)
    (random : UInt8) :
    machine.attempt random = .refused machine (.outOfBounds (max machine.pc.toNat 4096)) := by
  rw [attempt, fetch_eq_error past]

theorem attempt_of_inside {machine : Machine} (inside : machine.pc.toNat + 2 ≤ 4096)
    (random : UInt8) :
    machine.attempt random =
      (machine.advance.execute random machine.opcodeAtPc.instruction).noting
        (.fetched machine.pc machine.opcodeAtPc.word) := by
  rw [attempt, fetch_eq_ok inside, ← perform_eq_execute]

theorem cycle_of_fits {machine : Machine} (running : machine.fault = none)
    (inside : machine.pc.toNat + 2 ≤ 4096)
    (fits : machine.advance.Fits machine.opcodeAtPc.instruction) (random : UInt8) :
    machine.cycle random =
      (machine.advance.execute random machine.opcodeAtPc.instruction).noting
        (.fetched machine.pc machine.opcodeAtPc.word) := by
  have fine : ((machine.advance.execute random machine.opcodeAtPc.instruction).noting
      (.fetched machine.pc machine.opcodeAtPc.word)).fault = none :=
    (execute_spec fits random).fault
  rw [cycle_of_running running, attempt_of_inside inside, Effect.haltedAt_of_no_fault fine]

theorem no_fault_of_fits {machine : Machine} (running : machine.fault = none)
    (inside : machine.pc.toNat + 2 ≤ 4096)
    (fits : machine.advance.Fits machine.opcodeAtPc.instruction) (random : UInt8) :
    (machine.cycle random).fault = none := by
  rw [cycle_of_fits running inside fits]
  exact (execute_spec fits random).fault

/-- Advancing changes no register and not the index, so it moves no reach. -/
theorem reach_advance (machine : Machine) (instruction : Instruction) :
    machine.advance.reach instruction = machine.reach instruction := by
  cases instruction <;> rfl

theorem cycled (machine : Machine) (random : UInt8) : machine.Cycled random := by
  cases stored : machine.fault with
  | some fault => exact .alreadyHalted fault stored (cycle_of_halted stored random)
  | none =>
      have turn := cycle_of_running stored random
      by_cases inside : machine.pc.toNat + 2 ≤ 4096
      · rw [attempt_of_inside inside] at turn
        rcases machine.advance.past_or_fits machine.opcodeAtPc.instruction with
          ⟨reach, reached, past⟩ | fits
        · rw [execute_of_past reached past] at turn
          rw [reach_advance] at reached
          exact .instructionRefused stored inside reach reached past turn
        · exact .executed stored inside fits (cycle_of_fits stored inside fits random)
      · have past : 4096 < machine.pc.toNat + 2 := by omega
        rw [attempt_of_past past] at turn
        exact .fetchRefused stored past turn

/-- A cycle that does not fail executes the opcode at the program counter. -/
theorem executes_of_no_fault {machine : Machine} {random : UInt8}
    (fine : (machine.cycle random).fault = none) :
    machine.fault = none ∧ machine.pc.toNat + 2 ≤ 4096 ∧
      machine.advance.Fits machine.opcodeAtPc.instruction := by
  cases machine.cycled random with
  | alreadyHalted fault stored turn =>
      rw [turn] at fine
      cases fine
  | fetchRefused running past turn =>
      rw [turn] at fine
      cases fine
  | instructionRefused running inside reach reached past turn =>
      rw [turn] at fine
      cases fine
  | executed running inside fits turn => exact ⟨running, inside, fits⟩

/-- Nothing is noticed in a cycle but the fetch, what the instruction notices, and a halt. -/
theorem mem_notices_cycle {machine : Machine} {random : UInt8} {notice : Notice}
    (noticed : notice ∈ (machine.cycle random).notices) :
    notice = .fetched machine.pc machine.opcodeAtPc.word ∨
      notice ∈ machine.advance.noticesOf machine.opcodeAtPc.instruction ∨
        ∃ fault, notice = .halted fault := by
  cases machine.cycled random with
  | alreadyHalted fault stored turn =>
      rw [turn] at noticed
      cases noticed
  | fetchRefused running past turn =>
      rw [turn] at noticed
      exact .inr (.inr ⟨_, List.mem_singleton.mp noticed⟩)
  | instructionRefused running inside reach reached past turn =>
      rw [turn] at noticed
      exact (List.mem_cons.mp noticed).imp_right fun halted =>
        .inr ⟨_, List.mem_singleton.mp halted⟩
  | executed running inside fits turn =>
      rw [turn] at noticed
      refine (List.mem_cons.mp noticed).imp_right fun executed => ?_
      rw [(execute_spec fits random).notices] at executed
      exact .inl executed

end Machine

/-! ## The cycle of a console -/

namespace Console

@[simp] theorem emit_machine (console : Console) (notices : List Notice) :
    (console.emit notices).console.machine = console.machine := by
  unfold emit
  split
  · rfl
  · split <;> rfl

@[simp] theorem emit_result (console : Console) (notices : List Notice) :
    (console.emit notices).result = .done := by
  unfold emit
  split
  · rfl
  · split <;> rfl

@[simp] theorem proceed_machine (console : Console) (effect : Effect) :
    (console.proceed effect).console.machine = effect.machine := by
  obtain ⟨machine, fault, notices, drew⟩ := effect
  cases fault <;> cases drew <;> simp [proceed]

theorem proceed_result (console : Console) (effect : Effect) :
    (console.proceed effect).result =
      match effect.fault with
      | some fault => .failed fault
      | none => .done := by
  obtain ⟨machine, fault, notices, drew⟩ := effect
  cases fault <;> cases drew <;> simp [proceed]

theorem proceed_of_no_drawing {console : Console} {effect : Effect}
    (still : effect.drew = false) :
    (console.proceed effect).console = { console with machine := effect.machine } ∧
      (console.proceed effect).delivered = none := by
  obtain ⟨machine, fault, notices, drew⟩ := effect
  cases still
  cases fault <;> exact ⟨rfl, rfl⟩

theorem proceed_notices_of_no_drawing {console : Console} {effect : Effect}
    (still : effect.drew = false) : (console.proceed effect).notices = effect.notices := by
  obtain ⟨machine, fault, notices, drew⟩ := effect
  cases still
  cases fault <;> rfl

theorem mem_notices_emit {console : Console} {notices : List Notice} {notice : Notice}
    (noticed : notice ∈ (console.emit notices).notices) :
    notice ∈ notices ∨ notice = .receiverGone := by
  unfold emit at noticed
  split at noticed
  · exact .inl noticed
  · split at noticed
    · exact .inl noticed
    · exact (List.mem_append.mp noticed).imp_right List.mem_singleton.mp

/-- What is noticed comes from the machine, apart from the loss of the receiver. -/
theorem mem_notices_proceed {console : Console} {effect : Effect} {notice : Notice}
    (noticed : notice ∈ (console.proceed effect).notices) :
    notice ∈ effect.notices ∨ notice = .receiverGone := by
  obtain ⟨machine, fault, notices, drew⟩ := effect
  cases drew with
  | false => cases fault <;> exact .inl noticed
  | true => cases fault <;> exact mem_notices_emit noticed

theorem proceed_result_eq_failed_iff {console : Console} {effect : Effect} {fault : Fault} :
    (console.proceed effect).result = .failed fault ↔ effect.fault = some fault := by
  rw [proceed_result]
  cases effect.fault with
  | none => simp
  | some found => simp

theorem proceed_result_eq_done_iff {console : Console} {effect : Effect} :
    (console.proceed effect).result = .done ↔ effect.fault = none := by
  rw [proceed_result]
  cases effect.fault with
  | none => simp
  | some found => simp

/-- A cycle succeeds exactly if the machine runs on and its opcode reaches nothing past memory. -/
theorem cycle_done_iff {console : Console} {random : UInt8} :
    (console.cycle random).result = .done ↔
      console.machine.fault = none ∧ console.machine.pc.toNat + 2 ≤ 4096 ∧
        console.machine.advance.Fits console.machine.opcodeAtPc.instruction := by
  rw [cycle, proceed_result_eq_done_iff]
  constructor
  · exact Machine.executes_of_no_fault
  · rintro ⟨running, inside, fits⟩
    exact Machine.no_fault_of_fits running inside fits random

/-- A cycle that fails changes nothing in the machine but its program counter and its fault. -/
theorem machine_cycle_of_not_done {console : Console} {random : UInt8}
    (failed : (console.cycle random).result ≠ .done) :
    ∃ pc fault, (console.cycle random).console.machine =
      { console.machine with pc := pc, fault := fault } := by
  cases console.machine.cycled random with
  | alreadyHalted fault stored turn | fetchRefused running past turn
  | instructionRefused running inside reach reached past turn =>
      rw [cycle, proceed_machine, turn]
      exact ⟨_, _, rfl⟩
  | executed running inside fits turn =>
      exact absurd (cycle_done_iff.mpr ⟨running, inside, fits⟩) failed

theorem machine_cycle_of_fits {console : Console} (running : console.machine.fault = none)
    (inside : console.machine.pc.toNat + 2 ≤ 4096)
    (fits : console.machine.advance.Fits console.machine.opcodeAtPc.instruction)
    (random : UInt8) :
    (console.cycle random).console.machine =
      (console.machine.advance.execute random console.machine.opcodeAtPc.instruction).machine := by
  rw [cycle, proceed_machine, Machine.cycle_of_fits running inside fits]
  rfl

/-! ## Direct execution -/

theorem execute_machine (console : Console) (opcode : Opcode) (random : UInt8) :
    (console.execute opcode random).console.machine =
      (console.machine.execute random opcode.instruction).machine := by
  rw [execute, proceed_machine, Machine.perform_eq_execute]

theorem execute_of_silent {console : Console} {opcode : Opcode} {instruction : Instruction}
    {random : UInt8} {machine : Machine} (decoded : opcode.instruction = instruction)
    (silent : console.machine.execute random instruction = .silent machine) :
    console.execute opcode random = quiet { console with machine := machine } := by
  rw [execute, Machine.perform_eq_execute, decoded, silent]
  rfl

theorem execute_result_of_fits {console : Console} {opcode : Opcode}
    (fits : console.machine.Fits opcode.instruction) (random : UInt8) :
    (console.execute opcode random).result = .done := by
  rw [execute, proceed_result_eq_done_iff, Machine.perform_eq_execute]
  exact (Machine.execute_spec fits random).fault

end Console

end Chip8
