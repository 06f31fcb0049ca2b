import Chip8.Proofs.Runs

/-! # Faults of a cycle

A cycle faults exactly if an address that it needs does not exist, and it reports the
first such address. The needed addresses are read off the nibbles of the opcode here,
independently of the decoder. A fault then changes nothing but the program counter and
the stored halt.
-/

namespace Chip8

/-! ## Needed addresses -/

def firstMissing? (needed : List Nat) : Option Nat :=
  (needed.filter fun address => 4096 ≤ address).min?

theorem firstMissing?_eq_none_iff {needed : List Nat} :
    firstMissing? needed = none ↔ ∀ address ∈ needed, address < 4096 := by
  rw [firstMissing?, List.min?_eq_none_iff, List.filter_eq_nil_iff]
  simp only [decide_eq_true_eq, Nat.not_le]

theorem exists_missing_iff {needed : List Nat} :
    (∃ address ∈ needed, 4096 ≤ address) ↔ ∃ address, firstMissing? needed = some address := by
  constructor
  · rintro ⟨address, isNeeded, past⟩
    have missing : address ∈ needed.filter fun address => 4096 ≤ address :=
      List.mem_filter.mpr ⟨isNeeded, decide_eq_true past⟩
    exact Option.isSome_iff_exists.mp (List.isSome_min?_of_mem missing)
  · rintro ⟨address, first⟩
    obtain ⟨isNeeded, past⟩ := List.mem_filter.mp (List.min?_mem first)
    exact ⟨address, isNeeded, of_decide_eq_true past⟩

theorem firstMissing?_range' {start size : Nat} (nonempty : 0 < size) :
    firstMissing? (List.range' start size) =
      if 4096 < start + size then some (max start 4096) else none := by
  split
  · rename_i past
    apply List.min?_eq_some_iff.mpr
    constructor
    · simp only [List.mem_filter, List.mem_range'_1, decide_eq_true_eq]
      omega
    · intro other missing
      simp only [List.mem_filter, List.mem_range'_1, decide_eq_true_eq] at missing
      omega
  · apply firstMissing?_eq_none_iff.mpr
    intro address needed
    have := List.mem_range'_1.mp needed
    omega

theorem firstMissing?_append {front : List Nat} (back : List Nat)
    (inside : ∀ needed ∈ front, needed < 4096) :
    firstMissing? (front ++ back) = firstMissing? back := by
  have nothing : front.filter (fun address => 4096 ≤ address) = [] := by
    apply List.filter_eq_nil_iff.mpr
    intro address needed
    have := inside address needed
    simp only [decide_eq_true_eq]
    omega
  rw [firstMissing?, List.filter_append, nothing, List.nil_append, firstMissing?]

namespace Machine

/-- The addresses that an opcode needs besides its own: the target of a jump with offset,
the rows of a sprite, three decimal digits, or one byte for every register up to a last. -/
def needs (machine : Machine) (opcode : Opcode) : List Nat :=
  if opcode.kind = 0xB then
    [opcode.address.val + (machine.registers.get 0).toNat]
  else if opcode.kind = 0xD then
    List.range' machine.index.toNat opcode.n.val
  else if opcode.kind = 0xF ∧ opcode.value.toNat = 0x33 then
    List.range' machine.index.toNat 3
  else if opcode.kind = 0xF ∧ (opcode.value.toNat = 0x55 ∨ opcode.value.toNat = 0x65) then
    List.range' machine.index.toNat (opcode.x.val + 1)
  else
    []

/-- The addresses that the next cycle needs: two for the opcode, and those the opcode needs. -/
def needed (machine : Machine) : List Nat :=
  [machine.pc.toNat, machine.pc.toNat + 1] ++
    if machine.pc.toNat + 1 < 4096 then machine.needs machine.opcodeAtPc else []

theorem needs_eq_nil {machine : Machine} {opcode : Opcode} (notJump : opcode.kind ≠ 0xB)
    (notDraw : opcode.kind ≠ 0xD) (notPeripheral : opcode.kind ≠ 0xF) :
    machine.needs opcode = [] := by
  simp [needs, notJump, notDraw, notPeripheral]

theorem needs_peripheral {machine : Machine} {opcode : Opcode} (kind : opcode.kind = 0xF) :
    machine.needs opcode =
      if opcode.value.toNat = 0x33 then List.range' machine.index.toNat 3
      else if opcode.value.toNat = 0x55 ∨ opcode.value.toNat = 0x65 then
        List.range' machine.index.toNat (opcode.x.val + 1)
      else [] := by
  simp [needs, kind]

/-- The nibbles of an opcode tell the reach of its instruction; only a sprite without rows
reaches nothing. -/
theorem needs_spec (machine : Machine) (opcode : Opcode) :
    (machine.reach opcode.instruction = none ∧ machine.needs opcode = []) ∨
      ∃ reach, machine.reach opcode.instruction = some reach ∧
        machine.needs opcode = List.range' reach.start reach.size ∧
        (reach.size = 0 → opcode.kind = 0xD ∧ opcode.n = 0) := by
  have kind : opcode.kind = opcode.family.kind := opcode.kind_family.symm
  unfold Opcode.instruction
  cases family : opcode.family with
  | jumpOffset =>
      rw [family] at kind
      refine Or.inr ⟨_, rfl, ?_, fun empty => absurd empty (Nat.succ_ne_zero _)⟩
      simp [needs, kind, Family.kind, Opcode.address]
  | draw =>
      rw [family] at kind
      refine Or.inr ⟨_, rfl, ?_, ?_⟩
      · simp [needs, kind, Family.kind]
      · intro noRows
        exact ⟨kind, Fin.ext noRows⟩
  | peripheral =>
      rw [family] at kind
      rw [needs_peripheral kind]
      dsimp only [Family.shape, Opcode.payload, Family.instruction]
      -- Of the ten second bytes told apart here only three reach memory.
      split
      case h_7 decimal =>
        rw [if_pos decimal]
        exact Or.inr ⟨_, rfl, rfl, fun empty => absurd empty (Nat.succ_ne_zero _)⟩
      case h_8 save =>
        rw [if_neg (by omega), if_pos (Or.inl save)]
        exact Or.inr ⟨_, rfl, rfl, fun empty => absurd empty (Nat.succ_ne_zero _)⟩
      case h_9 restore =>
        rw [if_neg (by omega), if_pos (Or.inr restore)]
        exact Or.inr ⟨_, rfl, rfl, fun empty => absurd empty (Nat.succ_ne_zero _)⟩
      case h_10 notDecimal notSave notRestore =>
        rw [if_neg notDecimal, if_neg (not_or.mpr ⟨notSave, notRestore⟩)]
        exact Or.inl ⟨rfl, rfl⟩
      all_goals
        rw [if_neg (by omega), if_neg (by omega)]
        exact Or.inl ⟨rfl, rfl⟩
  | system | skipIfSame | skipUnlessSame | arithmetic | skipPin =>
      rw [family] at kind
      refine Or.inl ⟨?_, needs_eq_nil ?_ ?_ ?_⟩
      · dsimp only [Family.shape, Opcode.payload, Family.instruction]
        split <;> rfl
      all_goals
        rw [kind]
        decide
  | _ =>
      rw [family] at kind
      refine Or.inl ⟨rfl, needs_eq_nil ?_ ?_ ?_⟩
      all_goals
        rw [kind]
        decide

/-! ## Which cycles fault -/

theorem firstMissing?_needed_of_past {machine : Machine} (past : 4096 < machine.pc.toNat + 2) :
    firstMissing? machine.needed = some (max machine.pc.toNat 4096) := by
  have own : machine.needed = List.range' machine.pc.toNat 2 := by
    rw [needed, if_neg (by omega)]
    rfl
  rw [own, firstMissing?_range' (by omega), if_pos past]

theorem firstMissing?_needed_of_inside {machine : Machine}
    (inside : machine.pc.toNat + 2 ≤ 4096) :
    firstMissing? machine.needed = firstMissing? (machine.needs machine.opcodeAtPc) := by
  rw [needed, if_pos (by omega)]
  apply firstMissing?_append
  intro own listed
  simp only [List.mem_cons, List.not_mem_nil, or_false] at listed
  omega

/-- A running machine faults at the first address that its cycle needs and that is missing. -/
theorem cycle_fault {machine : Machine} (running : machine.fault = none)
    (drawsRows : ∀ opcode, machine.fetch = .ok opcode → ¬ (opcode.kind = 0xD ∧ opcode.n = 0))
    (random : UInt8) :
    (machine.cycle random).fault =
      (firstMissing? machine.needed).map fun address =>
        .halted machine.pc (.outOfBounds address) := by
  cases machine.cycled random with
  | alreadyHalted stale stored turn =>
      rw [running] at stored
      cases stored
  | fetchRefused _ past turn =>
      rw [turn, firstMissing?_needed_of_past past]
      rfl
  | instructionRefused _ inside reach reached past turn =>
      have rows := drawsRows machine.opcodeAtPc (fetch_eq_ok inside)
      rw [turn, firstMissing?_needed_of_inside inside]
      rcases machine.needs_spec machine.opcodeAtPc with ⟨nothing, _⟩ | ⟨found, same, needs, empty⟩
      · rw [reached] at nothing
        cases nothing
      · rw [reached] at same
        cases same
        have nonempty : 0 < reach.size := Nat.pos_of_ne_zero fun none => rows (empty none)
        rw [needs, firstMissing?_range' nonempty, if_pos past]
        rfl
  | executed _ inside fits turn =>
      have allInside : firstMissing? (machine.needs machine.opcodeAtPc) = none := by
        apply firstMissing?_eq_none_iff.mpr
        intro address needed
        rcases machine.needs_spec machine.opcodeAtPc with
          ⟨_, nothing⟩ | ⟨reach, reached, needs, _⟩
        · rw [nothing] at needed
          cases needed
        · rw [← reach_advance] at reached
          have last := fits reach reached
          rw [needs] at needed
          have := List.mem_range'_1.mp needed
          omega
      rw [turn, firstMissing?_needed_of_inside inside, allInside]
      exact (execute_spec fits random).fault

end Machine

namespace Console

/-- A cycle fails exactly if it needs an address that does not exist, and its error names
the smallest such address and the program counter at its beginning. -/
theorem cycle_fails_iff_missing {console : Console} (running : console.machine.fault = none)
    (drawsRows : ∀ opcode, console.machine.fetch = .ok opcode →
      ¬ (opcode.kind = 0xD ∧ opcode.n = 0)) (random : UInt8) :
    ((∃ fault, (console.cycle random).result = .failed fault) ↔
      ∃ address ∈ console.machine.needed, 4096 ≤ address) ∧
    (console.cycle random).result =
      match firstMissing? console.machine.needed with
      | some address => .failed (.halted console.machine.pc (.outOfBounds address))
      | none => .done := by
  have turned := Machine.cycle_fault running drawsRows random
  rw [exists_missing_iff]
  cases first : firstMissing? console.machine.needed with
  | none =>
      rw [first] at turned
      have result : (console.cycle random).result = .done :=
        proceed_result_eq_done_iff.mpr turned
      exact ⟨by simp [result], result⟩
  | some address =>
      rw [first] at turned
      have result : (console.cycle random).result =
          .failed (.halted console.machine.pc (.outOfBounds address)) :=
        proceed_result_eq_failed_iff.mpr turned
      exact ⟨by simp [result], result⟩

def savingPastEnd : Console :=
  { create with
    machine := { Machine.fresh with
      memory := Memory.blank.store 0xFFE [0xF3, 0x55]
      pc := 0xFFE
      index := 0xFFE } }

theorem opcode_savingPastEnd : savingPastEnd.machine.opcodeAtPc = ⟨0xF, 3, 5, 5⟩ := by
  simp only [savingPastEnd, Machine.opcodeAtPc, UInt16.reduceToNat]
  rw [Memory.byte_store _ (by decide), Memory.byte_store _ (by decide)]
  rfl

theorem saving_past_end_fails :
    savingPastEnd.machine.fault = none ∧
    (∀ opcode, savingPastEnd.machine.fetch = .ok opcode → ¬ (opcode.kind = 0xD ∧ opcode.n = 0)) ∧
    (∃ address ∈ savingPastEnd.machine.needed, 4096 ≤ address) ∧
    (savingPastEnd.cycle 0).result = .failed (.halted 0xFFE (.outOfBounds 0x1000)) := by
  have drawsRows : ∀ opcode, savingPastEnd.machine.fetch = .ok opcode →
      ¬ (opcode.kind = 0xD ∧ opcode.n = 0) := by
    intro opcode fetched
    rw [Machine.fetch_eq_ok (by decide), opcode_savingPastEnd] at fetched
    cases fetched
    decide
  have first : firstMissing? savingPastEnd.machine.needed = some 0x1000 := by
    rw [Machine.firstMissing?_needed_of_inside (by decide), opcode_savingPastEnd]
    decide
  have running : savingPastEnd.machine.fault = none := rfl
  obtain ⟨missing, result⟩ := cycle_fails_iff_missing running drawsRows 0
  rw [first] at result
  exact ⟨running, drawsRows, missing.mp ⟨_, result⟩, result⟩

end Console

/-! ## What a fault leaves -/

namespace Machine

/-- A machine that halts keeps everything but its program counter and the halt itself. -/
theorem cycle_machine_of_fault {machine : Machine} {random : UInt8} {fault : Fault}
    (running : machine.fault = none) (failed : (machine.cycle random).fault = some fault) :
    ∃ pc, (machine.cycle random).machine = { machine with pc := pc, fault := some fault } ∧
      (machine.cycle random).drew = false ∧
      match machine.fetch with
      | .error _ => pc = machine.pc
      | .ok _ => pc.toNat = machine.pc.toNat + 2 := by
  cases machine.cycled random with
  | alreadyHalted stale stored turn =>
      rw [running] at stored
      cases stored
  | fetchRefused _ past turn =>
      rw [turn] at failed ⊢
      cases failed
      refine ⟨machine.pc, rfl, rfl, ?_⟩
      rw [fetch_eq_error past]
  | instructionRefused _ inside reach reached past turn =>
      rw [turn] at failed ⊢
      cases failed
      refine ⟨machine.advance.pc, rfl, rfl, ?_⟩
      rw [fetch_eq_ok inside]
      exact toNat_pc_advance (by omega)
  | executed _ inside fits turn =>
      rw [turn] at failed
      have fine := (execute_spec fits random).fault
      rw [Effect.noting, fine] at failed
      cases failed

end Machine

namespace Console

theorem execute_of_fault {console : Console} {opcode : Opcode} {random : UInt8} {fault : Fault}
    (failed : (console.execute opcode random).result = .failed fault) :
    console.execute opcode random = ⟨console, .failed fault, [], none⟩ := by
  have performed := proceed_result_eq_failed_iff.mp failed
  rw [Machine.perform_eq_execute] at performed
  rw [execute, Machine.perform_eq_execute, Machine.execute_of_fault performed]
  rfl

/-- A cycle that fails changes the stored halt and the program counter and nothing else,
and hands over no frame; an opcode that fails without a fetch changes nothing at all. -/
theorem faults_are_atomic (console : Console) (random : UInt8) (fault : Fault) :
    (console.machine.fault = none → (console.cycle random).result = .failed fault →
      ∃ pc, (console.cycle random).console =
          { console with machine := { console.machine with pc := pc, fault := some fault } } ∧
        (console.cycle random).delivered = none ∧
        match console.machine.fetch with
        | .error _ => pc = console.machine.pc
        | .ok _ => pc.toNat = console.machine.pc.toNat + 2) ∧
    ∀ word : UInt16, (console.execute (.ofWord word) random).result = .failed fault →
      (console.execute (.ofWord word) random).console = console ∧
        (console.execute (.ofWord word) random).delivered = none := by
  constructor
  · intro running failed
    have turned := proceed_result_eq_failed_iff.mp failed
    obtain ⟨pc, left, still, counted⟩ := Machine.cycle_machine_of_fault running turned
    obtain ⟨taken, delivered⟩ := proceed_of_no_drawing still
    refine ⟨pc, ?_, delivered, counted⟩
    rw [cycle, taken, left]
  · intro word failed
    rw [execute_of_fault failed]
    exact ⟨rfl, rfl⟩

def drawingPastEnd : Console :=
  { create with
    machine := { Machine.fresh with
      memory := Memory.blank.store 0x200 [0xD0, 0x15]
      registers := Registers.zero.setFlag true
      index := 0xFFE } }

theorem opcode_drawingPastEnd : drawingPastEnd.machine.opcodeAtPc = ⟨0xD, 0, 1, 5⟩ := by
  simp only [drawingPastEnd, Machine.opcodeAtPc, Machine.fresh, Layout.programStart]
  rw [Memory.byte_store _ (by decide), Memory.byte_store _ (by decide)]
  rfl

theorem drawing_past_end_is_atomic :
    drawingPastEnd.machine.fault = none ∧
    (drawingPastEnd.cycle 0).result = .failed (.halted 0x200 (.outOfBounds 0x1000)) ∧
    (drawingPastEnd.cycle 0).console =
      { drawingPastEnd with
        machine := { drawingPastEnd.machine with
          pc := 0x202
          fault := some (.halted 0x200 (.outOfBounds 0x1000)) } } ∧
    (drawingPastEnd.execute (.ofWord 0xD015) 0).result = .failed (.outOfBounds 0x1000) ∧
    (drawingPastEnd.execute (.ofWord 0xD015) 0).console = drawingPastEnd := by
  have running : drawingPastEnd.machine.fault = none := rfl
  have inside : drawingPastEnd.machine.pc.toNat + 2 ≤ 4096 := by decide
  have fetched := Machine.fetch_eq_ok inside
  have failed : (drawingPastEnd.cycle 0).result =
      .failed (.halted 0x200 (.outOfBounds 0x1000)) := by
    apply proceed_result_eq_failed_iff.mpr
    rw [Machine.cycle_of_running running, Machine.attempt_of_inside inside,
      opcode_drawingPastEnd]
    rfl
  have refused : (drawingPastEnd.execute (.ofWord 0xD015) 0).result =
      .failed (.outOfBounds 0x1000) := rfl
  obtain ⟨pc, left, _, counted⟩ := (faults_are_atomic drawingPastEnd 0 _).1 running failed
  rw [fetched] at counted
  have moved : pc = 0x202 := UInt16.toNat_inj.mp counted
  rw [moved] at left
  exact ⟨running, failed, left, refused, ((faults_are_atomic drawingPastEnd 0 _).2 _ refused).1⟩

end Console

end Chip8
