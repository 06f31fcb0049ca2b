import Chip8.Machine.Cycle

/-! # Effects of instructions

What executing one instruction can do: when it gives up, where it continues,
and what it leaves on the call stack. Every statement is about `execute` itself,
so later results about cycles and runs never open the instruction table again.
-/

namespace Chip8

/-! ## Decoding -/

def Opcode.instruction (opcode : Opcode) : Instruction :=
  opcode.family.instruction (opcode.payload opcode.family.shape)

def Instruction.draws : Instruction → Bool
  | .draw _ _ _ => true
  | _ => false

namespace Machine

theorem perform_eq_execute (machine : Machine) (opcode : Opcode) (random : UInt8) :
    machine.perform opcode random = machine.execute random opcode.instruction := by
  rw [perform, Opcode.decode_eq_ok]
  rfl

/-! ## Refusal -/

structure Reach where
  start : Nat
  size : Nat

/-- The addresses that an instruction reads, writes or jumps to at run time, if there are any. -/
def reach (machine : Machine) : Instruction → Option Reach
  | .jumpOffset nnn => some ⟨nnn.val + (machine.registers.get 0).toNat, 1⟩
  | .draw _ _ n => some ⟨machine.index.toNat, n.val⟩
  | .decimal _ => some ⟨machine.index.toNat, 3⟩
  | .save x => some ⟨machine.index.toNat, x.val + 1⟩
  | .restore x => some ⟨machine.index.toNat, x.val + 1⟩
  | _ => none

def Fits (machine : Machine) (instruction : Instruction) : Prop :=
  ∀ reach, machine.reach instruction = some reach → reach.start + reach.size ≤ 4096

theorem fits_of_reach {machine : Machine} {instruction : Instruction} {reach : Reach}
    (reached : machine.reach instruction = some reach)
    (inside : reach.start + reach.size ≤ 4096) : machine.Fits instruction := by
  intro other also
  rw [reached] at also
  cases also
  exact inside

theorem fits_of_no_reach {machine : Machine} {instruction : Instruction}
    (reaches : machine.reach instruction = none) : machine.Fits instruction := by
  intro reach reached
  rw [reaches] at reached
  cases reached

theorem withSpan_of_fits {machine : Machine} {size : Nat} (next : Span → Effect)
    (fits : machine.index.toNat + size ≤ 4096) :
    machine.withSpan size next = next ⟨machine.index.toNat, size, fits⟩ := by
  rw [withSpan, Span.check_eq_ok fits]

theorem withSpan_of_past {machine : Machine} {size : Nat} (next : Span → Effect)
    (past : 4096 < machine.index.toNat + size) :
    machine.withSpan size next =
      .refused machine (.outOfBounds (max machine.index.toNat 4096)) := by
  rw [withSpan, Span.check_eq_error past]

/-- An instruction that reaches past memory gives up before it has changed anything. -/
theorem execute_of_past {machine : Machine} {instruction : Instruction} {reach : Reach}
    (reached : machine.reach instruction = some reach) (past : 4096 < reach.start + reach.size)
    (random : UInt8) :
    machine.execute random instruction =
      .refused machine (.outOfBounds (max reach.start 4096)) := by
  cases instruction with
  | jumpOffset nnn =>
      -- A jump checks its target itself; its reach is that one address.
      cases reached
      have outside : ¬ nnn.val + (machine.registers.get 0).toNat < 4096 := by
        simp only at past
        omega
      simp only [execute, if_neg outside]
      rw [Nat.max_eq_left (Nat.le_of_not_lt outside)]
  | draw x y n | decimal x | save x | restore x =>
      cases reached
      exact withSpan_of_past _ past
  | _ => cases reached

/-! ## Control flow -/

def skips (machine : Machine) : Instruction → Bool
  | .skipIfValue x nn => machine.registers.get x == nn
  | .skipUnlessValue x nn => machine.registers.get x != nn
  | .skipIfSame x y => machine.registers.get x == machine.registers.get y
  | .skipUnlessSame x y => machine.registers.get x != machine.registers.get y
  | .skipIfPin x => machine.pinOf x
  | .skipUnlessPin x => !machine.pinOf x
  | _ => false

/-- Where an instruction continues; the program counter already points behind it. -/
def pcAfter (machine : Machine) : Instruction → UInt16
  | .goBack => machine.stack.pop.address
  | .jump nnn => nnn.word
  | .call nnn => nnn.word
  | .jumpOffset nnn => UInt16.ofNat (nnn.val + (machine.registers.get 0).toNat)
  | .awaitPin _ => if machine.keypad.lowest?.isSome then machine.pc else machine.pc - 2
  | instruction => if machine.skips instruction then machine.pc + 2 else machine.pc

theorem skipIf_eq (machine : Machine) (condition : Bool) :
    machine.skipIf condition =
      { machine with pc := if condition then machine.pc + 2 else machine.pc } := by
  cases condition <;> rfl

/-! ## The parts of an effect -/

def stackAfter (machine : Machine) : Instruction → ReturnStack
  | .goBack => machine.stack.pop.rest
  | .call _ => machine.stack.push machine.pc
  | _ => machine.stack

def noticesOf (machine : Machine) : Instruction → List Notice
  | .goBack => machine.stack.pop.notices
  | .routine nnn => [.machineRoutine nnn]
  | .unknown opcode => [.unknownOpcode opcode]
  | _ => []

def bytesAtIndex (machine : Machine) (size : Nat) : List UInt8 :=
  (List.range size).map fun k => machine.memory.byte (machine.index.toNat + k)

@[simp] theorem length_bytesAtIndex (machine : Machine) (size : Nat) :
    (machine.bytesAtIndex size).length = size := by
  simp [bytesAtIndex]

theorem getD_bytesAtIndex (machine : Machine) {size k : Nat} {default : UInt8}
    (inside : k < size) :
    (machine.bytesAtIndex size).getD k default =
      machine.memory.byte (machine.index.toNat + k) := by
  simp [bytesAtIndex, inside]

theorem getD_bytesAtIndex_of_le (machine : Machine) {size k : Nat} {default : UInt8}
    (beyond : size ≤ k) : (machine.bytesAtIndex size).getD k default = default := by
  rw [List.getD_eq_getElem?_getD, List.getElem?_eq_none (by rwa [length_bytesAtIndex]),
    Option.getD_none]

theorem read_eq_bytesAtIndex (machine : Machine) {size : Nat}
    (fits : machine.index.toNat + size ≤ 4096) :
    machine.memory.read ⟨machine.index.toNat, size, fits⟩ = machine.bytesAtIndex size :=
  rfl

def memoryAfter (machine : Machine) : Instruction → Memory
  | .decimal x => machine.memory.store machine.index.toNat (decimalDigits (machine.registers.get x))
  | .save x => machine.memory.store machine.index.toNat (machine.registers.upTo x)
  | _ => machine.memory

def registersAfter (machine : Machine) (random : UInt8) : Instruction → Registers
  | .setValue x nn => machine.registers.set x nn
  | .addValue x nn => machine.registers.set x (machine.registers.get x + nn)
  | .combine operation x y => (machine.combine operation x y).registers
  | .random x nn => machine.registers.set x (random &&& nn)
  | .draw x y n => (machine.drawSprite x y (machine.bytesAtIndex n.val)).registers
  | .getDelay x => machine.registers.set x machine.timers.delay
  | .awaitPin x =>
      match machine.keypad.lowest? with
      | some pin => machine.registers.set x (UInt8.ofNat pin.val)
      | none => machine.registers
  | .restore x => machine.registers.load (machine.bytesAtIndex (x.val + 1))
  | _ => machine.registers

def indexAfter (machine : Machine) : Instruction → UInt16
  | .setIndex nnn => nnn.word
  | .addIndex x => machine.index + (machine.registers.get x).toUInt16
  | .glyph x => UInt16.ofNat (Font.address (.low (machine.registers.get x)))
  | _ => machine.index

def displayAfter (machine : Machine) : Instruction → Display
  | .clear => .blank
  | .draw x y n => (machine.drawSprite x y (machine.bytesAtIndex n.val)).display
  | _ => machine.display

def timersAfter (machine : Machine) : Instruction → Timers
  | .setDelay x => { machine.timers with delay := machine.registers.get x }
  | .setSound x => { machine.timers with sound := machine.registers.get x }
  | _ => machine.timers

/-- Part by part, the effect of an instruction that fits. -/
structure Executed (machine : Machine) (random : UInt8) (instruction : Instruction)
    (effect : Effect) : Prop where
  fault : effect.fault = none
  pc : effect.machine.pc = machine.pcAfter instruction
  stack : effect.machine.stack = machine.stackAfter instruction
  memory : effect.machine.memory = machine.memoryAfter instruction
  registers : effect.machine.registers = machine.registersAfter random instruction
  index : effect.machine.index = machine.indexAfter instruction
  display : effect.machine.display = machine.displayAfter instruction
  timers : effect.machine.timers = machine.timersAfter instruction
  keypad : effect.machine.keypad = machine.keypad
  halt : effect.machine.fault = machine.fault
  notices : effect.notices = machine.noticesOf instruction
  drew : effect.drew = instruction.draws

theorem execute_spec {machine : Machine} {instruction : Instruction}
    (fits : machine.Fits instruction) (random : UInt8) :
    machine.Executed random instruction (machine.execute random instruction) := by
  cases instruction with
  | jumpOffset nnn =>
      have inside : nnn.val + (machine.registers.get 0).toNat < 4096 := fits _ rfl
      simp only [execute, if_pos inside]
      constructor <;> rfl
  | draw x y n =>
      rw [execute, withSpan_of_fits _ (fits _ rfl), read_eq_bytesAtIndex]
      constructor <;> rfl
  | decimal x | save x =>
      rw [execute, withSpan_of_fits _ (fits _ rfl)]
      -- Left in place, the stored bytes would be computed at every field comparison.
      generalize stored : machine.memory.store _ _ = memory
      exact ⟨rfl, rfl, rfl, stored.symm, rfl, rfl, rfl, rfl, rfl, rfl, rfl, rfl⟩
  | restore x =>
      rw [execute, withSpan_of_fits _ (fits _ rfl), read_eq_bytesAtIndex]
      generalize loaded : machine.registers.load _ = registers
      exact ⟨rfl, rfl, rfl, rfl, loaded.symm, rfl, rfl, rfl, rfl, rfl, rfl, rfl⟩
  | awaitPin x =>
      cases pins : machine.keypad.lowest? with
      | none =>
          simp only [execute, pins]
          constructor
          case pc => simp [pcAfter, pins, Effect.silent, tryAgain]
          case registers => simp [registersAfter, pins, Effect.silent, tryAgain]
          all_goals rfl
      | some pin =>
          simp only [execute, pins]
          constructor
          case pc => simp [pcAfter, pins, Effect.silent, setRegister]
          case registers => simp [registersAfter, pins, Effect.silent, setRegister]
          all_goals rfl
  | skipIfValue x nn | skipUnlessValue x nn | skipIfSame x y | skipUnlessSame x y
  | skipIfPin x | skipUnlessPin x =>
      simp only [execute, skipIf_eq]
      constructor <;> rfl
  | _ => constructor <;> rfl

/-- Either an instruction reaches past memory, or all that it reaches is inside. -/
theorem past_or_fits (machine : Machine) (instruction : Instruction) :
    (∃ reach, machine.reach instruction = some reach ∧ 4096 < reach.start + reach.size) ∨
      machine.Fits instruction := by
  by_cases past : ∃ reach, machine.reach instruction = some reach ∧
      4096 < reach.start + reach.size
  · exact Or.inl past
  · refine Or.inr fun reach reached => Nat.le_of_not_lt fun outside => past ?_
    exact ⟨reach, reached, outside⟩

/-- Only an instruction that reaches past memory fails, and it leaves the machine as it was. -/
theorem execute_of_fault {machine : Machine} {random : UInt8} {instruction : Instruction}
    {fault : Fault} (failed : (machine.execute random instruction).fault = some fault) :
    machine.execute random instruction = .refused machine fault := by
  rcases machine.past_or_fits instruction with ⟨reach, reached, past⟩ | fits
  · have refused := execute_of_past reached past random
    rw [refused] at failed ⊢
    cases failed
    rfl
  · rw [(execute_spec fits random).fault] at failed
    cases failed

/-- An instruction notices a return without a call, or that it is ignored. -/
theorem mem_noticesOf {machine : Machine} {instruction : Instruction} {notice : Notice}
    (noticed : notice ∈ machine.noticesOf instruction) :
    notice = .emptyReturn ∨
      (∃ nnn, instruction = .routine nnn ∧ notice = .machineRoutine nnn) ∨
      ∃ opcode, instruction = .unknown opcode ∧ notice = .unknownOpcode opcode := by
  cases instruction with
  | goBack =>
      simp only [noticesOf, ReturnStack.pop] at noticed
      split at noticed
      · exact .inl (List.mem_singleton.mp noticed)
      · cases noticed
  | routine nnn => exact .inr (.inl ⟨nnn, rfl, List.mem_singleton.mp noticed⟩)
  | unknown opcode => exact .inr (.inr ⟨opcode, rfl, List.mem_singleton.mp noticed⟩)
  | _ => cases noticed

theorem level_of_noticesOf {machine : Machine} {instruction : Instruction} {notice : Notice}
    (noticed : notice ∈ machine.noticesOf instruction) : notice.level ≠ .error := by
  rcases mem_noticesOf noticed with rfl | ⟨nnn, -, rfl⟩ | ⟨opcode, -, rfl⟩ <;> simp [Notice.level]

end Machine

end Chip8
