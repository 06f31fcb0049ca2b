import Chip8.Proofs.Decoding
import Chip8.Proofs.Frames

/-! # Footprints of opcodes

What a successful cycle may change. The parts of the state that an opcode can touch are
read off its nibbles here, independently of the decoder, and `Footprint` says that all
else stays as it was before the cycle.
-/

namespace Chip8

/-! ## What an opcode touches -/

namespace Opcode

/-- The opcode computes, draws by lot or fetches a value for its first register. -/
def AssignsFirst (opcode : Opcode) : Prop :=
  opcode.kind = 0x6 ∨ opcode.kind = 0x7 ∨ opcode.kind = 0xC ∨
  (opcode.kind = 0x8 ∧ (opcode.n.val ≤ 7 ∨ opcode.n = 0xE)) ∨
  (opcode.kind = 0xF ∧ (opcode.value.toNat = 0x07 ∨ opcode.value.toNat = 0x0A))

/-- The opcode leaves a carry, a borrow, a lost bit or a collision in the flag register. -/
def AssignsFlag (opcode : Opcode) : Prop :=
  opcode.kind = 0xD ∨
  (opcode.kind = 0x8 ∧ ((4 ≤ opcode.n.val ∧ opcode.n.val ≤ 7) ∨ opcode.n = 0xE))

def Assigns (opcode : Opcode) (r : Nibble) : Prop :=
  (opcode.AssignsFirst ∧ r = opcode.x) ∨
  (opcode.AssignsFlag ∧ r = Layout.flagRegister) ∨
  (opcode.kind = 0xF ∧ opcode.value.toNat = 0x65 ∧ r ≤ opcode.x)

def MovesIndex (opcode : Opcode) : Prop :=
  opcode.kind = 0xA ∨
  (opcode.kind = 0xF ∧ (opcode.value.toNat = 0x1E ∨ opcode.value.toNat = 0x29))

def TouchesDisplay (opcode : Opcode) : Prop :=
  (opcode.kind = 0x0 ∧ opcode.address.val = 0x0E0) ∨ opcode.kind = 0xD

end Opcode

def Machine.Stores (machine : Machine) (opcode : Opcode) (address : Nat) : Prop :=
  opcode.kind = 0xF ∧ machine.index.toNat ≤ address ∧
    ((opcode.value.toNat = 0x33 ∧ address ≤ machine.index.toNat + 2) ∨
     (opcode.value.toNat = 0x55 ∧ address ≤ machine.index.toNat + opcode.x.val))

/-! ## Parts of the state -/

theorem ReturnStack.toList_pop_rest (stack : ReturnStack) :
    stack.pop.rest.toList = stack.toList.dropLast := by
  unfold pop toList
  cases stack.newestFirst with
  | nil => rfl
  | cons newest rest => simp

namespace Arithmetic

theorem nibble_of_ofNibble? {n : Nibble} {operation : Arithmetic}
    (named : ofNibble? n = some operation) : n.val ≤ 7 ∨ n = 0xE := by
  have all : ∀ n : Nibble, (ofNibble? n).isSome → n.val ≤ 7 ∨ n = 0xE := by decide
  exact all n (by rw [named]; rfl)

/-- The four operations that work bit by bit set no flag. -/
theorem flag?_eq_none {n : Nibble} {operation : Arithmetic} (low : n.val < 4)
    (named : ofNibble? n = some operation) (a b : UInt8) : operation.flag? a b = none := by
  have all : ∀ n : Nibble, n.val < 4 →
      ofNibble? n ∈ [some .copy, some .or, some .and, some .xor] := by decide
  have bitwise := all n low
  rw [named] at bitwise
  simp only [List.mem_cons, Option.some.injEq, List.not_mem_nil, or_false] at bitwise
  rcases bitwise with rfl | rfl | rfl | rfl <;> rfl

end Arithmetic

namespace Machine

variable {machine : Machine} {opcode : Opcode}

theorem byte_memoryAfter (fits : machine.Fits opcode.instruction) {address : Nat}
    (spared : ¬ machine.Stores opcode address) :
    (machine.memoryAfter opcode.instruction).byte address = machine.memory.byte address := by
  have encodes := opcode.encodes_instruction
  generalize opcode.instruction = instruction at fits encodes
  cases instruction with
  | decimal x =>
      obtain ⟨kind, -, byte⟩ := encodes
      have inside : machine.index.toNat + 3 ≤ 4096 := fits _ rfl
      rw [memoryAfter, Memory.byte_store _ inside, if_neg]
      rintro ⟨low, high⟩
      exact spared ⟨kind, low, Or.inl ⟨byte, Nat.le_of_lt_succ high⟩⟩
  | save x =>
      obtain ⟨kind, rfl, byte⟩ := encodes
      have inside : machine.index.toNat + (opcode.x.val + 1) ≤ 4096 := fits _ rfl
      rw [memoryAfter, Memory.byte_store _ (by rwa [Registers.length_upTo]), if_neg]
      rintro ⟨low, high⟩
      rw [Registers.length_upTo] at high
      exact spared ⟨kind, low, Or.inr ⟨byte, by omega⟩⟩
  | _ => rfl

theorem get_combine {operation : Arithmetic} {x y r : Nibble} (notFirst : r ≠ x)
    (notFlag : r = Layout.flagRegister → ∀ a b, operation.flag? a b = none) :
    (machine.combine operation x y).registers.get r = machine.registers.get r := by
  unfold combine
  dsimp only
  split
  · rename_i flag found
    have other : r ≠ Layout.flagRegister := fun same => by simp [notFlag same] at found
    rw [Registers.setFlag, Registers.get_set, if_neg other, Registers.get_set, if_neg notFirst]
  · rw [Registers.get_set, if_neg notFirst]

theorem get_registersAfter {random : UInt8} {r : Nibble} (spared : ¬ opcode.Assigns r) :
    (machine.registersAfter random opcode.instruction).get r = machine.registers.get r := by
  have encodes := opcode.encodes_instruction
  have notFirst : opcode.AssignsFirst → r ≠ opcode.x := fun first same =>
    spared (Or.inl ⟨first, same⟩)
  have notFlag : opcode.AssignsFlag → r ≠ Layout.flagRegister := fun flag same =>
    spared (Or.inr (Or.inl ⟨flag, same⟩))
  generalize opcode.instruction = instruction at encodes
  cases instruction with
  | setValue x nn | addValue x nn | random x nn =>
      obtain ⟨kind, rfl, -⟩ := encodes
      rw [registersAfter, Registers.get_set,
        if_neg (notFirst (by simp [Opcode.AssignsFirst, kind]))]
  | getDelay x =>
      obtain ⟨kind, rfl, byte⟩ := encodes
      rw [registersAfter, Registers.get_set,
        if_neg (notFirst (by simp [Opcode.AssignsFirst, kind, byte]))]
  | awaitPin x =>
      obtain ⟨kind, rfl, byte⟩ := encodes
      simp only [registersAfter]
      split
      · rw [Registers.get_set, if_neg (notFirst (by simp [Opcode.AssignsFirst, kind, byte]))]
      · rfl
  | combine operation x y =>
      obtain ⟨kind, rfl, rfl, named⟩ := encodes
      have known := Arithmetic.nibble_of_ofNibble? named
      refine get_combine (notFirst (by simp [Opcode.AssignsFirst, kind, known])) ?_
      intro isFlag
      apply Arithmetic.flag?_eq_none (Nat.lt_of_not_le fun high => ?_) named
      refine notFlag (Or.inr ⟨kind, ?_⟩) isFlag
      exact known.imp (fun low => ⟨high, low⟩) id
  | draw x y n =>
      have kind := encodes.1
      rw [registersAfter, drawSprite, Registers.setFlag, Registers.get_set,
        if_neg (notFlag (Or.inl kind))]
  | restore x =>
      obtain ⟨kind, rfl, byte⟩ := encodes
      have above : ¬ r ≤ opcode.x := fun within => spared (Or.inr (Or.inr ⟨kind, byte, within⟩))
      rw [registersAfter, Registers.get_load,
        machine.getD_bytesAtIndex_of_le (Nat.lt_of_not_le above)]
  | _ => rfl

theorem indexAfter_eq (spared : ¬ opcode.MovesIndex) :
    machine.indexAfter opcode.instruction = machine.index := by
  have encodes := opcode.encodes_instruction
  generalize opcode.instruction = instruction at encodes
  cases instruction with
  | setIndex nnn => exact absurd (Or.inl encodes.1) spared
  | addIndex x =>
      obtain ⟨kind, -, byte⟩ := encodes
      exact absurd (Or.inr ⟨kind, Or.inl byte⟩) spared
  | glyph x =>
      obtain ⟨kind, -, byte⟩ := encodes
      exact absurd (Or.inr ⟨kind, Or.inr byte⟩) spared
  | _ => rfl

theorem displayAfter_eq (spared : ¬ opcode.TouchesDisplay) :
    machine.displayAfter opcode.instruction = machine.display := by
  have encodes := opcode.encodes_instruction
  generalize opcode.instruction = instruction at encodes
  cases instruction with
  | clear => exact absurd (Or.inl encodes) spared
  | draw x y n => exact absurd (Or.inr encodes.1) spared
  | _ => rfl

theorem delay_timersAfter (spared : ¬ (opcode.kind = 0xF ∧ opcode.value.toNat = 0x15)) :
    (machine.timersAfter opcode.instruction).delay = machine.timers.delay := by
  have encodes := opcode.encodes_instruction
  generalize opcode.instruction = instruction at encodes
  cases instruction with
  | setDelay x =>
      obtain ⟨kind, -, byte⟩ := encodes
      exact absurd ⟨kind, byte⟩ spared
  | _ => rfl

theorem sound_timersAfter (spared : ¬ (opcode.kind = 0xF ∧ opcode.value.toNat = 0x18)) :
    (machine.timersAfter opcode.instruction).sound = machine.timers.sound := by
  have encodes := opcode.encodes_instruction
  generalize opcode.instruction = instruction at encodes
  cases instruction with
  | setSound x =>
      obtain ⟨kind, -, byte⟩ := encodes
      exact absurd ⟨kind, byte⟩ spared
  | _ => rfl

theorem toList_stackAfter :
    (machine.stackAfter opcode.instruction).toList =
      if opcode.kind = 0x2 then machine.stack.toList ++ [machine.pc]
      else if opcode.kind = 0x0 ∧ opcode.address.val = 0x0EE then machine.stack.toList.dropLast
      else machine.stack.toList := by
  have encodes := opcode.encodes_instruction
  generalize opcode.instruction = instruction at encodes
  cases instruction with
  | goBack =>
      obtain ⟨kind, address⟩ := encodes
      simp [stackAfter, ReturnStack.toList_pop_rest, kind, address]
  | call nnn => simp [stackAfter, encodes.1]
  | clear =>
      obtain ⟨kind, address⟩ := encodes
      simp [stackAfter, kind, address]
  | routine nnn =>
      obtain ⟨kind, rfl, _, notReturn⟩ := encodes
      simp [stackAfter, kind, notReturn]
  | unknown shown =>
      obtain ⟨-, meaningless⟩ := encodes
      rcases meaningless with ⟨kind, _⟩ | ⟨kind, _⟩ | ⟨kind, _⟩ | ⟨kind, _⟩ | ⟨kind, _⟩ <;>
        simp [stackAfter, kind]
  | _ => simp [stackAfter, encodes.1]

end Machine

/-! ## One cycle -/

namespace Console

/-- Only a successful cycle changes memory, and only where its opcode stores. -/
theorem byte_cycle {console : Console} {random : UInt8} {address : Nat}
    (spared : (console.cycle random).result = .done →
      ¬ console.machine.Stores console.machine.opcodeAtPc address) :
    (console.cycle random).console.machine.memory.byte address =
      console.machine.memory.byte address := by
  by_cases done : (console.cycle random).result = .done
  · obtain ⟨running, inside, fits⟩ := cycle_done_iff.mp done
    rw [machine_cycle_of_fits running inside fits, (Machine.execute_spec fits random).memory]
    exact Machine.byte_memoryAfter fits (spared done)
  · obtain ⟨pc, fault, left⟩ := machine_cycle_of_not_done done
    rw [left]

/-- What a successful cycle on an opcode leaves as it was, part by part. -/
structure Footprint (before : Console) (opcode : Opcode) (after : Console) : Prop where
  memory : ∀ address, ¬ before.machine.Stores opcode address →
    after.machine.memory.byte address = before.machine.memory.byte address
  registers : ∀ r, ¬ opcode.Assigns r →
    after.machine.registers.get r = before.machine.registers.get r
  index : ¬ opcode.MovesIndex → after.machine.index = before.machine.index
  display : ¬ opcode.TouchesDisplay → after.machine.display = before.machine.display
  stack : after.machine.stack.toList =
    if opcode.kind = 0x2 then before.machine.stack.toList ++ [before.machine.pc + 2]
    else if opcode.kind = 0x0 ∧ opcode.address.val = 0x0EE then
      before.machine.stack.toList.dropLast
    else before.machine.stack.toList
  delay : ¬ (opcode.kind = 0xF ∧ opcode.value.toNat = 0x15) →
    after.machine.timers.delay = before.machine.timers.delay
  sound : ¬ (opcode.kind = 0xF ∧ opcode.value.toNat = 0x18) →
    after.machine.timers.sound = before.machine.timers.sound
  keypad : after.machine.keypad = before.machine.keypad
  fault : after.machine.fault = before.machine.fault
  sink : after.sink = before.sink ∨
    opcode.kind = 0xD ∧ after.sink = none ∧ ∃ receiver, before.sink = some ⟨receiver, false⟩
  attached : after.attached = before.attached
  ticker : after.ticker = before.ticker

/-- The sink loses its receiver in a cycle only if that draws for one that is gone. -/
theorem sink_of_cycle (console : Console) (random : UInt8) :
    ((console.cycle random).console.sink = console.sink ∨
      console.machine.opcodeAtPc.kind = 0xD ∧ (console.cycle random).console.sink = none ∧
        ∃ receiver, console.sink = some ⟨receiver, false⟩) ∧
    (console.cycle random).console.attached = console.attached := by
  cases console.cycle_sinkStep random with
  | attached asked report => cases asked
  | dropped receiver asked report => cases asked
  | unplugged frame drawn sink report =>
      exact ⟨Or.inl (report.sink.trans sink.symm), report.attached⟩
  | taken receiver frame drawn sink report =>
      exact ⟨Or.inl (report.sink.trans sink.symm), report.attached⟩
  | missed receiver frame drawn sink report =>
      refine ⟨Or.inr ⟨?_, report.sink, receiver, sink⟩, report.attached⟩
      rw [drawn?_cycle] at drawn
      split at drawn
      · rename_i drew
        exact (Machine.drew_cycle_iff.mp drew).2
      · cases drawn
  | other undrawn report => exact ⟨Or.inl report.sink, report.attached⟩

theorem proceed_ticker (console : Console) (effect : Effect) :
    (console.proceed effect).console.ticker = console.ticker := by
  obtain ⟨machine, fault, notices, drew⟩ := effect
  obtain ⟨_, sink, attached, ticker⟩ := console
  rcases sink with _ | ⟨receiver, _ | _⟩ <;> cases drew <;> cases fault <;> rfl

theorem flag_spared {opcode : Opcode} (own : opcode.x ≠ Layout.flagRegister)
    (plain : opcode.kind = 0x7 ∨ (opcode.kind = 0xF ∧ opcode.value.toNat = 0x1E) ∨
      (opcode.kind = 0x8 ∧ opcode.n.val < 4)) : ¬ opcode.Assigns Layout.flagRegister := by
  rintro (⟨-, isFirst⟩ | ⟨flag, -⟩ | ⟨kind, byte, -⟩)
  · exact own isFirst.symm
  · rcases plain with other | ⟨other, -⟩ | ⟨other, low⟩
    · simp [Opcode.AssignsFlag, other] at flag
    · simp [Opcode.AssignsFlag, other] at flag
    · rcases flag with draw | ⟨-, ⟨high, -⟩ | last⟩
      · simp [other] at draw
      · omega
      · rw [last] at low
        exact absurd low (by decide)
  · rcases plain with other | ⟨-, other⟩ | ⟨other, -⟩
    · simp [other] at kind
    · omega
    · simp [other] at kind

/-- A successful cycle changes nothing but what its opcode may touch. In particular the
addition of a constant, the addition to the index and the operations bit by bit leave the
flag register alone, unless it is the register that they are about. -/
theorem cycle_within_footprint {console : Console} {opcode : Opcode} {random : UInt8}
    (fetched : console.machine.fetch = .ok opcode)
    (succeeded : (console.cycle random).result = .done) :
    console.Footprint opcode (console.cycle random).console ∧
    (opcode.x ≠ Layout.flagRegister →
      (opcode.kind = 0x7 ∨ (opcode.kind = 0xF ∧ opcode.value.toNat = 0x1E) ∨
        (opcode.kind = 0x8 ∧ opcode.n.val < 4)) →
      (console.cycle random).console.machine.registers.get Layout.flagRegister =
        console.machine.registers.get Layout.flagRegister) := by
  obtain ⟨inside, rfl⟩ := Machine.fetch_eq_ok_iff.mp fetched
  obtain ⟨running, _, fits⟩ := cycle_done_iff.mp succeeded
  have spec := Machine.execute_spec fits random
  have left := machine_cycle_of_fits running inside fits random
  have registers : ∀ r, ¬ console.machine.opcodeAtPc.Assigns r →
      (console.cycle random).console.machine.registers.get r =
        console.machine.registers.get r := by
    intro r spared
    rw [left, spec.registers]
    exact Machine.get_registersAfter spared
  obtain ⟨sink, attached⟩ := console.sink_of_cycle random
  have ticker := proceed_ticker console (console.machine.cycle random)
  refine ⟨⟨?_, registers, ?_, ?_, ?_, ?_, ?_, ?_, ?_, sink, attached, ticker⟩, ?_⟩
  · intro address spared
    exact byte_cycle fun _ => spared
  · intro spared
    rw [left, spec.index]
    exact Machine.indexAfter_eq spared
  · intro spared
    rw [left, spec.display]
    exact Machine.displayAfter_eq spared
  · rw [left, spec.stack]
    exact Machine.toList_stackAfter
  · intro spared
    rw [left, spec.timers]
    exact Machine.delay_timersAfter spared
  · intro spared
    rw [left, spec.timers]
    exact Machine.sound_timersAfter spared
  · rw [left, spec.keypad]
    rfl
  · rw [left, spec.halt]
    rfl
  · intro own plain
    exact registers _ (flag_spared own plain)

def drawingForNobody : Console :=
  { create with
    machine := { Machine.fresh with memory := Memory.blank.store 0x200 [0xD0, 0x11] }
    sink := some ⟨0, false⟩
    attached := 1 }

theorem drawing_for_nobody_within_footprint :
    drawingForNobody.machine.fetch = .ok ⟨0xD, 0, 1, 1⟩ ∧
    (drawingForNobody.cycle 0).result = .done ∧
    drawingForNobody.Footprint ⟨0xD, 0, 1, 1⟩ (drawingForNobody.cycle 0).console := by
  have fetched : drawingForNobody.machine.fetch = .ok ⟨0xD, 0, 1, 1⟩ :=
    Machine.fetch_eq_ok_iff.mpr ⟨by decide, by decide +kernel⟩
  have succeeded : (drawingForNobody.cycle 0).result = .done := by decide +kernel
  exact ⟨fetched, succeeded, (cycle_within_footprint fetched succeeded).1⟩

end Console

end Chip8
