import Chip8.Proofs.Bounds
import Chip8.Proofs.Decoding

/-! # Control flow

Where a program goes on after a cycle, as a number that is read off the nibbles of the
opcode and the state before the cycle. Neither the fetch nor a skip nor a repeated
instruction wraps on the way there.
-/

namespace Chip8

namespace Machine

def skipsNext (machine : Machine) (opcode : Opcode) : Bool :=
  let x := machine.registers.get opcode.x
  let y := machine.registers.get opcode.y
  let pin := machine.keypad.get (.low x)
  opcode.kind == 0x3 && x == opcode.value ||
  opcode.kind == 0x4 && x != opcode.value ||
  opcode.kind == 0x5 && opcode.n == 0 && x == y ||
  opcode.kind == 0x9 && opcode.n == 0 && x != y ||
  opcode.kind == 0xE && opcode.value.toNat == 0x9E && pin ||
  opcode.kind == 0xE && opcode.value.toNat == 0xA1 && !pin

/-- The program counter after an opcode, in terms of the state before its fetch. -/
def nextPc (machine : Machine) (opcode : Opcode) : Nat :=
  if opcode.kind = 0x1 ∨ opcode.kind = 0x2 then
    opcode.address.val
  else if opcode.kind = 0xB then
    opcode.address.val + (machine.registers.get 0).toNat
  else if opcode.kind = 0x0 ∧ opcode.address.val = 0x0EE then
    (machine.stack.peek?.getD 0).toNat
  else if opcode.kind = 0xF ∧ opcode.value.toNat = 0x0A ∧ machine.keypad = .clear then
    machine.pc.toNat
  else if machine.skipsNext opcode then
    machine.pc.toNat + 4
  else
    machine.pc.toNat + 2

/-- Advancing changes neither a register nor a pin, so it moves no skip. -/
theorem skips_advance (machine : Machine) (instruction : Instruction) :
    machine.advance.skips instruction = machine.skips instruction := by
  cases instruction <;> rfl

theorem skipsNext_of_meaningless {machine : Machine} {opcode : Opcode}
    (meaningless : opcode.Meaningless) : machine.skipsNext opcode = false := by
  rcases meaningless with
    ⟨kind, other⟩ | ⟨kind, _⟩ | ⟨kind, other⟩ | ⟨kind, byte⟩ | ⟨kind, _⟩
  · simp [skipsNext, kind, other]
  · simp [skipsNext, kind]
  · simp [skipsNext, kind, other]
  · simp only [List.mem_cons, List.not_mem_nil, or_false, not_or] at byte
    simp [skipsNext, kind, byte]
  · simp [skipsNext, kind]

theorem nextPc_of_meaningless {machine : Machine} {opcode : Opcode}
    (meaningless : opcode.Meaningless) :
    machine.nextPc opcode =
      if machine.skipsNext opcode then machine.pc.toNat + 4 else machine.pc.toNat + 2 := by
  rcases meaningless with ⟨kind, _⟩ | ⟨kind, _⟩ | ⟨kind, _⟩ | ⟨kind, _⟩ | ⟨kind, byte⟩
  · simp [nextPc, kind]
  · simp [nextPc, kind]
  · simp [nextPc, kind]
  · simp [nextPc, kind]
  · simp only [List.mem_cons, List.not_mem_nil, or_false, not_or] at byte
    simp [nextPc, kind, byte]

theorem toNat_pc_onwards {machine : Machine} (inside : machine.pc.toNat + 2 ≤ 4096)
    (skip : Bool) :
    (if skip then machine.advance.pc + 2 else machine.advance.pc).toNat =
      if skip then machine.pc.toNat + 4 else machine.pc.toNat + 2 := by
  have moved : machine.advance.pc.toNat = machine.pc.toNat + 2 := toNat_pc_advance (by omega)
  cases skip with
  | false => exact moved
  | true =>
      have passed := toNat_pc_advance (show machine.advance.pc.toNat + 2 < 65536 by omega)
      rw [moved] at passed
      exact passed

theorem toNat_pcAfter_awaitPin {machine : Machine} (inside : machine.pc.toNat + 2 ≤ 4096)
    (x : Nibble) :
    (machine.advance.pcAfter (.awaitPin x)).toNat =
      if machine.keypad = .clear then machine.pc.toNat else machine.pc.toNat + 2 := by
  have moved : machine.advance.pc.toNat = machine.pc.toNat + 2 := toNat_pc_advance (by omega)
  show (if machine.keypad.lowest?.isSome then machine.advance.pc
    else machine.advance.pc - 2).toNat = _
  by_cases unset : machine.keypad = .clear
  · have nothing := machine.keypad.lowest?_eq_none_iff.mpr unset
    have back : (machine.advance.pc - 2).toNat = machine.advance.pc.toNat - 2 :=
      toNat_pc_sub_two (by omega)
    rw [if_pos unset, nothing]
    show (machine.advance.pc - 2).toNat = machine.pc.toNat
    omega
  · have something : machine.keypad.lowest?.isSome := by
      rw [Option.isSome_iff_ne_none]
      exact fun nothing => unset (machine.keypad.lowest?_eq_none_iff.mp nothing)
    rw [if_neg unset, if_pos something]
    exact moved

/-- Where an instruction continues, the nibbles of its opcode tell. -/
theorem toNat_pcAfter {machine : Machine} {opcode : Opcode}
    (inside : machine.pc.toNat + 2 ≤ 4096) (fits : machine.advance.Fits opcode.instruction) :
    (machine.advance.pcAfter opcode.instruction).toNat = machine.nextPc opcode := by
  -- Every instruction that sets no program counter of its own passes here, skipping or not.
  have onwards : ∀ skip : Bool, machine.skipsNext opcode = skip →
      machine.nextPc opcode =
        (if machine.skipsNext opcode then machine.pc.toNat + 4 else machine.pc.toNat + 2) →
      (if skip then machine.advance.pc + 2 else machine.advance.pc).toNat =
        machine.nextPc opcode := by
    intro skip same law
    rw [law, same]
    exact toNat_pc_onwards inside skip
  have encodes := opcode.encodes_instruction
  generalize opcode.instruction = instruction at fits encodes
  cases instruction with
  | goBack =>
      obtain ⟨kind, address⟩ := encodes
      have law : machine.nextPc opcode = (machine.stack.peek?.getD 0).toNat := by
        simp [nextPc, kind, address]
      rw [law, ← ReturnStack.address_pop]
      rfl
  | jump nnn | call nnn =>
      obtain ⟨kind, rfl⟩ := encodes
      have law : machine.nextPc opcode = opcode.address.val := by simp [nextPc, kind]
      rw [law]
      exact opcode.address.toNat_word
  | jumpOffset nnn =>
      obtain ⟨kind, rfl⟩ := encodes
      have target : opcode.address.val + (machine.registers.get 0).toNat + 1 ≤ 4096 :=
        fits _ rfl
      have law : machine.nextPc opcode =
          opcode.address.val + (machine.registers.get 0).toNat := by simp [nextPc, kind]
      rw [law]
      show (UInt16.ofNat (opcode.address.val + (machine.registers.get 0).toNat)).toNat = _
      rw [UInt16.toNat_ofNat']
      omega
  | awaitPin x =>
      obtain ⟨kind, rfl, byte⟩ := encodes
      have law : machine.nextPc opcode =
          if machine.keypad = .clear then machine.pc.toNat else machine.pc.toNat + 2 := by
        simp [nextPc, skipsNext, kind, byte]
      rw [law]
      exact toNat_pcAfter_awaitPin inside opcode.x
  | skipIfValue x nn | skipUnlessValue x nn =>
      obtain ⟨kind, rfl, rfl⟩ := encodes
      refine onwards _ ?_ ?_
      · rw [skips_advance]
        simp [skipsNext, skips, kind]
      · simp [nextPc, kind]
  | skipIfSame x y | skipUnlessSame x y =>
      obtain ⟨kind, rfl, rfl, zero⟩ := encodes
      refine onwards _ ?_ ?_
      · rw [skips_advance]
        simp [skipsNext, skips, kind, zero]
      · simp [nextPc, kind]
  | skipIfPin x | skipUnlessPin x =>
      obtain ⟨kind, rfl, byte⟩ := encodes
      refine onwards _ ?_ ?_
      · rw [skips_advance]
        simp [skipsNext, skips, pinOf, kind, byte]
      · simp [nextPc, kind, byte]
  | clear =>
      obtain ⟨kind, address⟩ := encodes
      refine onwards false ?_ ?_
      · simp [skipsNext, kind]
      · simp [nextPc, kind, address]
  | routine nnn =>
      obtain ⟨kind, rfl, _, notReturn⟩ := encodes
      refine onwards false ?_ ?_
      · simp [skipsNext, kind]
      · simp [nextPc, kind, notReturn]
  | setValue x nn | addValue x nn | combine operation x y | setIndex nnn | random x nn
  | draw x y n =>
      have kind := encodes.1
      refine onwards false ?_ ?_
      · simp [skipsNext, kind]
      · simp [nextPc, kind]
  | getDelay x | setDelay x | setSound x | addIndex x | glyph x | decimal x | save x
  | restore x =>
      obtain ⟨kind, _, byte⟩ := encodes
      refine onwards false ?_ ?_
      · simp [skipsNext, kind]
      · simp [nextPc, kind, byte]
  | unknown shown =>
      obtain ⟨_, meaningless⟩ := encodes
      exact onwards false (skipsNext_of_meaningless meaningless)
        (nextPc_of_meaningless meaningless)

end Machine

namespace Console

/-- A cycle that succeeds on an opcode goes on where the opcode says; a jump with offset
then stays inside memory. -/
theorem pc_after_cycle {console : Console} {opcode : Opcode} {random : UInt8}
    (fetched : console.machine.fetch = .ok opcode)
    (succeeded : (console.cycle random).result = .done) :
    (console.cycle random).console.machine.pc.toNat = console.machine.nextPc opcode ∧
    (opcode.kind = 0xB →
      opcode.address.val + (console.machine.registers.get 0).toNat < 4096) := by
  obtain ⟨inside, rfl⟩ := Machine.fetch_eq_ok_iff.mp fetched
  obtain ⟨running, _, fits⟩ := cycle_done_iff.mp succeeded
  have spec := Machine.execute_spec fits random
  constructor
  · rw [cycle, proceed_machine, Machine.cycle_of_fits running inside fits]
    have continues := Machine.toNat_pcAfter inside fits
    rw [← spec.pc] at continues
    exact continues
  · intro kind
    have decoded : console.machine.opcodeAtPc.instruction =
        .jumpOffset console.machine.opcodeAtPc.address :=
      Opcode.instruction_eq_iff.mpr ⟨kind, rfl⟩
    rw [decoded] at fits
    exact fits _ rfl

def skippingAtEnd : Console :=
  { create with
    machine := { Machine.fresh with
      memory := Memory.blank.store 0xFFE [0x3A, 0x00]
      pc := 0xFFE } }

theorem skipping_leaves_memory :
    skippingAtEnd.machine.fetch = .ok ⟨3, 0xA, 0, 0⟩ ∧
    (skippingAtEnd.cycle 0).result = .done ∧
    (skippingAtEnd.cycle 0).console.machine.pc.toNat = 0x1002 := by
  have running : skippingAtEnd.machine.fault = none := rfl
  have inside : skippingAtEnd.machine.pc.toNat + 2 ≤ 4096 := by decide
  have opcode : skippingAtEnd.machine.opcodeAtPc = ⟨3, 0xA, 0, 0⟩ := by
    simp only [skippingAtEnd, Machine.opcodeAtPc, UInt16.reduceToNat]
    rw [Memory.byte_store _ (by decide), Memory.byte_store _ (by decide)]
    rfl
  have fetched := Machine.fetch_eq_ok_iff.mpr ⟨inside, opcode⟩
  have fits : skippingAtEnd.machine.advance.Fits skippingAtEnd.machine.opcodeAtPc.instruction := by
    rw [opcode]
    intro reach reached
    cases reached
  have succeeded : (skippingAtEnd.cycle 0).result = .done :=
    cycle_done_iff.mpr ⟨running, inside, fits⟩
  have law : skippingAtEnd.machine.nextPc ⟨3, 0xA, 0, 0⟩ = 0x1002 := by decide
  have continues := (pc_after_cycle fetched succeeded).1
  rw [law] at continues
  exact ⟨fetched, succeeded, continues⟩

end Console

end Chip8
