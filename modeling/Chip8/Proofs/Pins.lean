import Chip8.Proofs.ControlFlow
import Chip8.Proofs.Runs

/-! # Input pins

The pins belong to the host: whatever a program does, a pin reads as the host has left it.
`pinValue` reads it off the operations so far, as the latest write since the last reset, and
`get_after` says that the machine agrees. The two skip instructions that look at a pin
therefore follow the history of the host, by the low half of their register.
-/

namespace Chip8

/-! ## Histories of pins -/

namespace Operation

/-- The value that an operation writes to a pin; a write to a pin that does not exist, or to
another one, writes nothing to it. -/
def writes? (pin : Nibble) : Operation → Option Bool
  | .setPin number value => if pin.val = number.toNat then some value else none
  | _ => none

def sinceReset (operations : List Operation) : List Operation :=
  operations.reverse.takeWhile fun operation => decide (operation ≠ .resetPins)

/-- The value that was last written to a pin since the last reset; false if there is none. -/
def pinValue (operations : List Operation) (pin : Nibble) : Bool :=
  ((sinceReset operations).findSome? (writes? pin)).getD false

theorem pinValue_append_reset (past : List Operation) (pin : Nibble) :
    pinValue (past ++ [.resetPins]) pin = false := by
  simp [pinValue, sinceReset]

theorem pinValue_append (past : List Operation) {operation : Operation}
    (keeps : operation ≠ .resetPins) (pin : Nibble) :
    pinValue (past ++ [operation]) pin = (operation.writes? pin).getD (pinValue past pin) := by
  have longer : sinceReset (past ++ [operation]) = operation :: sinceReset past := by
    simp [sinceReset, keeps]
  rw [pinValue, longer, List.findSome?_cons]
  cases operation.writes? pin <;> rfl

end Operation

/-! ## Skips that look at a pin -/

namespace Machine

theorem reach_of_skipPin (machine : Machine) {opcode : Opcode} (kind : opcode.kind = 0xE) :
    machine.reach opcode.instruction = none := by
  have encodes := opcode.encodes_instruction
  cases decoded : opcode.instruction with
  | jumpOffset nnn | draw x y n | decimal x | save x | restore x =>
      rw [decoded] at encodes
      exact absurd (encodes.1.symm.trans kind) (by decide)
  | _ => rfl

theorem skipsNext_skipIfPin (machine : Machine) (x : Nibble) :
    machine.skipsNext ⟨0xE, x, 0x9, 0xE⟩ = machine.pinOf x := by
  have value : Opcode.value ⟨0xE, x, 0x9, 0xE⟩ = 0x9E := rfl
  simp [skipsNext, pinOf, value]

theorem skipsNext_skipUnlessPin (machine : Machine) (x : Nibble) :
    machine.skipsNext ⟨0xE, x, 0xA, 0x1⟩ = !machine.pinOf x := by
  have value : Opcode.value ⟨0xE, x, 0xA, 0x1⟩ = 0xA1 := rfl
  simp [skipsNext, pinOf, value]

end Machine

namespace Console

/-! ## One operation -/

/-- No cycle touches a pin, whether it succeeds or fails. -/
theorem keypad_cycle (console : Console) (random : UInt8) :
    (console.cycle random).console.machine.keypad = console.machine.keypad := by
  by_cases done : (console.cycle random).result = .done
  · obtain ⟨running, inside, fits⟩ := cycle_done_iff.mp done
    rw [machine_cycle_of_fits running inside fits, (Machine.execute_spec fits random).keypad]
    rfl
  · obtain ⟨pc, fault, left⟩ := machine_cycle_of_not_done done
    rw [left]

theorem setPin_of_large (console : Console) {number : UInt8} (large : 16 ≤ number.toNat)
    (value : Bool) :
    console.perform (.setPin number value) = ⟨console, .failed (.noSuchPin number), [], none⟩ := by
  have refused := (console.machine.keypad.set_eq_error_iff number value).mpr large
  simp only [perform, setPin, refused]

theorem setPin_of_small (console : Console) {number : UInt8} (small : number.toNat < 16)
    (value : Bool) :
    (console.perform (.setPin number value)).result = .done ∧
      ∀ pin, (console.perform (.setPin number value)).console.machine.keypad.get pin =
        if pin.val = number.toNat then value else console.machine.keypad.get pin := by
  cases set : console.machine.keypad.set number value with
  | ok keypad =>
      simp only [perform, setPin, set]
      exact ⟨rfl, Keypad.get_of_set_eq_ok set⟩
  | error fault => simp [Keypad.set, small] at set

/-- A reset clears every pin, and all else writes to a pin what it says it writes. -/
theorem get_perform (console : Console) (operation : Operation) (pin : Nibble) :
    (console.perform operation).console.machine.keypad.get pin =
      if operation = .resetPins then false
      else (operation.writes? pin).getD (console.machine.keypad.get pin) := by
  cases operation with
  | resetPins => exact Keypad.get_clear pin
  | setPin number value =>
      rw [if_neg (by simp), Operation.writes?]
      by_cases small : number.toNat < 16
      · rw [(console.setPin_of_small small value).2]
        split <;> rfl
      · have other : pin.val ≠ number.toNat := by
          have := pin.val_lt
          omega
        rw [console.setPin_of_large (Nat.le_of_not_lt small), if_neg other]
        rfl
  | cycle random =>
      rw [if_neg (by simp)]
      exact congrArg (Keypad.get · pin) (console.keypad_cycle random)
  | load program =>
      rw [if_neg (by simp), perform, load_rest]
      rfl
  | _ =>
      rw [if_neg (by simp)]
      rfl

/-! ## Runs -/

theorem get_after {console : Console} {past : List Operation}
    (shown : ∀ pin, console.machine.keypad.get pin = Operation.pinValue past pin)
    (operations : List Operation) (pin : Nibble) :
    (console.after operations).machine.keypad.get pin =
      Operation.pinValue (past ++ operations) pin := by
  induction operations generalizing console past with
  | nil =>
      rw [List.append_nil]
      exact shown pin
  | cons operation rest ih =>
      rw [List.append_cons]
      apply ih
      intro pin
      rw [get_perform]
      split
      · rename_i resets
        rw [resets, Operation.pinValue_append_reset]
      · rename_i keeps
        rw [Operation.pinValue_append past keeps, shown]

/-! ## Skipping -/

/-- A cycle that succeeds, and passes over the next opcode exactly under a condition. -/
structure SkipsIf (console : Console) (random : UInt8) (condition : Bool) : Prop where
  done : (console.cycle random).result = .done
  pc : (console.cycle random).console.machine.pc.toNat =
    if condition then console.machine.pc.toNat + 4 else console.machine.pc.toNat + 2

theorem skipsIf_of_fetch (console : Console) {opcode : Opcode}
    (running : console.machine.fault = none) (fetched : console.machine.fetch = .ok opcode)
    (kind : opcode.kind = 0xE) (random : UInt8) :
    console.SkipsIf random (console.machine.skipsNext opcode) := by
  obtain ⟨inside, rfl⟩ := Machine.fetch_eq_ok_iff.mp fetched
  have fits := Machine.fits_of_no_reach (console.machine.advance.reach_of_skipPin kind)
  refine ⟨cycle_done_iff.mpr ⟨running, inside, fits⟩, ?_⟩
  rw [machine_cycle_of_fits running inside fits, (Machine.execute_spec fits random).pc,
    Machine.toNat_pcAfter inside fits]
  simp [Machine.nextPc, kind]

/-- Whatever has been run and wherever the program has come, every pin reads as the host has
left it: as the last value that was written to it since the last reset, and as unset if there
is none. A write to a pin above the fifteenth is refused and changes nothing. A running
machine before EX9E skips if the pin that the low half of VX names is set, and before EXA1 if
it is not, so it skips on exactly one of the two. -/
theorem pins_read_as_last_written {start : Report} (constructed : Constructed start)
    (operations : List Operation) :
    let console := start.console.after operations
    let pinValue := Operation.pinValue operations
    (∀ number value, 16 ≤ number.toNat →
      console.perform (.setPin number value) = ⟨console, .failed (.noSuchPin number), [], none⟩) ∧
    (∀ number value, number.toNat < 16 → (console.perform (.setPin number value)).result = .done) ∧
    (∀ pin, console.machine.keypad.get pin = pinValue pin) ∧
    ∀ memory x random, console.machine.fault = none →
      let here : Console := { console with machine.memory := memory }
      let pin := Nibble.low (console.machine.registers.get x)
      (here.machine.fetch = .ok ⟨0xE, x, 0x9, 0xE⟩ → here.SkipsIf random (pinValue pin)) ∧
      (here.machine.fetch = .ok ⟨0xE, x, 0xA, 0x1⟩ → here.SkipsIf random (!pinValue pin)) := by
  intro console pinValue
  have shown : ∀ pin, console.machine.keypad.get pin = pinValue pin := by
    have unset : ∀ pin, start.console.machine.keypad.get pin = Operation.pinValue [] pin := by
      intro pin
      rw [constructed.rest]
      exact Keypad.get_clear pin
    exact Console.get_after unset operations
  refine ⟨fun _ value large => console.setPin_of_large large value,
    fun _ value small => (console.setPin_of_small small value).1, shown, ?_⟩
  intro memory x random running here pin
  have pinOf : here.machine.pinOf x = pinValue pin := shown pin
  constructor
  · intro fetched
    have skips := here.skipsIf_of_fetch running fetched rfl random
    rwa [Machine.skipsNext_skipIfPin, pinOf] at skips
  · intro fetched
    have skips := here.skipsIf_of_fetch running fetched rfl random
    rwa [Machine.skipsNext_skipUnlessPin, pinOf] at skips

def namingPin : Report :=
  create.load [0x60, 0x17]

/-- A reset clears the third pin; of the two writes behind it that of 0x17 is refused. -/
def writesAroundReset : List Operation :=
  [.setPin 3 true, .cycle 0, .resetPins, .setPin 7 true, .setPin 0x17 false]

theorem low_half_names_pin :
    let console := namingPin.console.after writesAroundReset
    let before (word : List UInt8) : Console :=
      { console with machine.memory := console.machine.memory.store 0x202 word }
    Constructed namingPin ∧ console.machine.registers.get 0 = 0x17 ∧
    console.perform (.setPin 0x17 true) = ⟨console, .failed (.noSuchPin 0x17), [], none⟩ ∧
    console.machine.keypad.get 3 = false ∧ console.machine.keypad.get 7 = true ∧
    ((before [0xE0, 0x9E]).cycle 0).console.machine.pc.toNat = 0x206 ∧
    ((before [0xE0, 0xA1]).cycle 0).console.machine.pc.toNat = 0x204 := by
  have constructed : Constructed namingPin :=
    .withProgram _ _ (withProgram_of_fits (by decide))
  have state : (namingPin.console.after writesAroundReset).machine.fault = none ∧
      (namingPin.console.after writesAroundReset).machine.registers.get 0 = 0x17 ∧
      (namingPin.console.after writesAroundReset).machine.pc.toNat = 0x202 := by decide +kernel
  have values : Operation.pinValue writesAroundReset 3 = false ∧
      Operation.pinValue writesAroundReset 7 = true := by decide
  obtain ⟨refused, -, shown, skips⟩ := pins_read_as_last_written constructed writesAroundReset
  -- From here on it does not matter what the program has computed.
  generalize namingPin.console.after writesAroundReset = console at state refused shown skips ⊢
  obtain ⟨running, named, pc⟩ := state
  have asked : Operation.pinValue writesAroundReset
      (.low (console.machine.registers.get 0)) = true := by
    rw [named]
    exact values.2
  have ifSet : Opcode.ofBytes 0xE0 0x9E = ⟨0xE, 0, 0x9, 0xE⟩ := rfl
  have unlessSet : Opcode.ofBytes 0xE0 0xA1 = ⟨0xE, 0, 0xA, 0x1⟩ := rfl
  have stored := console.machine.fetch_store pc (by decide)
  refine ⟨constructed, named, refused 0x17 true (by decide), (shown 3).trans values.1,
    (shown 7).trans values.2, ?_, ?_⟩
  · have turn := ((skips _ 0 0 running).1 (ifSet ▸ stored 0xE0 0x9E)).pc
    rw [asked, if_pos rfl] at turn
    rw [turn, pc]
  · have turn := ((skips _ 0 0 running).2 (unlessSet ▸ stored 0xE0 0xA1)).pc
    rw [asked, if_neg (by decide)] at turn
    rw [turn, pc]

end Console

end Chip8
