import Chip8.Proofs.Decoding
import Chip8.Proofs.Runs

/-! # Waiting for a pin

While no pin is set, a cycle on FX0A leaves everything as it is, so such a cycle can be
repeated for ever. The host meanwhile touches the timers and the pins of the machine and
nothing else in it (`Machine.StillAs`); the machine therefore still waits at the same place
when the first pin is set, and the next cycle loads the lowest one.
-/

namespace Chip8

namespace Machine

/-! ## A machine that waits -/

/-- A machine that runs and stands before an opcode that loads a pin. -/
structure Waits (machine : Machine) (x : Nibble) : Prop where
  running : machine.fault = none
  inside : machine.pc.toNat + 2 ≤ 4096
  decoded : machine.opcodeAtPc.instruction = .awaitPin x

/-- Two states agree in all but the timers and the pins. -/
def StillAs (before after : Machine) : Prop :=
  after = { before with timers := after.timers, keypad := after.keypad }

theorem StillAs.refl (machine : Machine) : machine.StillAs machine := rfl

theorem StillAs.trans {first second third : Machine} (early : first.StillAs second)
    (late : second.StillAs third) : first.StillAs third := by
  unfold StillAs at early late ⊢
  rw [late, early]

theorem StillAs.pc {before after : Machine} (still : before.StillAs after) :
    after.pc = before.pc := by
  unfold StillAs at still
  rw [still]

theorem StillAs.opcodeAtPc {before after : Machine} (still : before.StillAs after) :
    after.opcodeAtPc = before.opcodeAtPc := by
  unfold StillAs at still
  rw [still]
  rfl

theorem Waits.stillAs {before after : Machine} {x : Nibble} (waits : before.Waits x)
    (still : before.StillAs after) : after.Waits x := by
  unfold StillAs at still
  rw [still]
  exact ⟨waits.running, waits.inside, waits.decoded⟩

variable {machine : Machine} {x : Nibble}

theorem Waits.cycle_eq (waits : machine.Waits x) (random : UInt8) :
    machine.cycle random =
      (machine.advance.execute random (.awaitPin x)).noting
        (.fetched machine.pc machine.opcodeAtPc.word) := by
  have fits : machine.advance.Fits machine.opcodeAtPc.instruction := by
    rw [waits.decoded]
    exact fits_of_no_reach rfl
  rw [cycle_of_fits waits.running waits.inside fits, waits.decoded]

/-- The rewind takes back what the fetch has moved, wherever the opcode stands. -/
theorem tryAgain_advance (machine : Machine) : machine.advance.tryAgain = machine := by
  show { machine with pc := machine.pc + 2 - 2 } = machine
  rw [UInt16.add_sub_cancel]

theorem Waits.cycle_of_clear (waits : machine.Waits x) (unset : machine.keypad = .clear)
    (random : UInt8) :
    machine.cycle random =
      ⟨machine, none, [.fetched machine.pc machine.opcodeAtPc.word], false⟩ := by
  have nothing : machine.advance.keypad.lowest? = none :=
    machine.keypad.lowest?_eq_none_iff.mpr unset
  simp only [waits.cycle_eq, execute, nothing, tryAgain_advance]
  rfl

theorem Waits.cycle_of_lowest (waits : machine.Waits x) {pin : Nibble}
    (found : machine.keypad.lowest? = some pin) (random : UInt8) :
    machine.cycle random =
      ⟨machine.advance.setRegister x (UInt8.ofNat pin.val), none,
        [.fetched machine.pc machine.opcodeAtPc.word], false⟩ := by
  have something : machine.advance.keypad.lowest? = some pin := found
  simp only [waits.cycle_eq, execute, something]
  rfl

end Machine

namespace Console

/-! ## Operations meanwhile -/

theorem stillAs_perform {operation : Operation} (console : Console)
    (unloaded : ∀ program, operation ≠ .load program)
    (idle : ∀ random, operation ≠ .cycle random) :
    console.machine.StillAs (console.perform operation).console.machine := by
  cases operation with
  | load program => exact absurd rfl (unloaded program)
  | cycle random => exact absurd rfl (idle random)
  | setPin pin value =>
      simp only [perform, setPin]
      split <;> rfl
  | _ => rfl

theorem cycle_of_waits {console : Console} {x : Nibble} (waits : console.machine.Waits x)
    (unset : console.machine.keypad = .clear) (random : UInt8) :
    console.cycle random =
      ⟨console, .done, [.fetched console.machine.pc console.machine.opcodeAtPc.word], none⟩ := by
  rw [cycle, waits.cycle_of_clear unset]
  rfl

theorem cycle_of_pin {console : Console} {x pin : Nibble} (waits : console.machine.Waits x)
    (found : console.machine.keypad.lowest? = some pin) (random : UInt8) :
    console.cycle random =
      ⟨{ console with
          machine := console.machine.advance.setRegister x (UInt8.ofNat pin.val) },
        .done, [.fetched console.machine.pc console.machine.opcodeAtPc.word], none⟩ := by
  rw [cycle, waits.cycle_of_lowest found]
  rfl

/-- As long as its cycles find no pin set, a machine waits, and every cycle leaves the console
exactly as it was. -/
theorem waiting_run {base : Machine} {console : Console} {x : Nibble} (waits : base.Waits x)
    (still : base.StillAs console.machine) {operations : List Operation}
    (unloaded : ∀ program, .load program ∉ operations)
    (unset : console.EveryCycle (fun now _ => now.machine.keypad = .clear) operations) :
    base.StillAs (console.after operations).machine ∧
      console.EveryCycle (fun now random => now.cycle random =
        ⟨now, .done, [.fetched base.pc base.opcodeAtPc.word], none⟩) operations := by
  induction operations generalizing console with
  | nil => exact ⟨still, everyCycle_nil⟩
  | cons operation rest ih =>
      obtain ⟨first, later⟩ := everyCycle_cons.mp unset
      have here : console.machine.Waits x := waits.stillAs still
      have unloadedLater : ∀ program, .load program ∉ rest := fun program loaded =>
        unloaded program (List.mem_cons_of_mem operation loaded)
      have next : base.StillAs (console.perform operation).console.machine := by
        by_cases cycles : ∃ random, operation = .cycle random
        · obtain ⟨random, rfl⟩ := cycles
          have same : (console.perform (.cycle random)).console = console := by
            rw [perform, cycle_of_waits here (first random rfl)]
          rw [same]
          exact still
        · refine still.trans (console.stillAs_perform ?_ (not_exists.mp cycles))
          rintro program rfl
          exact unloaded program List.mem_cons_self
      obtain ⟨stillThen, everyThen⟩ := ih next unloadedLater later
      refine ⟨stillThen, everyCycle_cons.mpr ⟨?_, everyThen⟩⟩
      rintro random rfl
      rw [cycle_of_waits here (first random rfl), still.pc, still.opcodeAtPc]

/-- A machine before FX0A waits for a pin, whatever the host does meanwhile without loading
anything: each cycle that finds no pin set succeeds, leaves the whole console as it was and
hands over no frame. Once a pin is set, the next cycle loads the number of the lowest one,
moves on by one opcode and changes nothing else. -/
theorem waits_for_lowest_pin {console : Console} {opcode : Opcode} {operations : List Operation}
    (running : console.machine.fault = none) (fetched : console.machine.fetch = .ok opcode)
    (kind : opcode.kind = 0xF) (byte : opcode.value.toNat = 0x0A)
    (unloaded : ∀ program, .load program ∉ operations)
    (unset : console.EveryCycle (fun now _ => now.machine.keypad = .clear) operations) :
    let waiting := console.after operations
    let notice := Notice.fetched console.machine.pc opcode.word
    console.EveryCycle (fun now random => now.cycle random = ⟨now, .done, [notice], none⟩)
        operations ∧
      console.machine.StillAs waiting.machine ∧
      ((∃ pin, waiting.machine.keypad.get pin = true) →
        ∃ lowest, waiting.machine.keypad.get lowest = true ∧
          (∀ lower < lowest, waiting.machine.keypad.get lower = false) ∧
          (waiting.machine.pc + 2).toNat = waiting.machine.pc.toNat + 2 ∧
          ∀ random, waiting.cycle random =
            ⟨{ waiting with
                machine.pc := waiting.machine.pc + 2
                machine.registers :=
                  waiting.machine.registers.set opcode.x (UInt8.ofNat lowest.val) },
              .done, [notice], none⟩) := by
  intro waiting notice
  obtain ⟨inside, rfl⟩ := Machine.fetch_eq_ok_iff.mp fetched
  have waits : console.machine.Waits console.machine.opcodeAtPc.x :=
    ⟨running, inside, Opcode.instruction_eq_iff.mpr ⟨kind, rfl, byte⟩⟩
  obtain ⟨still, every⟩ := waiting_run waits (.refl console.machine) unloaded unset
  refine ⟨every, still, ?_⟩
  rintro ⟨pin, pinSet⟩
  have waitsStill := waits.stillAs still
  obtain ⟨lowest, found⟩ := Keypad.lowest_of_get pinSet
  obtain ⟨lowestSet, lowerUnset⟩ := Keypad.lowest_spec found
  have room : waiting.machine.pc.toNat + 2 < 65536 :=
    Nat.lt_of_le_of_lt waitsStill.inside (by decide)
  have told : Notice.fetched waiting.machine.pc waiting.machine.opcodeAtPc.word = notice := by
    rw [still.pc, still.opcodeAtPc]
  refine ⟨lowest, lowestSet, lowerUnset, Machine.toNat_pc_advance room, ?_⟩
  intro random
  rw [cycle_of_pin waitsStill found, told]
  rfl

/-- While it waits, a pin without a number is refused, a pin is set and cleared again, and timers
and receivers change. Of the two pins set at last, the lower one goes to V3. -/
theorem waits_for_seventh_pin :
    let console := (create.load [0xF3, 0x0A]).console
    let operations : List Operation :=
      [.cycle 0, .setPin 20 true, .tick, .attach, .setPin 4 true, .resetPins, .cycle 7,
        .setDelay 3, .setPin 9 true, .setPin 7 true]
    let waiting := console.after operations
    console.EveryCycle (fun now random =>
        now.cycle random = ⟨now, .done, [.fetched 0x200 0xF30A], none⟩) operations ∧
      ∀ random, waiting.cycle random =
        ⟨{ waiting with
            machine.pc := waiting.machine.pc + 2
            machine.registers := waiting.machine.registers.set 3 7 },
          .done, [.fetched 0x200 0xF30A], none⟩ := by
  intro console operations waiting
  have fetched : console.machine.fetch = .ok ⟨0xF, 3, 0, 0xA⟩ :=
    Machine.fetch_eq_ok_iff.mpr ⟨by decide, by decide +kernel⟩
  have unset : console.EveryCycle (fun now _ => now.machine.keypad = .clear) operations := by
    simp only [operations, everyCycle_cons, reduceCtorEq, false_implies, implies_true, true_and]
    exact ⟨fun _ _ => rfl, fun _ _ => by decide +kernel, everyCycle_nil⟩
  obtain ⟨every, -, awaited⟩ :=
    waits_for_lowest_pin rfl fetched rfl rfl (by simp [operations]) unset
  have pins : waiting.machine.keypad.get 7 = true ∧
      ∀ pin, waiting.machine.keypad.get pin = true →
        (∀ lower < pin, waiting.machine.keypad.get lower = false) → pin = 7 := by decide +kernel
  obtain ⟨lowest, lowestSet, lowerUnset, -, turn⟩ := awaited ⟨7, pins.1⟩
  obtain rfl := pins.2 lowest lowestSet lowerUnset
  exact ⟨every, turn⟩

end Console

end Chip8
