import Chip8.Proofs.Footprint
import Chip8.Proofs.Runs

/-! # Counters of the timers

Host, program and ticker all write to the two counters of the timers. Whatever the order in
which they do so, a counter shows the value that was last written to it, less one for every
step that it has taken since, and never less than zero. Nothing matters to a counter but its
own history.
-/

namespace Chip8

inductive Counter where
  | delay
  | sound
  deriving DecidableEq, Repr

def Timers.count (timers : Timers) : Counter → UInt8
  | .delay => timers.delay
  | .sound => timers.sound

/-! ## Histories -/

namespace Counter

/-- The last byte of the opcodes that write a register to a counter. -/
def setter : Counter → Nat
  | .delay => 0x15
  | .sound => 0x18

inductive Event where
  | written (value : UInt8)
  /-- One step towards zero. -/
  | stepped
  deriving DecidableEq, Repr

def Event.value? : Event → Option UInt8
  | .written value => some value
  | .stepped => none

def lastWritten (history : List Event) : UInt8 :=
  (history.reverse.findSome? Event.value?).getD 0

def stepsSince (history : List Event) : Nat :=
  (history.reverse.takeWhile fun event => event.value?.isNone).length

/-- The last value written, less the steps since then; once it is zero it stays so. -/
def due (history : List Event) : Nat :=
  (lastWritten history).toNat - stepsSince history

theorem due_append_written (history : List Event) (value : UInt8) :
    due (history ++ [.written value]) = value.toNat := by
  have written : (Event.written value).value? = some value := rfl
  simp [due, lastWritten, stepsSince, written]

theorem due_append_stepped (history : List Event) :
    due (history ++ [.stepped]) = due history - 1 := by
  have stepped : Event.stepped.value? = none := rfl
  simp [due, lastWritten, stepsSince, stepped, Nat.sub_sub]

end Counter

/-! ## One operation -/

theorem Machine.count_timersAfter (machine : Machine) (opcode : Opcode) (counter : Counter) :
    (machine.timersAfter opcode.instruction).count counter =
      if opcode.kind = 0xF ∧ opcode.value.toNat = counter.setter then
        machine.registers.get opcode.x
      else machine.timers.count counter := by
  split
  · rename_i sets
    cases counter with
    | delay =>
        have decoded : opcode.instruction = .setDelay opcode.x :=
          Opcode.instruction_eq_iff.mpr ⟨sets.1, rfl, sets.2⟩
        rw [decoded]
        rfl
    | sound =>
        have decoded : opcode.instruction = .setSound opcode.x :=
          Opcode.instruction_eq_iff.mpr ⟨sets.1, rfl, sets.2⟩
        rw [decoded]
        rfl
  · rename_i spared
    cases counter with
    | delay => exact delay_timersAfter spared
    | sound => exact sound_timersAfter spared

namespace Console

/-- What an operation means to a counter: the host or a successful FX15 or FX18 writes to
it, and a tick steps it. -/
def counterEvent? (console : Console) (counter : Counter) : Operation → Option Counter.Event
  | .setDelay value => if counter = .delay then some (.written value) else none
  | .setSound value => if counter = .sound then some (.written value) else none
  | .tickDelay => if counter = .delay then some .stepped else none
  | .tickSound => if counter = .sound then some .stepped else none
  | .tick => some .stepped
  | .cycle random =>
      match console.machine.fetch, (console.cycle random).result with
      | .ok opcode, .done =>
          if opcode.kind = 0xF ∧ opcode.value.toNat = counter.setter then
            some (.written (console.machine.registers.get opcode.x))
          else none
      | _, _ => none
  | _ => none

def counterHistory (console : Console) (counter : Counter) :
    List Operation → List Counter.Event
  | [] => []
  | operation :: rest =>
      (console.counterEvent? counter operation).toList ++
        (console.perform operation).console.counterHistory counter rest

/-- What an operation leaves in a counter: a value that is written to it, one less than
before but not less than zero, or what was there. -/
inductive CounterStep (console : Console) (counter : Counter) (operation : Operation) : Prop where
  | written (value : UInt8)
      (event : console.counterEvent? counter operation = some (.written value))
      (left : (console.perform operation).console.machine.timers.count counter = value)
  | stepped (event : console.counterEvent? counter operation = some .stepped)
      (left : (console.perform operation).console.machine.timers.count counter =
        Timers.countDown (console.machine.timers.count counter))
  | kept (event : console.counterEvent? counter operation = none)
      (left : (console.perform operation).console.machine.timers.count counter =
        console.machine.timers.count counter)

theorem counterEvent?_cycle (console : Console) (counter : Counter) (random : UInt8) :
    console.counterEvent? counter (.cycle random) =
      if (console.cycle random).result = .done ∧ console.machine.opcodeAtPc.kind = 0xF ∧
          console.machine.opcodeAtPc.value.toNat = counter.setter then
        some (.written (console.machine.registers.get console.machine.opcodeAtPc.x))
      else none := by
  show (match console.machine.fetch, (console.cycle random).result with
    | .ok opcode, .done =>
        if opcode.kind = 0xF ∧ opcode.value.toNat = counter.setter then
          some (Counter.Event.written (console.machine.registers.get opcode.x))
        else none
    | _, _ => none) = _
  by_cases done : (console.cycle random).result = .done
  · obtain ⟨-, inside, -⟩ := cycle_done_iff.mp done
    simp only [Machine.fetch_eq_ok inside, done, true_and]
  · rw [if_neg fun succeeds => done succeeds.1]
    split
    · exact absurd ‹_› done
    · rfl

theorem timers_cycle_of_not_done {console : Console} {random : UInt8}
    (failed : (console.cycle random).result ≠ .done) :
    (console.cycle random).console.machine.timers = console.machine.timers := by
  obtain ⟨pc, fault, left⟩ := machine_cycle_of_not_done failed
  rw [left]

theorem cycle_counterStep (console : Console) (counter : Counter) (random : UInt8) :
    console.CounterStep counter (.cycle random) := by
  have event := console.counterEvent?_cycle counter random
  by_cases done : (console.cycle random).result = .done
  · obtain ⟨running, inside, fits⟩ := cycle_done_iff.mp done
    have left := console.machine.advance.count_timersAfter console.machine.opcodeAtPc counter
    rw [← (Machine.execute_spec fits random).timers,
      ← machine_cycle_of_fits running inside fits random] at left
    by_cases sets : console.machine.opcodeAtPc.kind = 0xF ∧
        console.machine.opcodeAtPc.value.toNat = counter.setter
    · rw [if_pos ⟨done, sets⟩] at event
      rw [if_pos sets] at left
      exact .written _ event left
    · rw [if_neg fun both => sets both.2] at event
      rw [if_neg sets] at left
      exact .kept event left
  · rw [if_neg fun both => done both.1] at event
    exact .kept event (congrArg (Timers.count · counter) (timers_cycle_of_not_done done))

theorem counterStep (console : Console) (counter : Counter) (operation : Operation) :
    console.CounterStep counter operation := by
  cases operation with
  | cycle random => exact console.cycle_counterStep counter random
  | load program =>
      refine .kept rfl ?_
      rw [perform, load_rest]
  | setPin pin value =>
      refine .kept rfl ?_
      simp only [perform, setPin]
      split <;> rfl
  | setDelay value =>
      cases counter with
      | delay => exact .written value rfl rfl
      | sound => exact .kept rfl rfl
  | setSound value =>
      cases counter with
      | delay => exact .kept rfl rfl
      | sound => exact .written value rfl rfl
  | tickDelay =>
      cases counter with
      | delay => exact .stepped rfl rfl
      | sound => exact .kept rfl rfl
  | tickSound =>
      cases counter with
      | delay => exact .kept rfl rfl
      | sound => exact .stepped rfl rfl
  | tick => cases counter <;> exact .stepped rfl rfl
  | resetPins | attach | dropReceiver _ | stopTimers => exact .kept rfl rfl

/-! ## Runs -/

/-- A counter that shows what its history demands still does so after more operations. -/
theorem count_after {console : Console} {counter : Counter} {past : List Counter.Event}
    (shown : (console.machine.timers.count counter).toNat = Counter.due past)
    (operations : List Operation) :
    ((console.after operations).machine.timers.count counter).toNat =
      Counter.due (past ++ console.counterHistory counter operations) := by
  induction operations generalizing console past with
  | nil =>
      rw [counterHistory, List.append_nil]
      exact shown
  | cons operation rest ih =>
      rw [counterHistory, ← List.append_assoc]
      apply ih
      cases console.counterStep counter operation with
      | written value event left =>
          rw [left, event, Option.toList_some, Counter.due_append_written]
      | stepped event left =>
          rw [left, event, Option.toList_some, Counter.due_append_stepped, ← shown]
          exact Timers.toNat_countDown _
      | kept event left =>
          rw [left, event, Option.toList_none, List.append_nil]
          exact shown

/-- Nothing but a writing raises a counter; in particular no step leads away from zero. -/
theorem count_le_of_unwritten {console : Console} {counter : Counter} {operation : Operation}
    (unwritten : ∀ value, console.counterEvent? counter operation ≠ some (.written value)) :
    (console.perform operation).console.machine.timers.count counter ≤
      console.machine.timers.count counter := by
  cases console.counterStep counter operation with
  | written value event left => exact absurd event (unwritten value)
  | stepped event left =>
      rw [left, UInt8.le_iff_toNat_le, Timers.toNat_countDown]
      exact Nat.sub_le _ _
  | kept event left =>
      rw [left]
      exact UInt8.le_refl _

/-- A cycle on FX07 succeeds and loads the delay counter. -/
theorem cycle_of_getDelay {console : Console} {opcode : Opcode}
    (running : console.machine.fault = none) (fetched : console.machine.fetch = .ok opcode)
    (kind : opcode.kind = 0xF) (byte : opcode.value.toNat = 0x07) (random : UInt8) :
    (console.cycle random).result = .done ∧
      (console.cycle random).console.machine.registers.get opcode.x =
        console.machine.timers.delay := by
  obtain ⟨inside, rfl⟩ := Machine.fetch_eq_ok_iff.mp fetched
  have decoded : console.machine.opcodeAtPc.instruction = .getDelay console.machine.opcodeAtPc.x :=
    Opcode.instruction_eq_iff.mpr ⟨kind, rfl, byte⟩
  have fits : console.machine.advance.Fits console.machine.opcodeAtPc.instruction := by
    rw [decoded]
    exact Machine.fits_of_no_reach rfl
  refine ⟨cycle_done_iff.mpr ⟨running, inside, fits⟩, ?_⟩
  rw [machine_cycle_of_fits running inside fits, (Machine.execute_spec fits random).registers,
    decoded, Machine.registersAfter, Registers.get_set, if_pos rfl]
  rfl

end Console

theorem Constructed.timers {start : Report} (constructed : Constructed start) :
    start.console.machine.timers = .zero := by
  rw [constructed.rest]
  rfl

/-- In every run each counter shows the value that was last written to it, by the host or by
the program, less the steps since then and at least zero, where only its own history counts.
A step never leads from zero to the largest value, and FX07 loads what the delay counter is
due to show at that moment. -/
theorem counters_follow_their_history {start : Report} (constructed : Constructed start)
    (operations : List Operation) :
    let console := start.console.after operations
    (∀ counter, (console.machine.timers.count counter).toNat =
      Counter.due (start.console.counterHistory counter operations)) ∧
    (∀ counter operation,
      (∀ value, console.counterEvent? counter operation ≠ some (.written value)) →
      (console.perform operation).console.machine.timers.count counter ≤
        console.machine.timers.count counter) ∧
    ∀ opcode random, console.machine.fault = none → console.machine.fetch = .ok opcode →
      opcode.kind = 0xF → opcode.value.toNat = 0x07 →
      (console.cycle random).result = .done ∧
        ((console.cycle random).console.machine.registers.get opcode.x).toNat =
          Counter.due (start.console.counterHistory .delay operations) := by
  intro console
  have shown : ∀ counter, (console.machine.timers.count counter).toNat =
      Counter.due (start.console.counterHistory counter operations) := by
    intro counter
    have zero : (start.console.machine.timers.count counter).toNat = Counter.due [] := by
      rw [constructed.timers]
      cases counter <;> rfl
    exact Console.count_after zero operations
  refine ⟨shown, fun counter operation => Console.count_le_of_unwritten, ?_⟩
  intro opcode random running fetched kind byte
  obtain ⟨done, loaded⟩ := Console.cycle_of_getDelay running fetched kind byte random
  refine ⟨done, ?_⟩
  rw [loaded]
  exact shown .delay

def settingAndReading : Report :=
  Console.create.load [0x60, 0x05, 0xF0, 0x15, 0xF1, 0x07]

/-- More steps of the sound counter than it can take, among the first two cycles. -/
def mixedSteps : List Operation :=
  [.setSound 1, .cycle 0, .cycle 0, .tickDelay, .tick, .tickSound]

theorem counters_after_mixed_steps :
    Constructed settingAndReading ∧
    ((settingAndReading.console.after mixedSteps).machine.timers.count .delay).toNat =
      Counter.due [.written 5, .stepped, .stepped] ∧
    ((settingAndReading.console.after mixedSteps).machine.timers.count .sound).toNat =
      Counter.due [.written 1, .stepped, .stepped] ∧
    (((settingAndReading.console.after mixedSteps).cycle 0).console.machine.registers.get
      1).toNat = 3 := by
  have constructed : Constructed settingAndReading :=
    .withProgram _ _ (Console.withProgram_of_fits (by decide))
  have histories :
      settingAndReading.console.counterHistory .delay mixedSteps =
          [.written 5, .stepped, .stepped] ∧
        settingAndReading.console.counterHistory .sound mixedSteps =
          [.written 1, .stepped, .stepped] := by
    decide +kernel
  have reading :
      (settingAndReading.console.after mixedSteps).machine.fault = none ∧
        (settingAndReading.console.after mixedSteps).machine.pc.toNat + 2 ≤ 4096 ∧
        (settingAndReading.console.after mixedSteps).machine.opcodeAtPc = ⟨0xF, 1, 0, 7⟩ := by
    decide +kernel
  obtain ⟨shown, -, reads⟩ := counters_follow_their_history constructed mixedSteps
  obtain ⟨-, loaded⟩ := reads ⟨0xF, 1, 0, 7⟩ 0 reading.1
    (Machine.fetch_eq_ok_iff.mpr reading.2) rfl rfl
  rw [histories.1] at loaded
  refine ⟨constructed, ?_, ?_, loaded⟩
  · rw [shown, histories.1]
  · rw [shown, histories.2]

end Chip8
