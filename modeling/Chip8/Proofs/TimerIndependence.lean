import Chip8.Proofs.Decoding
import Chip8.Proofs.Runs

/-! # Independence of the timers

Only the instruction FX07 reads a timer. Two states that agree in all but the timers and
their ticker are told apart by nothing else, so what happens to the timers in a run that
never executes that instruction is seen nowhere but in the timers.
-/

namespace Chip8

/-! ## States without their timers -/

def Machine.untimed (machine : Machine) : Machine :=
  { machine with timers := .zero }

def Effect.untimed (effect : Effect) : Effect :=
  { effect with machine := effect.machine.untimed }

def Console.untimed (console : Console) : Console :=
  { console with machine := console.machine.untimed, ticker := .spawn }

def Report.untimed (report : Report) : Report :=
  { report with console := report.console.untimed }

namespace Machine

theorem withSpan_untimed {machine : Machine} {size : Nat} {next next' : Span → Effect}
    (alike : ∀ span, (next span).untimed = (next' span).untimed) :
    (machine.withSpan size next).untimed = (machine.untimed.withSpan size next').untimed := by
  have same : machine.untimed.index = machine.index := rfl
  unfold withSpan
  rw [same]
  cases Span.check machine.index size with
  | ok span => exact alike span
  | error fault => rfl

theorem execute_untimed {instruction : Instruction} (machine : Machine) (random : UInt8)
    (unread : ∀ x, instruction ≠ .getDelay x) :
    (machine.execute random instruction).untimed =
      (machine.untimed.execute random instruction).untimed := by
  cases instruction with
  | getDelay x => exact absurd rfl (unread x)
  | draw x y n | decimal x | save x | restore x => exact withSpan_untimed fun _ => rfl
  | skipIfValue x nn | skipUnlessValue x nn | skipIfSame x y | skipUnlessSame x y
  | skipIfPin x | skipUnlessPin x =>
      simp only [execute, skipIf_eq]
      rfl
  | jumpOffset nnn =>
      have same : machine.untimed.registers = machine.registers := rfl
      simp only [execute, same]
      split <;> rfl
  | awaitPin x =>
      have same : machine.untimed.keypad = machine.keypad := rfl
      simp only [execute, same]
      cases machine.keypad.lowest? <;> rfl
  | _ => rfl

def readsDelay (machine : Machine) : Bool :=
  match machine.fault, machine.fetch with
  | none, .ok opcode => opcode.kind == 0xF && opcode.value == 0x07
  | _, _ => false

theorem not_getDelay_of_unread {machine : Machine} {opcode : Opcode}
    (running : machine.fault = none) (fetched : machine.fetch = .ok opcode)
    (unread : machine.readsDelay = false) (x : Nibble) : opcode.instruction ≠ .getDelay x := by
  intro decoded
  obtain ⟨kind, _, byte⟩ := Opcode.instruction_eq_iff.mp decoded
  have value : opcode.value = 0x07 := UInt8.toNat_inj.mp byte
  simp [readsDelay, running, fetched, kind, value] at unread

end Machine

theorem Effect.haltedAt_untimed (effect : Effect) (pc : UInt16) :
    (effect.haltedAt pc).untimed = effect.untimed.haltedAt pc := by
  obtain ⟨machine, fault, notices, drew⟩ := effect
  cases fault <;> rfl

namespace Machine

theorem attempt_untimed {machine : Machine} (running : machine.fault = none)
    (unread : machine.readsDelay = false) (random : UInt8) :
    (machine.attempt random).untimed = (machine.untimed.attempt random).untimed := by
  have same : machine.untimed.fetch = machine.fetch := rfl
  rw [attempt, attempt, same]
  cases fetched : machine.fetch with
  | error fault => rfl
  | ok opcode =>
      have executed := machine.advance.execute_untimed random
        (not_getDelay_of_unread running fetched unread)
      simp only [perform_eq_execute]
      exact congrArg (Effect.noting · (.fetched machine.pc opcode.word)) executed

theorem cycle_untimed {machine : Machine} (unread : machine.readsDelay = false)
    (random : UInt8) :
    (machine.cycle random).untimed = (machine.untimed.cycle random).untimed := by
  have same : machine.untimed.fault = machine.fault := rfl
  rw [cycle, cycle, same]
  cases stored : machine.fault with
  | some fault => rfl
  | none =>
      have attempted := attempt_untimed stored unread random
      simp only [Effect.haltedAt_untimed]
      rw [attempted]
      rfl

end Machine

/-! ## One operation -/

def Operation.isTimer : Operation → Bool
  | .setDelay _ | .setSound _ | .tickDelay | .tickSound | .tick | .stopTimers => true
  | _ => false

namespace Console

theorem untimed_of_isTimer {operation : Operation} (isTimer : operation.isTimer = true)
    (console : Console) : (console.perform operation).console.untimed = console.untimed := by
  cases operation with
  | setDelay _ | setSound _ | tickDelay | tickSound | tick | stopTimers => rfl
  | _ => cases isTimer

theorem proceed_untimed (console : Console) (effect : Effect) :
    (console.proceed effect).untimed = console.untimed.proceed effect.untimed := by
  obtain ⟨machine, fault, notices, drew⟩ := effect
  obtain ⟨_, sink, attached, ticker⟩ := console
  rcases sink with _ | ⟨receiver, _ | _⟩ <;> cases drew <;> cases fault <;> rfl

def readsDelay (console : Console) : Operation → Bool
  | .cycle _ => console.machine.readsDelay
  | _ => false

theorem readsDelay_of_isTimer {operation : Operation} (isTimer : operation.isTimer = true)
    (console : Console) : console.readsDelay operation = false := by
  cases operation with
  | cycle random => cases isTimer
  | _ => rfl

theorem perform_untimed {console : Console} {operation : Operation}
    (shared : operation.isTimer = false) (unread : console.readsDelay operation = false) :
    (console.perform operation).untimed = (console.untimed.perform operation).untimed := by
  cases operation with
  | cycle random =>
      have turn := Machine.cycle_untimed unread random
      show (console.proceed _).untimed = (console.untimed.proceed _).untimed
      rw [proceed_untimed, proceed_untimed, turn]
      rfl
  | load program =>
      show (console.load program).untimed = (console.untimed.load program).untimed
      by_cases fits : program.length ≤ Layout.programCapacity
      · rw [load_of_fits _ fits, load_of_fits _ fits]
        rfl
      · rw [load_of_large _ fits, load_of_large _ fits]
        rfl
  | setPin pin value =>
      have same : console.untimed.machine.keypad = console.machine.keypad := rfl
      show (console.setPin pin value).untimed = (console.untimed.setPin pin value).untimed
      rw [setPin, setPin, same]
      cases console.machine.keypad.set pin value <;> rfl
  | resetPins | attach | dropReceiver _ => rfl
  | setDelay _ | setSound _ | tickDelay | tickSound | tick | stopTimers => cases shared

theorem readsDelay_of_alike {first second : Console} (alike : first.untimed = second.untimed)
    (operation : Operation) : first.readsDelay operation = second.readsDelay operation := by
  have erased (console : Console) :
      console.untimed.readsDelay operation = console.readsDelay operation := by
    cases operation <;> rfl
  rw [← erased first, alike, erased second]

theorem perform_of_alike {first second : Console} {operation : Operation}
    (alike : first.untimed = second.untimed) (shared : operation.isTimer = false)
    (unread : first.readsDelay operation = false) :
    (first.perform operation).untimed = (second.perform operation).untimed := by
  have unread' := (readsDelay_of_alike alike operation).symm.trans unread
  rw [perform_untimed shared unread, alike, perform_untimed shared unread']

/-! ## Runs -/

def everReadsDelay (console : Console) : List Operation → Bool
  | [] => false
  | operation :: rest =>
      console.readsDelay operation || (console.perform operation).console.everReadsDelay rest

/-- What a run shows to those who do not look at the timers: the reports of all operations
but those on the timers, with the timers left out. -/
def observed (console : Console) : List Operation → List Report
  | [] => []
  | operation :: rest =>
      let report := console.perform operation
      if operation.isTimer then
        report.console.observed rest
      else
        report.untimed :: report.console.observed rest

/-- A run is as it would be without its operations on the timers. -/
theorem run_without_timers {first second : Console} (alike : first.untimed = second.untimed)
    (operations : List Operation) :
    let shared := operations.filter fun operation => !operation.isTimer
    first.everReadsDelay operations = second.everReadsDelay shared ∧
      (first.everReadsDelay operations = false →
        first.observed operations = second.observed shared) := by
  induction operations generalizing first second with
  | nil => exact ⟨rfl, fun _ => rfl⟩
  | cons operation rest ih =>
      cases isTimer : operation.isTimer with
      | true =>
          have still := (untimed_of_isTimer isTimer first).trans alike
          have unread := readsDelay_of_isTimer isTimer first
          simpa [everReadsDelay, observed, isTimer, unread] using ih still
      | false =>
          have same := readsDelay_of_alike alike operation
          cases read : first.readsDelay operation with
          | true => simp [everReadsDelay, isTimer, ← same, read]
          | false =>
              have report := perform_of_alike alike isTimer read
              have later := ih (congrArg Report.console report)
              simpa [everReadsDelay, observed, isTimer, ← same, read, report] using later

/-- Two runs from one state that differ only in what happens to the timers look alike in
everything else, as long as the first of them never executes an instruction FX07. -/
theorem timers_matter_only_if_read {console : Console} {first second : List Operation}
    (same : (first.filter fun operation => !operation.isTimer) =
      second.filter fun operation => !operation.isTimer)
    (unread : console.everReadsDelay first = false) :
    console.observed first = console.observed second ∧
      console.everReadsDelay second = false := by
  have alike : console.untimed = console.untimed := rfl
  obtain ⟨reads, looks⟩ := run_without_timers alike first
  obtain ⟨reads', looks'⟩ := run_without_timers alike second
  rw [same] at reads looks
  have unread' : console.everReadsDelay second = false := (reads'.trans reads.symm).trans unread
  exact ⟨(looks unread).trans (looks' unread').symm, unread'⟩

def settingDelay : Console :=
  { create with
    machine := { Machine.fresh with
      memory := Memory.blank.store 0 [0x60, 0x05, 0xF0, 0x15, 0xC1, 0xFF]
      pc := 0 } }

theorem ticks_go_unnoticed :
    settingDelay.everReadsDelay [.cycle 0, .tick, .cycle 0, .setSound 3, .cycle 7] = false ∧
    settingDelay.observed [.cycle 0, .tick, .cycle 0, .setSound 3, .cycle 7] =
      settingDelay.observed [.setDelay 9, .cycle 0, .cycle 0, .stopTimers, .cycle 7] := by
  have unread :
      settingDelay.everReadsDelay [.cycle 0, .tick, .cycle 0, .setSound 3, .cycle 7] = false := by
    decide +kernel
  have same : ([.cycle 0, .tick, .cycle 0, .setSound 3, .cycle 7] : List Operation).filter
      (fun operation => !operation.isTimer) =
        ([.setDelay 9, .cycle 0, .cycle 0, .stopTimers, .cycle 7] : List Operation).filter
          fun operation => !operation.isTimer := rfl
  exact ⟨unread, (timers_matter_only_if_read same unread).1⟩

end Console

end Chip8
