import Chip8.Proofs.Runs

/-! # Independence of the receivers

A machine draws without knowing whether anybody looks. Two consoles that agree in all but
the sink go through the same states and give the same results, so receivers that come and
go in a run are seen nowhere but in the frames that they take and in the warnings about
their loss.
-/

namespace Chip8

/-! ## Consoles without their sink -/

def Console.unplugged (console : Console) : Console :=
  { console with sink := none, attached := 0 }

/-- A report without the sink, the frame that was handed over and the warning about a
receiver that is gone. -/
def Report.unplugged (report : Report) : Report where
  console := report.console.unplugged
  result := report.result
  notices := report.notices.filter fun notice => notice ≠ .receiverGone
  delivered := none

def Operation.isPlug : Operation → Bool
  | .attach | .dropReceiver _ => true
  | _ => false

namespace Console

/-! ## One operation -/

theorem unplugged_of_isPlug {operation : Operation} (isPlug : operation.isPlug = true)
    (console : Console) : (console.perform operation).console.unplugged = console.unplugged := by
  cases operation with
  | attach | dropReceiver _ => rfl
  | _ => cases isPlug

theorem emit_unplugged (console : Console) (notices : List Notice) :
    (console.emit notices).unplugged = (console.unplugged.emit notices).unplugged := by
  obtain ⟨machine, sink, attached, ticker⟩ := console
  rcases sink with _ | ⟨receiver, _ | _⟩
  · rfl
  · -- The only trace of a receiver that is gone is a warning, which is left out.
    simp [emit, unplugged, Report.unplugged, List.filter_append]
  · rfl

theorem proceed_unplugged (console : Console) (effect : Effect) :
    (console.proceed effect).unplugged = (console.unplugged.proceed effect).unplugged := by
  obtain ⟨machine, fault, notices, drew⟩ := effect
  cases drew with
  | false => cases fault <;> rfl
  | true =>
      have emitted := emit_unplugged { console with machine := machine } notices
      cases fault with
      | none => exact emitted
      | some fault =>
          exact congrArg (fun report : Report => { report with result := .failed fault }) emitted

theorem perform_unplugged {operation : Operation} (shared : operation.isPlug = false)
    (console : Console) :
    (console.perform operation).unplugged = (console.unplugged.perform operation).unplugged := by
  cases operation with
  | cycle random => exact console.proceed_unplugged (console.machine.cycle random)
  | load program =>
      show (console.load program).unplugged = (console.unplugged.load program).unplugged
      by_cases fits : program.length ≤ Layout.programCapacity
      · rw [load_of_fits _ fits, load_of_fits _ fits]
        rfl
      · rw [load_of_large _ fits, load_of_large _ fits]
        rfl
  | setPin pin value =>
      have same : console.unplugged.machine.keypad = console.machine.keypad := rfl
      show (console.setPin pin value).unplugged = (console.unplugged.setPin pin value).unplugged
      rw [setPin, setPin, same]
      cases console.machine.keypad.set pin value <;> rfl
  | attach | dropReceiver _ => cases shared
  | _ => rfl

theorem perform_of_alike_unplugged {first second : Console} {operation : Operation}
    (alike : first.unplugged = second.unplugged) (shared : operation.isPlug = false) :
    (first.perform operation).unplugged = (second.perform operation).unplugged := by
  rw [perform_unplugged shared first, alike, ← perform_unplugged shared second]

/-! ## Runs -/

/-- What a run shows to those who take no frames: the reports of all operations but those
on receivers, with the sink left out. -/
def unpluggedReports (console : Console) : List Operation → List Report
  | [] => []
  | operation :: rest =>
      let report := console.perform operation
      if operation.isPlug then
        report.console.unpluggedReports rest
      else
        report.unplugged :: report.console.unpluggedReports rest

/-- A run is as it would be if no receiver had ever come or gone. -/
theorem run_without_receivers {first second : Console} (alike : first.unplugged = second.unplugged)
    (operations : List Operation) :
    let shared := operations.filter fun operation => !operation.isPlug
    first.unpluggedReports operations = second.unpluggedReports shared ∧
      (first.after operations).unplugged = (second.after shared).unplugged := by
  induction operations generalizing first second with
  | nil => exact ⟨rfl, alike⟩
  | cons operation rest ih =>
      cases isPlug : operation.isPlug with
      | true =>
          have still := (unplugged_of_isPlug isPlug first).trans alike
          simpa [unpluggedReports, after, isPlug] using ih still
      | false =>
          have report := perform_of_alike_unplugged alike isPlug
          have later := ih (congrArg Report.console report)
          simpa [unpluggedReports, after, isPlug, report] using later

/-- Two runs from one state that differ only in the receivers that come and go report the
same of every other operation, and leave the same machine behind. -/
theorem receivers_change_nothing {console : Console} {first second : List Operation}
    (same : (first.filter fun operation => !operation.isPlug) =
      second.filter fun operation => !operation.isPlug) :
    console.unpluggedReports first = console.unpluggedReports second ∧
      (console.after first).unplugged = (console.after second).unplugged := by
  have alike : console.unplugged = console.unplugged := rfl
  obtain ⟨reports, final⟩ := run_without_receivers alike first
  obtain ⟨reports', final'⟩ := run_without_receivers alike second
  rw [same] at reports final
  exact ⟨reports.trans reports'.symm, final.trans final'.symm⟩

def drawingThenFailing : Console :=
  { create with
    machine := { Machine.fresh with
      memory := Memory.blank.store 0 [0xD0, 0x13, 0xAF, 0xFF, 0xD0, 0x12]
      pc := 0
      index := 0x050 } }

theorem lost_receivers_change_nothing :
    drawingThenFailing.unpluggedReports
        [.attach, .dropReceiver 0, .cycle 0, .attach, .cycle 0, .tick, .cycle 0] =
      drawingThenFailing.unpluggedReports [.cycle 0, .cycle 0, .attach, .tick, .cycle 0] ∧
    (drawingThenFailing.after
        [.attach, .dropReceiver 0, .cycle 0, .attach, .cycle 0, .tick, .cycle 0]).unplugged =
      (drawingThenFailing.after [.cycle 0, .cycle 0, .attach, .tick, .cycle 0]).unplugged := by
  have same : ([.attach, .dropReceiver 0, .cycle 0, .attach, .cycle 0, .tick, .cycle 0] :
        List Operation).filter (fun operation => !operation.isPlug) =
      ([.cycle 0, .cycle 0, .attach, .tick, .cycle 0] : List Operation).filter
        fun operation => !operation.isPlug := rfl
  exact receivers_change_nothing same

end Console

end Chip8
