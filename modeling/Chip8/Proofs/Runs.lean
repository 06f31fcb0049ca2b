import Chip8.Proofs.Cycle

/-! # Runs of a console

A run starts with the construction of a console and goes on with operations of the
host in any order. Among the operations only the cycle touches what the program has
computed; all others leave it frozen. Invariants of single operations are carried
over whole runs here, once.
-/

namespace Chip8

/-- The report of making a console, with or without a program in it. -/
inductive Constructed : Report → Prop where
  | create : Constructed (Console.quiet .create)
  | withProgram (program : List UInt8) (report : Report)
      (accepted : Console.withProgram program = .ok report) : Constructed report

def Report.log (start : Report) (operations : List Operation) : List Notice :=
  start.notices ++ (start.console.reports operations).flatMap Report.notices

def errors (notices : List Notice) : List Notice :=
  notices.filter fun notice => notice.level = .error

theorem errors_append (first second : List Notice) :
    errors (first ++ second) = errors first ++ errors second :=
  List.filter_append first second

theorem errors_eq_nil {notices : List Notice}
    (milder : ∀ notice ∈ notices, notice.level ≠ .error) : errors notices = [] := by
  apply List.filter_eq_nil_iff.mpr
  intro notice noticed
  simpa using milder notice noticed

/-! ## What the host leaves alone -/

/-- Two states agree in all that only instructions change. -/
structure Machine.Frozen (before after : Machine) : Prop where
  pc : after.pc = before.pc
  registers : after.registers = before.registers
  index : after.index = before.index
  stack : after.stack = before.stack
  display : after.display = before.display
  fault : after.fault = before.fault

theorem Machine.Frozen.refl (machine : Machine) : machine.Frozen machine :=
  ⟨rfl, rfl, rfl, rfl, rfl, rfl⟩

theorem Machine.Frozen.trans {first second third : Machine} (early : first.Frozen second)
    (late : second.Frozen third) : first.Frozen third where
  pc := late.pc.trans early.pc
  registers := late.registers.trans early.registers
  index := late.index.trans early.index
  stack := late.stack.trans early.stack
  display := late.display.trans early.display
  fault := late.fault.trans early.fault

namespace Console

theorem load_of_fits (console : Console) {program : List UInt8}
    (fits : program.length ≤ Layout.programCapacity) :
    console.load program =
      ⟨{ console with
          machine.memory := console.machine.memory.store Layout.programStart program },
        .loaded program.length, [.loaded program.length], none⟩ := by
  unfold load Machine.load
  simp only [if_pos fits]

theorem load_of_large (console : Console) {program : List UInt8}
    (large : ¬ program.length ≤ Layout.programCapacity) :
    console.load program =
      ⟨console, .refused (.tooLarge program.length Layout.programCapacity), [], none⟩ := by
  unfold load Machine.load
  simp only [if_neg large]

/-- A load touches memory alone. -/
theorem load_rest (console : Console) (program : List UInt8) :
    (console.load program).console =
      { console with machine.memory := (console.load program).console.machine.memory } := by
  by_cases fits : program.length ≤ Layout.programCapacity
  · rw [console.load_of_fits fits]
  · rw [console.load_of_large fits]

theorem load_frozen (console : Console) (program : List UInt8) :
    console.machine.Frozen (console.load program).console.machine ∧
      errors (console.load program).notices = [] := by
  by_cases fits : program.length ≤ Layout.programCapacity
  · rw [console.load_of_fits fits]
    exact ⟨⟨rfl, rfl, rfl, rfl, rfl, rfl⟩, rfl⟩
  · rw [console.load_of_large fits]
    exact ⟨.refl console.machine, rfl⟩

theorem setPin_frozen (console : Console) (pin : UInt8) (value : Bool) :
    console.machine.Frozen (console.setPin pin value).console.machine ∧
      errors (console.setPin pin value).notices = [] := by
  unfold setPin
  split
  · exact ⟨⟨rfl, rfl, rfl, rfl, rfl, rfl⟩, rfl⟩
  · exact ⟨.refl console.machine, rfl⟩

/-- Every operation but the cycle leaves alone what the program has computed. -/
theorem cycle_or_frozen (console : Console) (operation : Operation) :
    (∃ random, operation = .cycle random) ∨
      console.machine.Frozen (console.perform operation).console.machine ∧
        errors (console.perform operation).notices = [] := by
  cases operation with
  | cycle random => exact Or.inl ⟨random, rfl⟩
  | load program => exact Or.inr (console.load_frozen program)
  | setPin pin value => exact Or.inr (console.setPin_frozen pin value)
  | _ => exact Or.inr ⟨⟨rfl, rfl, rfl, rfl, rfl, rfl⟩, rfl⟩

theorem withProgram_eq_ok {program : List UInt8} {report : Report}
    (accepted : withProgram program = .ok report) : report = create.load program := by
  simp only [withProgram] at accepted
  split at accepted
  · cases accepted
  · exact (Except.ok.inj accepted).symm

theorem withProgram_of_fits {program : List UInt8}
    (fits : program.length ≤ Layout.programCapacity) :
    withProgram program = .ok (create.load program) := by
  have loaded : (create.load program).result = .loaded program.length := by
    rw [create.load_of_fits fits]
  simp only [withProgram, loaded]

/-! ## Induction over operations -/

theorem after_append (console : Console) (first second : List Operation) :
    console.after (first ++ second) = (console.after first).after second :=
  List.foldl_append

theorem reports_append (console : Console) (first second : List Operation) :
    console.reports (first ++ second) =
      console.reports first ++ (console.after first).reports second := by
  induction first generalizing console with
  | nil => rfl
  | cons operation rest ih =>
      have later := ih (console.perform operation).console
      simp only [List.cons_append, reports]
      rw [later]
      rfl

/-- What holds at first and survives every operation holds after all of them. -/
theorem after_induction {P : Console → Prop}
    (step : ∀ console operation, P console → P (console.perform operation).console)
    {console : Console} (first : P console) (operations : List Operation) :
    P (console.after operations) := by
  induction operations generalizing console with
  | nil => exact first
  | cons operation rest ih => exact ih (step console operation first)

/-! ## The cycles of a run -/

/-- Every cycle of a run, with the console that it finds, is as stated. -/
def EveryCycle (P : Console → UInt8 → Prop) (console : Console) (operations : List Operation) :
    Prop :=
  ∀ earlier random later, operations = earlier ++ .cycle random :: later →
    P (console.after earlier) random

variable {P : Console → UInt8 → Prop} {console : Console}

theorem everyCycle_nil : console.EveryCycle P [] := by
  intro earlier random later split
  cases earlier <;> cases split

theorem everyCycle_cons {operation : Operation} {rest : List Operation} :
    console.EveryCycle P (operation :: rest) ↔
      (∀ random, operation = .cycle random → P console random) ∧
        (console.perform operation).console.EveryCycle P rest := by
  constructor
  · intro every
    constructor
    · rintro random rfl
      exact every [] random rest rfl
    · rintro earlier random later rfl
      exact every (operation :: earlier) random later rfl
  · rintro ⟨first, every⟩ earlier random later split
    cases earlier with
    | nil =>
        cases split
        exact first random rfl
    | cons _ earlier =>
        cases split
        exact every earlier random later rfl

theorem everyCycle_append {first second : List Operation} :
    console.EveryCycle P (first ++ second) ↔
      console.EveryCycle P first ∧ (console.after first).EveryCycle P second := by
  induction first generalizing console with
  | nil => exact ⟨fun every => ⟨everyCycle_nil, every⟩, fun both => both.2⟩
  | cons operation rest ih =>
      have left : console.after (operation :: rest) =
          (console.perform operation).console.after rest := rfl
      rw [List.cons_append, everyCycle_cons, everyCycle_cons, ih, left, and_assoc]

end Console

/-- A constructed console is a new one, up to what is in memory. -/
theorem Constructed.rest {start : Report} (constructed : Constructed start) :
    start.console =
      { Console.create with machine.memory := start.console.machine.memory } := by
  cases constructed with
  | create => rfl
  | withProgram program report accepted =>
      rw [Console.withProgram_eq_ok accepted]
      exact Console.create.load_rest program

/-- A constructed console holds a fresh machine, up to what is in memory. -/
theorem Constructed.frozen {start : Report} (constructed : Constructed start) :
    Machine.fresh.Frozen start.console.machine ∧ errors start.notices = [] := by
  cases constructed with
  | create => exact ⟨.refl _, rfl⟩
  | withProgram program report accepted =>
      rw [Console.withProgram_eq_ok accepted]
      exact Console.create.load_frozen program

end Chip8
