import Chip8.Proofs.Sprites

/-! # Sequences of draws

A stamp points the index to a sprite and draws it. Stamps in sequence invert every pixel as
often as they set it, so their order does not matter and a second time undoes the first.
What keeps this simple is that a stamp takes its place from registers other than the flag
register: then no stamp moves another one.
-/

namespace Chip8

/-! ## Stamps -/

namespace Opcode

def ofAddress (kind : Nibble) (address : Address) : Opcode where
  kind := kind
  x := ⟨address.val / 256, Nat.div_lt_of_lt_mul address.isLt⟩
  y := ⟨address.val / 16 % 16, Nat.mod_lt (address.val / 16) (by decide)⟩
  n := ⟨address.val % 16, Nat.mod_lt address.val (by decide)⟩

@[simp] theorem address_ofAddress (kind : Nibble) (address : Address) :
    (ofAddress kind address).address = address := by
  apply Fin.ext
  simp only [Opcode.address, ofAddress]
  omega

end Opcode

/-- Two instructions that draw a sprite in memory, at a place that no flag can move. -/
structure Stamp where
  address : Address
  x : Nibble
  y : Nibble
  n : Nibble
  fits : address.val + n.val ≤ 4096
  plain_x : x ≠ Layout.flagRegister
  plain_y : y ≠ Layout.flagRegister
  deriving DecidableEq

namespace Stamp

def opcodes (stamp : Stamp) : List Opcode :=
  [.ofAddress 0xA stamp.address, ⟨0xD, stamp.x, stamp.y, stamp.n⟩]

def pointed (stamp : Stamp) (machine : Machine) : Machine :=
  { machine with index := stamp.address.word }

@[simp] theorem display_pointed (stamp : Stamp) (machine : Machine) :
    (stamp.pointed machine).display = machine.display :=
  rfl

def Sets (stamp : Stamp) (machine : Machine) (cell : Cell) : Prop :=
  (stamp.pointed machine).Sets stamp.x stamp.y stamp.n cell

instance (stamp : Stamp) (machine : Machine) (cell : Cell) : Decidable (stamp.Sets machine cell) :=
  inferInstanceAs (Decidable ((stamp.pointed machine).Sets _ _ _ cell))

/-- Only memory and the registers but the flag register tell what a stamp sets. -/
theorem sets_congr {stamp : Stamp} {left right : Machine} (memory : left.memory = right.memory)
    (registers : ∀ r, r ≠ Layout.flagRegister → left.registers.get r = right.registers.get r)
    (cell : Cell) : stamp.Sets left cell ↔ stamp.Sets right cell := by
  simp only [Sets, Machine.Sets, pointed, memory, registers _ stamp.plain_x,
    registers _ stamp.plain_y]

end Stamp

namespace Console

variable (console : Console) (random : UInt8)

def executions (console : Console) (random : UInt8) : List Opcode → List Report
  | [] => []
  | opcode :: rest =>
      let report := console.execute opcode random
      report :: report.console.executions random rest

def executeAll (opcodes : List Opcode) : Console :=
  opcodes.foldl (fun current opcode => (current.execute opcode random).console) console

theorem executeAll_append (first second : List Opcode) :
    console.executeAll random (first ++ second) =
      (console.executeAll random first).executeAll random second :=
  List.foldl_append

theorem executeAll_cons (opcode : Opcode) (rest : List Opcode) :
    console.executeAll random (opcode :: rest) =
      (console.execute opcode random).console.executeAll random rest :=
  rfl

/-! ## One stamp -/

theorem execute_pointing (stamp : Stamp) :
    console.execute (.ofAddress 0xA stamp.address) random =
      quiet { console with machine := stamp.pointed console.machine } := by
  have decoded : (Opcode.ofAddress 0xA stamp.address).instruction = .setIndex stamp.address :=
    Opcode.instruction_eq_iff.mpr ⟨rfl, Opcode.address_ofAddress 0xA stamp.address⟩
  exact execute_of_silent decoded rfl

/-- A stamp succeeds, and what it leaves has been drawn from where it points. -/
theorem stamp_spec (stamp : Stamp) :
    (∀ report ∈ console.executions random stamp.opcodes, report.result = .done) ∧
      (stamp.pointed console.machine).Drawn stamp.x stamp.y stamp.n
        (console.executeAll random stamp.opcodes).machine := by
  have points := console.execute_pointing random stamp
  have fits : (stamp.pointed console.machine).Fits (.draw stamp.x stamp.y stamp.n) := by
    apply Machine.fits_of_reach rfl
    rw [Stamp.pointed, Address.toNat_word]
    exact stamp.fits
  have draws := { console with machine := stamp.pointed console.machine }.draw_done random fits
  constructor
  · intro report listed
    simp only [Stamp.opcodes, executions, points, quiet, List.mem_cons, List.not_mem_nil,
      or_false] at listed
    rcases listed with rfl | rfl
    · rfl
    · exact draws.1
  · rw [Stamp.opcodes, executeAll_cons, points]
    exact draws.2

end Console

/-! ## Stamps in sequence -/

def Stamp.timesSet (stamps : List Stamp) (machine : Machine) (cell : Cell) : Nat :=
  stamps.countP fun stamp => stamp.Sets machine cell

/-- Stamps have inverted every pixel as often as they set it, and have moved no other stamp. -/
structure Machine.Stamped (before : Machine) (stamps : List Stamp) (after : Machine) : Prop where
  pixel : ∀ cell, after.display.get cell =
    (before.display.get cell ^^ decide (Stamp.timesSet stamps before cell % 2 = 1))
  memory : after.memory = before.memory
  registers : ∀ r, r ≠ Layout.flagRegister → after.registers.get r = before.registers.get r

namespace Stamp

theorem timesSet_cons (stamp : Stamp) (rest : List Stamp) (machine : Machine) (cell : Cell) :
    timesSet (stamp :: rest) machine cell =
      timesSet rest machine cell + if stamp.Sets machine cell then 1 else 0 := by
  simp [timesSet, List.countP_cons]

/-- One stamp more makes an odd number of an even one where it sets the cell. -/
theorem odd_timesSet_cons (stamp : Stamp) (rest : List Stamp) (machine : Machine) (cell : Cell) :
    (decide (stamp.Sets machine cell) ^^ decide (timesSet rest machine cell % 2 = 1)) =
      decide (timesSet (stamp :: rest) machine cell % 2 = 1) := by
  rw [timesSet_cons]
  by_cases sets : stamp.Sets machine cell
  · rcases Nat.mod_two_eq_zero_or_one (timesSet rest machine cell) with even | odd
    · simp [sets, even, Nat.add_mod]
    · simp [sets, odd, Nat.add_mod]
  · simp [sets]

theorem timesSet_append (first second : List Stamp) (machine : Machine) (cell : Cell) :
    timesSet (first ++ second) machine cell =
      timesSet first machine cell + timesSet second machine cell :=
  List.countP_append

theorem timesSet_perm {stamps other : List Stamp} (same : stamps.Perm other) (machine : Machine)
    (cell : Cell) : timesSet stamps machine cell = timesSet other machine cell :=
  same.countP_eq _

theorem timesSet_congr (stamps : List Stamp) {left right : Machine}
    (memory : left.memory = right.memory)
    (registers : ∀ r, r ≠ Layout.flagRegister → left.registers.get r = right.registers.get r)
    (cell : Cell) : timesSet stamps left cell = timesSet stamps right cell := by
  apply List.countP_congr
  intro stamp _
  simp only [decide_eq_true_eq]
  exact sets_congr memory registers cell

end Stamp

namespace Machine

theorem Stamped.nil (machine : Machine) : machine.Stamped [] machine :=
  ⟨fun cell => by simp [Stamp.timesSet], rfl, fun _ _ => rfl⟩

theorem Stamped.cons {before middle after : Machine} {stamp : Stamp} {rest : List Stamp}
    (drawn : (stamp.pointed before).Drawn stamp.x stamp.y stamp.n middle)
    (later : middle.Stamped rest after) : before.Stamped (stamp :: rest) after := by
  have memory : middle.memory = before.memory := by
    rw [drawn.rest]
    rfl
  have registers : ∀ r, r ≠ Layout.flagRegister →
      middle.registers.get r = before.registers.get r := drawn.registers
  constructor
  case pixel =>
    intro cell
    have inverted : middle.display.get cell =
        (before.display.get cell ^^ decide (stamp.Sets before cell)) := drawn.pixel cell
    rw [later.pixel, inverted, Stamp.timesSet_congr rest memory registers cell, Bool.xor_assoc,
      Stamp.odd_timesSet_cons]
  case memory => exact later.memory.trans memory
  case registers =>
    intro r plain
    exact (later.registers r plain).trans (registers r plain)

/-- Two ways of stamping that set every cell equally often, up to an even number, leave the
same display. -/
theorem Stamped.display_eq {before left right : Machine} {stamps other : List Stamp}
    (stamped : before.Stamped stamps left) (stamped' : before.Stamped other right)
    (parity : ∀ cell, Stamp.timesSet stamps before cell % 2 = Stamp.timesSet other before cell % 2) :
    left.display = right.display := by
  apply Display.ext_get
  intro cell
  rw [stamped.pixel, stamped'.pixel, parity]

end Machine

namespace Console

theorem executions_append (console : Console) (random : UInt8) (first second : List Opcode) :
    console.executions random (first ++ second) =
      console.executions random first ++
        (console.executeAll random first).executions random second := by
  induction first generalizing console with
  | nil => rfl
  | cons opcode rest ih =>
      simp only [List.cons_append, executions, ih, executeAll_cons]

def stampAll (console : Console) (random : UInt8) (stamps : List Stamp) : Console :=
  console.executeAll random (stamps.flatMap Stamp.opcodes)

theorem stampAll_cons (console : Console) (random : UInt8) (stamp : Stamp) (rest : List Stamp) :
    console.stampAll random (stamp :: rest) =
      (console.executeAll random stamp.opcodes).stampAll random rest := by
  rw [stampAll, List.flatMap_cons, executeAll_append]
  rfl

theorem stampAll_append (console : Console) (random : UInt8) (first second : List Stamp) :
    console.stampAll random (first ++ second) =
      (console.stampAll random first).stampAll random second := by
  rw [stampAll, List.flatMap_append, executeAll_append]
  rfl

theorem executions_stamps_done (console : Console) (random : UInt8) (stamps : List Stamp) :
    ∀ report ∈ console.executions random (stamps.flatMap Stamp.opcodes),
      report.result = .done := by
  induction stamps generalizing console with
  | nil =>
      intro report listed
      cases listed
  | cons stamp rest ih =>
      intro report listed
      rw [List.flatMap_cons, executions_append] at listed
      rcases List.mem_append.mp listed with early | late
      · exact (console.stamp_spec random stamp).1 report early
      · exact ih _ report late

theorem stamped_stampAll (console : Console) (random : UInt8) (stamps : List Stamp) :
    console.machine.Stamped stamps (console.stampAll random stamps).machine := by
  induction stamps generalizing console with
  | nil => exact Machine.Stamped.nil console.machine
  | cons stamp rest ih =>
      rw [stampAll_cons]
      exact Machine.Stamped.cons (console.stamp_spec random stamp).2 (ih _)

/-- The second of two equal stamps hits exactly the set cells that were dark before the first. -/
theorem flag_of_repeated (console : Console) (random : UInt8) (stamp : Stamp) :
    let flag := (console.stampAll random [stamp, stamp]).machine.registers.get Layout.flagRegister
    (flag = 1 ↔ ∃ cell, stamp.Sets console.machine cell ∧
      console.machine.display.get cell = false) ∧
    (flag = 0 ↔ ∀ cell, stamp.Sets console.machine cell →
      console.machine.display.get cell = true) := by
  have once := console.stamped_stampAll random [stamp]
  have second := ((console.stampAll random [stamp]).stamp_spec random stamp).2
  have twice : console.stampAll random [stamp, stamp] =
      (console.stampAll random [stamp]).executeAll random stamp.opcodes := by
    rw [← List.singleton_append, stampAll_append]
    rfl
  have sets : ∀ cell,
      (stamp.pointed (console.stampAll random [stamp]).machine).Sets
          stamp.x stamp.y stamp.n cell ↔
        stamp.Sets console.machine cell :=
    Stamp.sets_congr once.memory once.registers
  have turned : ∀ cell, stamp.Sets console.machine cell →
      (console.stampAll random [stamp]).machine.display.get cell =
        !console.machine.display.get cell := by
    intro cell isSet
    rw [once.pixel]
    simp [Stamp.timesSet, isSet]
  rw [twice]
  constructor
  · rw [second.hit]
    apply exists_congr
    intro cell
    rw [sets]
    apply and_congr_right
    intro isSet
    rw [Stamp.display_pointed, turned cell isSet, Bool.not_eq_true']
  · rw [second.missed]
    apply forall_congr'
    intro cell
    rw [sets]
    apply imp_congr_right
    intro isSet
    rw [Stamp.display_pointed, turned cell isSet, Bool.not_eq_false']

/-- Stamps one after the other succeed and turn every pixel exactly as often as they set it.
So they leave the same display in every order, and the same stamps again, in any order,
restore it. A stamp that is repeated at once hits what was dark before. -/
theorem stamps_are_exclusive_or (console : Console) (random : UInt8) (stamps : List Stamp) :
    let stamped := (console.stampAll random stamps).machine
    (∀ report ∈ console.executions random (stamps.flatMap Stamp.opcodes),
      report.result = .done) ∧
    (∀ cell, stamped.display.get cell =
      (console.machine.display.get cell ^^
        decide (Stamp.timesSet stamps console.machine cell % 2 = 1))) ∧
    (∀ other, stamps.Perm other →
      (console.stampAll random other).machine.display = stamped.display) ∧
    (∀ again, stamps.Perm again →
      (console.stampAll random (stamps ++ again)).machine.display = console.machine.display) ∧
    ∀ stamp : Stamp,
      let flag := (console.stampAll random (stamps ++ [stamp, stamp])).machine.registers.get
        Layout.flagRegister
      (flag = 1 ↔ ∃ cell, stamp.Sets stamped cell ∧ stamped.display.get cell = false) ∧
      (flag = 0 ↔ ∀ cell, stamp.Sets stamped cell → stamped.display.get cell = true) := by
  intro stamped
  have done := console.executions_stamps_done random stamps
  have turned := console.stamped_stampAll random stamps
  refine ⟨done, turned.pixel, ?permuted, ?restored, ?repeated⟩
  case permuted =>
    intro other same
    apply (console.stamped_stampAll random other).display_eq turned
    intro cell
    rw [Stamp.timesSet_perm same]
  case restored =>
    intro again same
    have unturned := Machine.Stamped.nil console.machine
    apply (console.stamped_stampAll random (stamps ++ again)).display_eq unturned
    intro cell
    rw [Stamp.timesSet_append, Stamp.timesSet_perm same, ← Nat.two_mul, Nat.mul_mod_right]
    rfl
  case repeated =>
    intro stamp
    rw [stampAll_append]
    exact (console.stampAll random stamps).flag_of_repeated random stamp

def stampingCorner : Console :=
  { drawingOverCorner with
    machine := { drawingOverCorner.machine with
      memory := Memory.blank.store 0x300 [0xC0, 0xFF]
      registers := ((Registers.zero.set 0 62).set 1 31).set 2 60 } }

/-- Two pixels of the corner, with a second row that is cut off. -/
def cornerStamp : Stamp := ⟨0x300, 0, 1, 2, by decide, by decide, by decide⟩

/-- Four pixels of the bottom row, those of the corner among them. -/
def edgeStamp : Stamp := ⟨0x301, 2, 1, 1, by decide, by decide, by decide⟩

theorem corner_stamps_cancel :
    let stamped := (stampingCorner.stampAll 0 [cornerStamp, edgeStamp]).machine
    [cornerStamp, edgeStamp].Perm [edgeStamp, cornerStamp] ∧
    (stampingCorner.stampAll 0 [edgeStamp, cornerStamp]).machine.display = stamped.display ∧
    (stampingCorner.stampAll 0 [cornerStamp, edgeStamp, edgeStamp, cornerStamp]).machine.display =
      stampingCorner.machine.display ∧
    stamped.display.get ⟨60, 31⟩ = true ∧ stamped.display.get ⟨63, 31⟩ = true ∧
    stamped.display.get ⟨62, 31⟩ = false ∧
    (stampingCorner.stampAll 0
      [cornerStamp, edgeStamp, cornerStamp, cornerStamp]).machine.registers.get 0xF = 1 := by
  intro stamped
  obtain ⟨_, pixel, permuted, restored, repeated⟩ :=
    stamps_are_exclusive_or stampingCorner 0 [cornerStamp, edgeStamp]
  have swapped : [cornerStamp, edgeStamp].Perm [edgeStamp, cornerStamp] := .swap _ _ []
  have dark : stamped.display.get ⟨62, 31⟩ = false := by
    rw [pixel]
    decide +kernel
  have sets : cornerStamp.Sets stamped ⟨62, 31⟩ := by decide +kernel
  have hit := (repeated cornerStamp).1.mpr ⟨⟨62, 31⟩, sets, dark⟩
  refine ⟨swapped, permuted _ swapped, restored _ swapped, ?_, ?_, dark, hit⟩
  all_goals
    rw [pixel]
    decide +kernel

end Console

end Chip8
