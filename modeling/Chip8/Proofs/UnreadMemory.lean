import Mathlib.Data.List.Forall2
import Chip8.Proofs.Decoding
import Chip8.Proofs.Runs

/-! # Unread memory

Memory has a say in a run only through the bytes that are read: those of the fetched
opcodes, the rows of the drawn sprites and the bytes that registers are loaded with. Two
states that differ only at addresses of which one run reads none go through all operations
side by side, and differ nowhere else afterwards.
-/

namespace Chip8

/-! ## Agreement off some addresses -/

def Memory.AgreeOff (hidden : Nat → Prop) (left right : Memory) : Prop :=
  ∀ address, ¬ hidden address → left.byte address = right.byte address

/-- Two machines are the same but for bytes at hidden addresses. -/
def Machine.AgreeOff (hidden : Nat → Prop) (left right : Machine) : Prop :=
  ∃ memory, left.memory.AgreeOff hidden memory ∧ right = { left with memory := memory }

def Effect.AgreeOff (hidden : Nat → Prop) (left right : Effect) : Prop :=
  ∃ machine, left.machine.AgreeOff hidden machine ∧ right = { left with machine := machine }

def Console.AgreeOff (hidden : Nat → Prop) (left right : Console) : Prop :=
  ∃ machine, left.machine.AgreeOff hidden machine ∧ right = { left with machine := machine }

def Report.AgreeOff (hidden : Nat → Prop) (left right : Report) : Prop :=
  ∃ console, left.console.AgreeOff hidden console ∧ right = { left with console := console }

variable {hidden : Nat → Prop}

namespace Memory

theorem AgreeOff.store {left right : Memory} (agree : left.AgreeOff hidden right) {start : Nat}
    (bytes : List UInt8) (fits : start + bytes.length ≤ 4096) :
    (left.store start bytes).AgreeOff hidden (right.store start bytes) := by
  intro address shown
  rw [byte_store _ fits, byte_store _ fits, agree address shown]

theorem AgreeOff.read {left right : Memory} (agree : left.AgreeOff hidden right) (span : Span)
    (shown : ∀ address, span.start ≤ address → address < span.stop → ¬ hidden address) :
    left.read span = right.read span :=
  read_congr fun address low high => agree address (shown address low high)

end Memory

namespace Machine.AgreeOff

variable {left right : Machine} (agree : left.AgreeOff hidden right)

include agree

theorem fault : right.fault = left.fault := by
  obtain ⟨memory, -, rfl⟩ := agree
  rfl

theorem pc : right.pc = left.pc := by
  obtain ⟨memory, -, rfl⟩ := agree
  rfl

theorem advance : left.advance.AgreeOff hidden right.advance := by
  obtain ⟨memory, agree, rfl⟩ := agree
  exact ⟨memory, agree, rfl⟩

theorem opcodeAtPc (high : ¬ hidden left.pc.toNat) (low : ¬ hidden (left.pc.toNat + 1)) :
    right.opcodeAtPc = left.opcodeAtPc := by
  obtain ⟨memory, agree, rfl⟩ := agree
  simp only [Machine.opcodeAtPc, agree _ high, agree _ low]

end Machine.AgreeOff

/-! ## What is read -/

namespace Machine

/-- The addresses from which an opcode takes the rows of a sprite or the values of
registers. -/
def Loads (machine : Machine) (opcode : Opcode) (address : Nat) : Prop :=
  machine.index.toNat ≤ address ∧
    ((opcode.kind = 0xD ∧ address < machine.index.toNat + opcode.n.val) ∨
     (opcode.kind = 0xF ∧ opcode.value.toNat = 0x65 ∧
       address ≤ machine.index.toNat + opcode.x.val))

/-- The addresses that the next cycle reads: both bytes of the opcode that it fetches, and
what that opcode loads unless it fails. -/
def Reads (machine : Machine) (random : UInt8) (address : Nat) : Prop :=
  machine.fault = none ∧ ∃ opcode, machine.fetch = .ok opcode ∧
    (address = machine.pc.toNat ∨ address = machine.pc.toNat + 1 ∨
      ((machine.cycle random).fault = none ∧ machine.Loads opcode address))

/-! ## One cycle -/

theorem withSpan_agreeOff {machine : Machine} {memory : Memory}
    (agree : machine.memory.AgreeOff hidden memory) {size : Nat} {next next' : Span → Effect}
    (alike : ∀ fits : machine.index.toNat + size ≤ 4096,
      (next ⟨machine.index.toNat, size, fits⟩).AgreeOff hidden
        (next' ⟨machine.index.toNat, size, fits⟩)) :
    (machine.withSpan size next).AgreeOff hidden
      ({ machine with memory := memory }.withSpan size next') := by
  unfold withSpan
  by_cases fits : machine.index.toNat + size ≤ 4096
  · simp only [Span.check_eq_ok fits]
    exact alike fits
  · simp only [Span.check_eq_error (Nat.lt_of_not_le fits)]
    exact ⟨_, ⟨memory, agree, rfl⟩, rfl⟩

theorem execute_agreeOff {left right : Machine} {opcode : Opcode} (random : UInt8)
    (agree : left.AgreeOff hidden right)
    (unread : left.Fits opcode.instruction →
      ∀ address, left.Loads opcode address → ¬ hidden address) :
    (left.execute random opcode.instruction).AgreeOff hidden
      (right.execute random opcode.instruction) := by
  obtain ⟨memory, agree, rfl⟩ := agree
  have encodes := opcode.encodes_instruction
  generalize opcode.instruction = instruction at unread encodes ⊢
  cases instruction with
  | draw x y n =>
      obtain ⟨kind, rfl, rfl, rfl⟩ := encodes
      refine withSpan_agreeOff agree fun fits => ?_
      have rows := agree.read ⟨left.index.toNat, opcode.n.val, fits⟩
        fun address low high =>
          unread (fits_of_reach rfl fits) address ⟨low, Or.inl ⟨kind, high⟩⟩
      dsimp only
      rw [rows]
      exact ⟨_, ⟨memory, agree, rfl⟩, rfl⟩
  | restore x =>
      obtain ⟨kind, rfl, byte⟩ := encodes
      refine withSpan_agreeOff agree fun fits => ?_
      have values := agree.read ⟨left.index.toNat, opcode.x.val + 1, fits⟩
        fun address low high =>
          unread (fits_of_reach rfl fits) address
            ⟨low, Or.inr ⟨kind, byte, Nat.le_of_lt_succ high⟩⟩
      dsimp only
      rw [values]
      -- Left in place, the loaded registers would be compared one by one with those before.
      generalize left.registers.load _ = registers
      exact ⟨_, ⟨memory, agree, rfl⟩, rfl⟩
  | decimal x =>
      refine withSpan_agreeOff agree fun fits => ?_
      exact ⟨_, ⟨_, agree.store _ fits, rfl⟩, rfl⟩
  | save x =>
      refine withSpan_agreeOff agree fun fits => ?_
      have saved := agree.store (left.registers.upTo x)
        (by rwa [Registers.length_upTo])
      exact ⟨_, ⟨_, saved, rfl⟩, rfl⟩
  | jumpOffset nnn =>
      simp only [execute]
      split <;> exact ⟨_, ⟨memory, agree, rfl⟩, rfl⟩
  | awaitPin x =>
      simp only [execute]
      cases left.keypad.lowest? <;> exact ⟨_, ⟨memory, agree, rfl⟩, rfl⟩
  | skipIfValue x nn | skipUnlessValue x nn | skipIfSame x y | skipUnlessSame x y
  | skipIfPin x | skipUnlessPin x =>
      simp only [execute, skipIf_eq]
      exact ⟨_, ⟨memory, agree, rfl⟩, rfl⟩
  | _ => exact ⟨_, ⟨memory, agree, rfl⟩, rfl⟩

end Machine

theorem Effect.AgreeOff.noting {left right : Effect} (agree : left.AgreeOff hidden right)
    (notice : Notice) : (left.noting notice).AgreeOff hidden (right.noting notice) := by
  obtain ⟨machine, agree, rfl⟩ := agree
  exact ⟨machine, agree, rfl⟩

theorem Effect.AgreeOff.haltedAt {left right : Effect} (agree : left.AgreeOff hidden right)
    (pc : UInt16) : (left.haltedAt pc).AgreeOff hidden (right.haltedAt pc) := by
  obtain ⟨_, ⟨memory, agree, rfl⟩, rfl⟩ := agree
  obtain ⟨machine, fault, notices, drew⟩ := left
  cases fault <;> exact ⟨_, ⟨memory, agree, rfl⟩, rfl⟩

namespace Machine

theorem cycle_agreeOff {left right : Machine} {random : UInt8}
    (agree : left.AgreeOff hidden right)
    (unread : ∀ address, hidden address → ¬ left.Reads random address) :
    (left.cycle random).AgreeOff hidden (right.cycle random) := by
  cases stored : left.fault with
  | some fault =>
      rw [cycle_of_halted stored, cycle_of_halted (agree.fault.trans stored)]
      exact ⟨right, agree, rfl⟩
  | none =>
      rw [cycle_of_running stored, cycle_of_running (agree.fault.trans stored), agree.pc]
      apply Effect.AgreeOff.haltedAt
      by_cases inside : left.pc.toNat + 2 ≤ 4096
      · have fetched := fetch_eq_ok inside
        have same : right.opcodeAtPc = left.opcodeAtPc :=
          agree.opcodeAtPc
            (fun isHidden => unread _ isHidden ⟨stored, _, fetched, Or.inl rfl⟩)
            (fun isHidden => unread _ isHidden ⟨stored, _, fetched, Or.inr (Or.inl rfl)⟩)
        rw [attempt_of_inside inside, attempt_of_inside (agree.pc ▸ inside), same, agree.pc]
        apply Effect.AgreeOff.noting
        refine execute_agreeOff random agree.advance fun fits address loads isHidden => ?_
        have fine := no_fault_of_fits stored inside fits random
        exact unread address isHidden ⟨stored, _, fetched, Or.inr (Or.inr ⟨fine, loads⟩)⟩
      · have past := Nat.lt_of_not_le inside
        rw [attempt_of_past past, attempt_of_past (agree.pc ▸ past), agree.pc]
        exact ⟨right, agree, rfl⟩

end Machine

/-! ## Runs -/

namespace Console

theorem proceed_agreeOff {left right : Console} {effect effect' : Effect}
    (consoles : left.AgreeOff hidden right) (effects : effect.AgreeOff hidden effect') :
    (left.proceed effect).AgreeOff hidden (right.proceed effect') := by
  obtain ⟨_, _, rfl⟩ := consoles
  obtain ⟨_, ⟨memory, agree, rfl⟩, rfl⟩ := effects
  obtain ⟨machine, fault, notices, drew⟩ := effect
  obtain ⟨_, sink, attached, ticker⟩ := left
  rcases sink with _ | ⟨receiver, _ | _⟩ <;> cases drew <;> cases fault <;>
    exact ⟨_, ⟨_, ⟨memory, agree, rfl⟩, rfl⟩, rfl⟩

theorem load_agreeOff {left right : Console} (agree : left.AgreeOff hidden right)
    (program : List UInt8) : (left.load program).AgreeOff hidden (right.load program) := by
  by_cases fits : program.length ≤ Layout.programCapacity
  · rw [left.load_of_fits fits, right.load_of_fits fits]
    obtain ⟨_, ⟨memory, agree, rfl⟩, rfl⟩ := agree
    exact ⟨_, ⟨_, ⟨_, agree.store _ (Layout.program_fits fits), rfl⟩, rfl⟩, rfl⟩
  · rw [left.load_of_large fits, right.load_of_large fits]
    exact ⟨_, agree, rfl⟩

theorem perform_agreeOff {left right : Console} {operation : Operation}
    (agree : left.AgreeOff hidden right)
    (unread : ∀ random, operation = .cycle random →
      ∀ address, hidden address → ¬ left.machine.Reads random address) :
    (left.perform operation).AgreeOff hidden (right.perform operation) := by
  cases operation with
  | cycle random =>
      obtain ⟨machine, machines, rfl⟩ := agree
      have effects := Machine.cycle_agreeOff machines (unread random rfl)
      exact proceed_agreeOff ⟨machine, machines, rfl⟩ effects
  | load program => exact load_agreeOff agree program
  | setPin pin value =>
      obtain ⟨_, ⟨memory, agree, rfl⟩, rfl⟩ := agree
      simp only [perform, setPin]
      cases left.machine.keypad.set pin value <;>
        exact ⟨_, ⟨_, ⟨memory, agree, rfl⟩, rfl⟩, rfl⟩
  | _ =>
      obtain ⟨_, ⟨memory, agree, rfl⟩, rfl⟩ := agree
      exact ⟨_, ⟨_, ⟨memory, agree, rfl⟩, rfl⟩, rfl⟩

def Ignores (hidden : Nat → Prop) (console : Console) (operations : List Operation) : Prop :=
  console.EveryCycle
    (fun current random => ∀ address, hidden address → ¬ current.machine.Reads random address)
    operations

theorem reports_agreeOff {left right : Console} {operations : List Operation}
    (agree : left.AgreeOff hidden right) (ignores : left.Ignores hidden operations) :
    List.Forall₂ (Report.AgreeOff hidden) (left.reports operations) (right.reports operations) := by
  induction operations generalizing left right with
  | nil => exact .nil
  | cons operation rest ih =>
      obtain ⟨first, later⟩ := everyCycle_cons.mp ignores
      have report := perform_agreeOff agree first
      have next : (left.perform operation).console.AgreeOff hidden
          (right.perform operation).console := by
        obtain ⟨console, consoles, same⟩ := report
        rw [same]
        exact consoles
      exact .cons report (ih next later)

/-! ## What an earlier program leaves behind -/

def Stale (old new : List UInt8) (address : Nat) : Prop :=
  Layout.programStart + new.length ≤ address ∧ address < Layout.programStart + old.length

theorem load_agreeOff_reload (console : Console) (old : List UInt8) {new : List UInt8}
    (fits : new.length ≤ Layout.programCapacity) :
    (console.load new).console.AgreeOff (Stale old new)
      ((console.load old).console.load new).console := by
  have inside := Layout.program_fits fits
  by_cases older : old.length ≤ Layout.programCapacity
  · rw [load_of_fits _ fits, load_of_fits _ older, load_of_fits _ fits]
    refine ⟨_, ⟨_, ?_, rfl⟩, rfl⟩
    intro address shown
    rw [Memory.byte_store _ inside, Memory.byte_store _ inside,
      Memory.byte_store _ (Layout.program_fits older)]
    -- What the new program does not cover is not covered by the old one either.
    split
    · rfl
    · rename_i uncovered
      rw [if_neg]
      rintro ⟨low, high⟩
      exact shown ⟨by omega, high⟩
  · rw [load_of_large _ older]
    exact ⟨_, ⟨_, fun _ _ => rfl, rfl⟩, rfl⟩

/-- Bytes that a run never reads have no influence on it: two consoles that differ at most in
such bytes give the same reports, and after every operation they still differ at most in
them. In particular what an earlier, longer program has left behind makes no difference to a
program that does not read it. -/
theorem unread_bytes_change_nothing (operations : List Operation) :
    (∀ (hidden : Nat → Prop) (first second : Console), first.AgreeOff hidden second →
      first.Ignores hidden operations →
      List.Forall₂ (Report.AgreeOff hidden) (first.reports operations)
        (second.reports operations)) ∧
    ∀ (console : Console) (old new : List UInt8), new.length ≤ Layout.programCapacity →
      let alone := (console.load new).console
      let reused := ((console.load old).console.load new).console
      alone.Ignores (Stale old new) operations →
      List.Forall₂ (Report.AgreeOff (Stale old new)) (alone.reports operations)
        (reused.reports operations) := by
  constructor
  · intro hidden first second agree ignores
    exact reports_agreeOff agree ignores
  · intro console old new fits alone reused ignores
    exact reports_agreeOff (console.load_agreeOff_reload old fits) ignores

/-- A program that stores a register behind itself and then stays where it is. -/
def storingBehindItself : List UInt8 :=
  [0xA2, 0x06, 0xF0, 0x55, 0x12, 0x04]

def empty : Console :=
  { create with machine := { Machine.fresh with memory := .blank } }

theorem storing_over_stale_bytes :
    let alone := (empty.load storingBehindItself).console
    let stale := Stale (List.replicate 9 0xFF) storingBehindItself
    let reused := ((empty.load (List.replicate 9 0xFF)).console.load storingBehindItself).console
    let operations := [.cycle 0, .tick, .cycle 0, .cycle 0]
    storingBehindItself.length ≤ Layout.programCapacity ∧ alone.Ignores stale operations ∧
      List.Forall₂ (Report.AgreeOff stale) (alone.reports operations)
        (reused.reports operations) := by
  intro alone stale reused operations
  have fits : storingBehindItself.length ≤ Layout.programCapacity := by decide
  have spared : ∀ (machine : Machine) (random : UInt8), machine.pc.toNat + 1 < 0x206 ∧
      machine.opcodeAtPc.kind ≠ 0xD ∧ machine.opcodeAtPc.value ≠ 0x65 →
        ∀ address, stale address → ¬ machine.Reads random address := by
    rintro machine random ⟨own, notDraw, notRestore⟩ address ⟨behind, -⟩ ⟨-, opcode, fetched, reads⟩
    have behind : 0x206 ≤ address := behind
    obtain ⟨-, rfl⟩ := Machine.fetch_eq_ok_iff.mp fetched
    rcases reads with high | low | ⟨-, -, ⟨draw, -⟩ | ⟨-, restore, -⟩⟩
    · omega
    · omega
    · exact notDraw draw
    · exact notRestore (UInt8.toNat_inj.mp restore)
  have ignores : alone.Ignores stale operations := by
    simp only [Ignores, operations, everyCycle_cons]
    exact ⟨fun random _ => spared _ random (by decide +kernel),
      fun random isCycle => (by cases isCycle),
      fun random _ => spared _ random (by decide +kernel),
      fun random _ => spared _ random (by decide +kernel), everyCycle_nil⟩
  exact ⟨fits, ignores, (unread_bytes_change_nothing operations).2 empty _ _ fits ignores⟩

end Console

end Chip8
