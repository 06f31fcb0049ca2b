import Chip8.Proofs.Decoding
import Chip8.Proofs.Drawing
import Chip8.Proofs.Runs

/-! # Frames and their receivers

Every successful draw makes one frame, and nothing else does. What becomes of the frame
depends on the sink alone: a receiver that is there takes it, one that went away is
noticed and detached, and without a receiver it is not missed. `Console.sinkStep` says so
for one operation; the runs between the attachment of a receiver, its loss and the next
attachment are put together from it.
-/

namespace Chip8

def warnings (notices : List Notice) : List Notice :=
  notices.filter fun notice => notice.level = .warn

/-! ## Draws -/

namespace Machine

theorem drew_cycle_iff {machine : Machine} {random : UInt8} :
    (machine.cycle random).drew = true ↔
      (machine.cycle random).fault = none ∧ machine.opcodeAtPc.kind = 0xD := by
  cases machine.cycled random with
  | alreadyHalted fault stored turn | fetchRefused running past turn
  | instructionRefused running inside reach reached past turn =>
      rw [turn]
      exact ⟨nofun, nofun⟩
  | executed running inside fits turn =>
      have spec := execute_spec fits random
      rw [turn]
      show (machine.advance.execute random machine.opcodeAtPc.instruction).drew = true ↔
        (machine.advance.execute random machine.opcodeAtPc.instruction).fault = none ∧ _
      rw [spec.drew, spec.fault]
      have encodes := machine.opcodeAtPc.encodes_instruction
      constructor
      · intro draws
        cases decoded : machine.opcodeAtPc.instruction with
        | draw x y n =>
            rw [decoded] at encodes
            exact ⟨rfl, encodes.1⟩
        | _ =>
            rw [decoded] at draws
            cases draws
      · rintro ⟨_, kind⟩
        rw [Opcode.instruction_of_draw kind]
        rfl

theorem receiverGone_notMem_noticesOf (machine : Machine) (instruction : Instruction) :
    Notice.receiverGone ∉ machine.noticesOf instruction := by
  intro noticed
  rcases mem_noticesOf noticed with same | ⟨nnn, -, same⟩ | ⟨word, -, same⟩ <;> cases same

theorem receiverGone_notMem_cycle (machine : Machine) (random : UInt8) :
    Notice.receiverGone ∉ (machine.cycle random).notices := by
  intro noticed
  rcases mem_notices_cycle noticed with fetched | executed | ⟨fault, halted⟩
  · cases fetched
  · exact machine.advance.receiverGone_notMem_noticesOf machine.opcodeAtPc.instruction executed
  · cases halted

theorem notices_of_drew {machine : Machine} {random : UInt8}
    (drew : (machine.cycle random).drew = true) :
    (machine.cycle random).notices = [.fetched machine.pc machine.opcodeAtPc.word] := by
  obtain ⟨fine, kind⟩ := drew_cycle_iff.mp drew
  obtain ⟨running, inside, fits⟩ := executes_of_no_fault fine
  have spec := execute_spec fits random
  have still : (machine.advance.execute random machine.opcodeAtPc.instruction).notices = [] := by
    rw [spec.notices, Opcode.instruction_of_draw kind]
    rfl
  rw [cycle_of_fits running inside fits, Effect.noting, still]

end Machine

def Sink.without (receiver : Nat) (sink : Sink) : Sink :=
  if sink.receiver = receiver then { sink with connected := false } else sink

namespace Console

/-- The frame that an operation draws. Only a cycle draws one, by succeeding on an opcode
of class D, and the frame shows the display that this cycle leaves. -/
def drawn? (console : Console) : Operation → Option String
  | .cycle random =>
      match console.machine.fetch, (console.cycle random).result with
      | .ok opcode, .done =>
          if opcode.kind = 0xD then
            some (Frame.render (console.cycle random).console.machine.display)
          else
            none
      | _, _ => none
  | _ => none

def drawings (console : Console) : List Operation → List String
  | [] => []
  | operation :: rest =>
      (console.drawn? operation).toList ++ (console.perform operation).console.drawings rest

theorem drawn?_cycle (console : Console) (random : UInt8) :
    console.drawn? (.cycle random) =
      if (console.machine.cycle random).drew then
        some (Frame.render (console.machine.cycle random).machine.display)
      else none := by
  by_cases fine : (console.machine.cycle random).fault = none
  · obtain ⟨running, inside, fits⟩ := Machine.executes_of_no_fault fine
    have done : (console.cycle random).result = .done := proceed_result_eq_done_iff.mpr fine
    have left : (console.cycle random).console.machine = (console.machine.cycle random).machine :=
      proceed_machine console _
    simp only [drawn?, Machine.fetch_eq_ok inside, done, left]
    by_cases kind : console.machine.opcodeAtPc.kind = 0xD
    · rw [if_pos kind, if_pos (Machine.drew_cycle_iff.mpr ⟨fine, kind⟩)]
    · rw [if_neg kind, if_neg fun drew => kind (Machine.drew_cycle_iff.mp drew).2]
  · have failed : (console.cycle random).result ≠ .done := fun done =>
      fine (proceed_result_eq_done_iff.mp done)
    rw [if_neg fun drew => fine (Machine.drew_cycle_iff.mp drew).1]
    simp only [drawn?]
    split
    · exact absurd ‹_› failed
    · rfl

/-- The frame of a draw shows the display before it, inverted where the sprite is set. -/
theorem drawn?_of_draw {console : Console} (running : console.machine.fault = none)
    {x y n : Nibble} (fetched : console.machine.fetch = .ok ⟨0xD, x, y, n⟩)
    (fits : console.machine.index.toNat + n.val ≤ 4096) (random : UInt8) :
    console.drawn? (.cycle random) = some (Frame.render (.ofCells fun cell =>
      console.machine.display.get cell ^^
        Sprite.covers ((console.machine.registers.get x).toNat % 64)
          ((console.machine.registers.get y).toNat % 32) (console.machine.bytesAtIndex n.val)
          cell)) := by
  obtain ⟨inside, opcode⟩ := Machine.fetch_eq_ok_iff.mp fetched
  have drawing : console.machine.opcodeAtPc.instruction = .draw x y n := by
    rw [opcode]
    exact Opcode.instruction_of_draw rfl
  have reached : console.machine.advance.Fits console.machine.opcodeAtPc.instruction := by
    rw [drawing]
    exact Machine.fits_of_reach rfl fits
  have executed := Machine.execute_spec reached random
  rw [drawn?_cycle, Machine.cycle_of_fits running inside reached]
  have drew : (console.machine.advance.execute random
      console.machine.opcodeAtPc.instruction).drew = true := by
    rw [executed.drew, drawing]
    rfl
  refine (if_pos drew).trans (congrArg (fun display => some (Frame.render display)) ?_)
  refine executed.display.trans (Display.ext_get fun cell => ?_)
  rw [drawing, Display.get_ofCells]
  exact Machine.get_drawSprite _ _ _ _ _

/-- What is drawn depends on the machine alone. -/
theorem drawn?_of_machine {first second : Console} (same : first.machine = second.machine)
    (operation : Operation) : first.drawn? operation = second.drawn? operation := by
  cases operation with
  | cycle random => rw [drawn?_cycle, drawn?_cycle, same]
  | _ => rfl

theorem drawings_append (console : Console) (first second : List Operation) :
    console.drawings (first ++ second) =
      console.drawings first ++ (console.after first).drawings second := by
  induction first generalizing console with
  | nil => rfl
  | cons operation rest ih =>
      have later := ih (console.perform operation).console
      simp only [List.cons_append, drawings, List.append_assoc]
      rw [later]
      rfl

/-! ## One operation -/

/-- What an operation leaves in the sink, how many receivers there have been by then, the
frame that it hands over, and how often it notices that a receiver is gone. -/
structure Leaves (report : Report) (sink : Option Sink) (attached : Nat)
    (delivered : Option Delivery) (losses : Nat) : Prop where
  sink : report.console.sink = sink
  attached : report.console.attached = attached
  delivered : report.delivered = delivered
  losses : report.notices.count .receiverGone = losses

/-- What an operation means to the sink: a new receiver, the loss of one, a draw without a
receiver, for one that takes the frame or for one that is gone, or nothing at all. -/
inductive SinkStep (console : Console) (operation : Operation) : Prop where
  | attached (asked : operation = .attach)
      (report : Leaves (console.perform operation) (some ⟨console.attached, true⟩)
        (console.attached + 1) none 0)
  | dropped (receiver : Nat) (asked : operation = .dropReceiver receiver)
      (report : Leaves (console.perform operation)
        (console.sink.map (Sink.without receiver)) console.attached none 0)
  | unplugged (frame : String) (drawn : console.drawn? operation = some frame)
      (sink : console.sink = none)
      (report : Leaves (console.perform operation) none console.attached none 0)
  | taken (receiver : Nat) (frame : String) (drawn : console.drawn? operation = some frame)
      (sink : console.sink = some ⟨receiver, true⟩)
      (report : Leaves (console.perform operation) (some ⟨receiver, true⟩) console.attached
        (some ⟨receiver, frame⟩) 0)
  | missed (receiver : Nat) (frame : String) (drawn : console.drawn? operation = some frame)
      (sink : console.sink = some ⟨receiver, false⟩)
      (report : Leaves (console.perform operation) none console.attached none 1)
  | other (undrawn : console.drawn? operation = none)
      (report : Leaves (console.perform operation) console.sink console.attached none 0)

theorem cycle_of_drew {console : Console} {random : UInt8}
    (drew : (console.machine.cycle random).drew = true) :
    console.cycle random =
      { console with machine := (console.machine.cycle random).machine }.emit
        (console.machine.cycle random).notices := by
  have fine := (Machine.drew_cycle_iff.mp drew).1
  simp only [cycle, proceed, drew, fine, if_true]

theorem cycle_sinkStep (console : Console) (random : UInt8) :
    console.SinkStep (.cycle random) := by
  have frame := console.drawn?_cycle random
  have clean := List.count_eq_zero.mpr (console.machine.receiverGone_notMem_cycle random)
  by_cases drew : (console.machine.cycle random).drew = true
  · rw [if_pos drew] at frame
    have turn : console.perform (.cycle random) = _ := cycle_of_drew drew
    -- What is left to see is what becomes of the frame in each state of the sink.
    rcases plugged : console.sink with _ | ⟨receiver, _ | _⟩
    · refine .unplugged _ frame plugged ?_
      rw [turn, emit, plugged]
      exact ⟨rfl, rfl, rfl, clean⟩
    · refine .missed receiver _ frame plugged ?_
      rw [turn, emit, plugged]
      refine ⟨rfl, rfl, rfl, ?_⟩
      show ((console.machine.cycle random).notices ++ [Notice.receiverGone]).count
        Notice.receiverGone = 1
      rw [List.count_append, clean]
      rfl
    · refine .taken receiver _ frame plugged ?_
      rw [turn, emit, plugged]
      exact ⟨rfl, rfl, rfl, clean⟩
  · rw [if_neg drew] at frame
    have still : (console.machine.cycle random).drew = false := Bool.eq_false_iff.mpr drew
    obtain ⟨left, undelivered⟩ : (console.cycle random).console =
        { console with machine := (console.machine.cycle random).machine } ∧
          (console.cycle random).delivered = none := proceed_of_no_drawing still
    have noticed : (console.cycle random).notices = (console.machine.cycle random).notices :=
      proceed_notices_of_no_drawing still
    rw [← noticed] at clean
    refine .other frame ?_
    show Leaves (console.cycle random) console.sink console.attached _ _
    exact ⟨by rw [left], by rw [left], undelivered, clean⟩

theorem load_sinkStep (console : Console) (program : List UInt8) :
    console.SinkStep (.load program) := by
  refine .other rfl ?_
  show Leaves (console.load program) console.sink console.attached none 0
  unfold load
  split <;> exact ⟨rfl, rfl, rfl, rfl⟩

theorem setPin_sinkStep (console : Console) (pin : UInt8) (value : Bool) :
    console.SinkStep (.setPin pin value) := by
  refine .other rfl ?_
  show Leaves (console.setPin pin value) console.sink console.attached none 0
  unfold setPin
  split <;> exact ⟨rfl, rfl, rfl, rfl⟩

theorem sinkStep (console : Console) (operation : Operation) : console.SinkStep operation := by
  cases operation with
  | cycle random => exact console.cycle_sinkStep random
  | load program => exact console.load_sinkStep program
  | setPin pin value => exact console.setPin_sinkStep pin value
  | attach => exact .attached rfl ⟨rfl, rfl, rfl, rfl⟩
  | dropReceiver receiver => exact .dropped receiver rfl ⟨rfl, rfl, rfl, rfl⟩
  | _ => exact .other rfl ⟨rfl, rfl, rfl, rfl⟩

/-- A frame that is handed over was drawn in that operation, for the receiver in the sink. -/
theorem drawn_of_delivered {console : Console} {operation : Operation} {delivery : Delivery}
    (delivered : (console.perform operation).delivered = some delivery) :
    console.drawn? operation = some delivery.frame ∧
      console.sink = some ⟨delivery.receiver, true⟩ := by
  cases console.sinkStep operation with
  | taken receiver frame drawn sink report =>
      rw [report.delivered] at delivered
      cases delivered
      exact ⟨drawn, sink⟩
  | attached asked report | dropped receiver asked report | unplugged frame drawn sink report
  | missed receiver frame drawn sink report | other undrawn report =>
      rw [report.delivered] at delivered
      cases delivered

/-! ## One draw -/

/-- What a draw does with its frame: a receiver that is there takes it and stays, and one
that is gone costs a warning and its place. -/
structure Draws (console : Console) (report : Report) : Prop where
  sink : report.console.sink = console.sink.filter Sink.connected
  delivered : report.delivered = (console.sink.filter Sink.connected).map fun sink =>
    ⟨sink.receiver, Frame.render report.console.machine.display⟩
  warned : warnings report.notices =
    if console.sink.any (fun sink => !sink.connected) then [.receiverGone] else []

theorem draws_of_drew {console : Console} {random : UInt8}
    (drew : (console.machine.cycle random).drew = true) :
    console.Draws (console.cycle random) := by
  have noticed := Machine.notices_of_drew drew
  rw [cycle_of_drew drew, noticed]
  rcases plugged : console.sink with _ | ⟨receiver, _ | _⟩ <;>
    constructor <;> simp [emit, plugged, warnings, Notice.level, Option.filter_some]

/-- The sprite alone decides whether a draw succeeds; the sink has no say in it. -/
theorem draw_spec {console : Console} {opcode : Opcode} (running : console.machine.fault = none)
    (fetched : console.machine.fetch = .ok opcode) (isDraw : opcode.kind = 0xD)
    (random : UInt8) :
    ((console.cycle random).result = .done ↔
      console.machine.index.toNat + opcode.n.val ≤ 4096) ∧
    ((console.cycle random).result = .done → console.Draws (console.cycle random)) := by
  obtain ⟨inside, rfl⟩ := Machine.fetch_eq_ok_iff.mp fetched
  constructor
  · rw [cycle_done_iff, Opcode.instruction_of_draw isDraw]
    constructor
    · rintro ⟨_, _, fits⟩
      exact fits _ rfl
    · intro sprite
      exact ⟨running, inside, Machine.fits_of_reach rfl sprite⟩
  · intro done
    have fine : (console.machine.cycle random).fault = none := proceed_result_eq_done_iff.mp done
    exact draws_of_drew (Machine.drew_cycle_iff.mpr ⟨fine, isDraw⟩)

end Console

end Chip8
