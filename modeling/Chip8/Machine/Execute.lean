import Chip8.Display.Sprite
import Chip8.Instruction.Family
import Chip8.Machine

/-!
# Execution

The effect of one instruction on a machine. An instruction that reaches past
memory is refused, and the machine stays as the instruction had left it by then.
-/

namespace Chip8

/-- What is left of a piece of work: the machine, a fault, what was noticed, and a drawing. -/
structure Effect where
  machine : Machine
  /-- What the work has failed with, if it has. -/
  fault : Option Fault
  notices : List Notice
  /-- The display was drawn to, and a frame is to be handed over. -/
  drew : Bool
  deriving DecidableEq

namespace Effect

def silent (machine : Machine) : Effect :=
  ⟨machine, none, [], false⟩

def refused (machine : Machine) (fault : Fault) : Effect :=
  ⟨machine, some fault, [], false⟩

end Effect

namespace Machine

/--
Combines two registers. Both operands are read first, and the flag is written
last, so it wins over the value if the first register is the flag register.
-/
def combine (machine : Machine) (operation : Arithmetic) (x y : Nibble) : Machine :=
  let a := machine.registers.get x
  let b := machine.registers.get y
  let written := machine.registers.set x (operation.value a b)
  { machine with
    registers := match operation.flag? a b with
      | some flag => written.setFlag flag
      | none => written }

/--
Draws the rows of a sprite with the top left corner that two registers give,
modulo the size of the display. The flag tells whether a lit pixel was hit.
-/
def drawSprite (machine : Machine) (x y : Nibble) (rows : List UInt8) : Machine :=
  let column := (machine.registers.get x).toNat % Layout.displayWidth
  let row := (machine.registers.get y).toNat % Layout.displayHeight
  let cells := Sprite.cells column row rows
  { machine with
    display := machine.display.toggleAll cells
    registers := machine.registers.setFlag (Sprite.collides machine.display cells) }

def decimalDigits (value : UInt8) : List UInt8 :=
  [value / 100, value / 10 % 10, value % 10]

/-- Goes on with the span of `size` addresses from the index on, or gives up. -/
def withSpan (machine : Machine) (size : Nat) (next : Span → Effect) : Effect :=
  match Span.check machine.index size with
  | .ok span => next span
  | .error fault => .refused machine fault

def execute (machine : Machine) (random : UInt8) : Instruction → Effect
  | .clear => .silent { machine with display := .blank }
  | .goBack =>
      let popped := machine.stack.pop
      ⟨{ machine with stack := popped.rest, pc := popped.address }, none, popped.notices, false⟩
  | .routine nnn => ⟨machine, none, [.machineRoutine nnn], false⟩
  | .jump nnn => .silent { machine with pc := nnn.word }
  | .call nnn =>
      .silent { machine with stack := machine.stack.push machine.pc, pc := nnn.word }
  | .skipIfValue x nn => .silent (machine.skipIf (machine.registers.get x == nn))
  | .skipUnlessValue x nn => .silent (machine.skipIf (machine.registers.get x != nn))
  | .skipIfSame x y =>
      .silent (machine.skipIf (machine.registers.get x == machine.registers.get y))
  | .skipUnlessSame x y =>
      .silent (machine.skipIf (machine.registers.get x != machine.registers.get y))
  | .setValue x nn => .silent (machine.setRegister x nn)
  | .addValue x nn => .silent (machine.setRegister x (machine.registers.get x + nn))
  | .combine operation x y => .silent (machine.combine operation x y)
  | .setIndex nnn => .silent { machine with index := nnn.word }
  | .jumpOffset nnn =>
      let target := nnn.val + (machine.registers.get 0).toNat
      if target < 4096 then
        .silent { machine with pc := UInt16.ofNat target }
      else
        .refused machine (.outOfBounds target)
  | .random x nn => .silent (machine.setRegister x (random &&& nn))
  | .draw x y n =>
      machine.withSpan n.val fun span =>
        ⟨machine.drawSprite x y (machine.memory.read span), none, [], true⟩
  | .skipIfPin x => .silent (machine.skipIf (machine.pinOf x))
  | .skipUnlessPin x => .silent (machine.skipIf (!machine.pinOf x))
  | .getDelay x => .silent (machine.setRegister x machine.timers.delay)
  | .awaitPin x =>
      match machine.keypad.lowest? with
      | some pin => .silent (machine.setRegister x (UInt8.ofNat pin.val))
      | none => .silent machine.tryAgain
  | .setDelay x => .silent { machine with timers.delay := machine.registers.get x }
  | .setSound x => .silent { machine with timers.sound := machine.registers.get x }
  | .addIndex x =>
      .silent { machine with index := machine.index + (machine.registers.get x).toUInt16 }
  | .glyph x =>
      let digit := Nibble.low (machine.registers.get x)
      .silent { machine with index := UInt16.ofNat (Font.address digit) }
  | .decimal x =>
      machine.withSpan 3 fun span =>
        .silent { machine with
          memory := machine.memory.store span.start (decimalDigits (machine.registers.get x)) }
  | .save x =>
      machine.withSpan (x.val + 1) fun span =>
        .silent { machine with
          memory := machine.memory.store span.start (machine.registers.upTo x) }
  | .restore x =>
      machine.withSpan (x.val + 1) fun span =>
        .silent { machine with
          registers := machine.registers.load (machine.memory.read span) }
  | .unknown opcode => ⟨machine, none, [.unknownOpcode opcode], false⟩

def perform (machine : Machine) (opcode : Opcode) (random : UInt8) : Effect :=
  match opcode.decode with
  | .ok instruction => machine.execute random instruction
  | .error fault => .refused machine fault

end Machine

end Chip8
