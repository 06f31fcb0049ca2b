import Chip8.Display
import Chip8.Font
import Chip8.Keypad
import Chip8.Memory
import Chip8.Registers
import Chip8.ReturnStack
import Chip8.Timers

/-!
# Machine

The state of a CHIP-8 machine and the changes that instructions are made of.
-/

namespace Chip8

@[ext] structure Machine where
  memory : Memory
  registers : Registers
  index : UInt16
  /-- The program counter, which a fetch has already moved behind the instruction. -/
  pc : UInt16
  display : Display
  timers : Timers
  keypad : Keypad
  stack : ReturnStack
  /-- The halt that ended the program, if one has. -/
  fault : Option Fault
  deriving DecidableEq

namespace Machine

def fresh : Machine where
  memory := Memory.blank.store Layout.fontStart Font.bytes
  registers := .zero
  index := 0
  pc := UInt16.ofNat Layout.programStart
  display := .blank
  timers := .zero
  keypad := .clear
  stack := .empty
  fault := none

def isHalted (machine : Machine) : Bool :=
  machine.fault.isSome

def load (machine : Machine) (program : List UInt8) : Except LoadRefusal Machine :=
  if program.length ≤ Layout.programCapacity then
    .ok { machine with memory := machine.memory.store Layout.programStart program }
  else
    .error (.tooLarge program.length Layout.programCapacity)

/-- Moves the program counter behind one instruction. -/
def advance (machine : Machine) : Machine :=
  { machine with pc := machine.pc + 2 }

/-- Moves the program counter back to the instruction under execution, to try it again. -/
def tryAgain (machine : Machine) : Machine :=
  { machine with pc := machine.pc - 2 }

def skipIf (machine : Machine) (condition : Bool) : Machine :=
  if condition then machine.advance else machine

def setRegister (machine : Machine) (x : Nibble) (value : UInt8) : Machine :=
  { machine with registers := machine.registers.set x value }

/-- Whether the pin that the low half of a register names is set. -/
def pinOf (machine : Machine) (x : Nibble) : Bool :=
  machine.keypad.get (.low (machine.registers.get x))

end Machine

end Chip8
