import Chip8.Hex
import Chip8.Layout

/-!
# Faults

What can go wrong with a machine and with the loading of a program, each kept as
its cause, and the one sentence that reports it.
-/

namespace Chip8

/-- Why an instruction, a cycle or a change of an input pin was refused. -/
inductive Fault where
  /-- An access or a jump reaches past memory, first at this address. -/
  | outOfBounds (address : Nat)
  /-- An opcode of class `got` was read as an instruction of class `expected`. -/
  | wrongClass (got expected : UInt8)
  | noSuchPin (pin : UInt8)
  /-- The program stopped for good in the cycle that began at `pc`. -/
  | halted (pc : UInt16) (reason : Fault)
  deriving DecidableEq, Repr

inductive LoadRefusal where
  /-- The program has more bytes than fit behind its start. -/
  | tooLarge (size capacity : Nat)
  deriving DecidableEq, Repr

/-- A number as messages show it: hexadecimal, with at least `width` digits. -/
def Hex.marked (width n : Nat) : String :=
  "0x" ++ Hex.text width n

/-- The report of a fault; a halt ends with the report of its reason. -/
def Fault.message : Fault → String
  | .outOfBounds address => "memory access out of bounds at address " ++ Hex.marked 4 address
  | .wrongClass got expected =>
      "instruction class " ++ Hex.marked 1 got.toNat ++
        " does not match the expected class " ++ Hex.marked 1 expected.toNat
  | .noSuchPin pin => "input pin " ++ Hex.marked 1 pin.toNat ++ " does not exist"
  | .halted pc reason =>
      "program halted at " ++ Hex.marked 4 pc.toNat ++ ": " ++ reason.message

def LoadRefusal.message : LoadRefusal → String
  | .tooLarge size capacity =>
      "program is too large (" ++ toString size ++ " bytes), at most " ++
        toString capacity ++ " bytes fit into memory"

end Chip8
