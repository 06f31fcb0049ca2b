import Chip8.Fault
import Chip8.Hex
import Chip8.Layout
import Chip8.Opcode

/-!
# Notices

What a machine reports while it works: each notice is kept as what happened, with
the severity and the line of text under which a log shows it.
-/

namespace Chip8

inductive Level where
  | error
  | warn
  | info
  | debug
  | trace
  deriving DecidableEq, Repr

/-- The rank of a severity; graver ones are lower. -/
def Level.rank : Level → Nat
  | .error => 1
  | .warn => 2
  | .info => 3
  | .debug => 4
  | .trace => 5

inductive Notice where
  | loaded (size : Nat)
  /-- The opcode at `pc` was fetched and is about to be executed. -/
  | fetched (pc word : UInt16)
  | machineRoutine (address : Address)
  | unknownOpcode (opcode : UnknownOpcode)
  | emptyReturn
  /-- The receiver of frames is gone, so the frame sink was detached. -/
  | receiverGone
  | halted (fault : Fault)
  deriving DecidableEq, Repr

namespace Notice

def level : Notice → Level
  | .loaded _ => .info
  | .fetched _ _ => .trace
  | .machineRoutine _ => .debug
  | .unknownOpcode _ => .debug
  | .emptyReturn => .warn
  | .receiverGone => .warn
  | .halted _ => .error

def text : Notice → String
  | .loaded size =>
      "Loaded program of " ++ toString size ++ " bytes at " ++ Hex.marked 3 Layout.programStart
  | .fetched pc word => Hex.marked 3 pc.toNat ++ ": " ++ Hex.text 4 word.toNat
  | .machineRoutine address =>
      "Ignoring machine code routine call to " ++ Hex.marked 3 address.val
  | .unknownOpcode opcode => "Ignoring unknown opcode " ++ opcode.text
  | .emptyReturn =>
      "Tried popping from the call stack while it is empty, returning to 0x000"
  | .receiverGone => "Frame consumer went away, detaching the frame sink"
  | .halted fault => fault.message

/-- Whether a log kept at a threshold shows a notice; without a threshold it shows none. -/
def shownAt (notice : Notice) : Option Level → Bool
  | none => false
  | some threshold => decide (notice.level.rank ≤ threshold.rank)

end Notice

end Chip8
