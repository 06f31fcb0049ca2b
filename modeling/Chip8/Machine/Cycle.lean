import Chip8.Machine.Execute

/-!
# Cycles

One cycle fetches the opcode at the program counter, moves the counter behind it
and executes it. The first fault halts the machine for good: it is stored with the
program counter of its cycle and reported again by every later cycle.
-/

namespace Chip8

namespace Effect

def noting (effect : Effect) (notice : Notice) : Effect :=
  { effect with notices := notice :: effect.notices }

/-- Halts the machine if its work has failed; `pc` is where the cycle began. -/
def haltedAt (effect : Effect) (pc : UInt16) : Effect :=
  match effect.fault with
  | none => effect
  | some reason =>
      let fault := Fault.halted pc reason
      { effect with
        machine.fault := some fault
        fault := some fault
        notices := effect.notices ++ [.halted fault] }

end Effect

namespace Machine

def fetch (machine : Machine) : Except Fault Opcode :=
  (Span.check machine.pc 2).map fun span =>
    Opcode.ofBytes (machine.memory.byte span.start) (machine.memory.byte (span.start + 1))

def attempt (machine : Machine) (random : UInt8) : Effect :=
  match machine.fetch with
  | .ok opcode =>
      (machine.advance.perform opcode random).noting (.fetched machine.pc opcode.word)
  | .error fault => .refused machine fault

/-- One cycle. `random` is the byte that chance offers to it. -/
def cycle (machine : Machine) (random : UInt8) : Effect :=
  match machine.fault with
  | some fault => .refused machine fault
  | none => (machine.attempt random).haltedAt machine.pc

end Machine

end Chip8
