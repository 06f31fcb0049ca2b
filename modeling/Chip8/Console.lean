import Chip8.Display.Frame
import Chip8.Machine.Cycle
import Chip8.Ticker

/-!
# Console

A machine with what its host has plugged into it: a receiver of frames and the
ticker of the timers. Receivers are numbered in the order in which they were
attached. An operation is one thing that a host can do; its report holds the
console afterwards, the result, what was noticed, and the frame that a receiver
took.
-/

namespace Chip8

/-- Where frames go: the number of the receiver, and whether it still takes them. -/
structure Sink where
  receiver : Nat
  connected : Bool
  deriving DecidableEq, Repr

structure Delivery where
  receiver : Nat
  frame : String
  deriving DecidableEq, Repr

@[ext] structure Console where
  machine : Machine
  sink : Option Sink
  /-- How many receivers have been attached so far. -/
  attached : Nat
  ticker : Ticker
  deriving DecidableEq

inductive Operation where
  | load (program : List UInt8)
  /-- One cycle, with the byte that chance offers to it. -/
  | cycle (random : UInt8)
  | setPin (pin : UInt8) (value : Bool)
  | resetPins
  /-- Attach a new receiver, in place of an earlier one. -/
  | attach
  /-- Let the receiver of a number go away. -/
  | dropReceiver (receiver : Nat)
  | setDelay (value : UInt8)
  | setSound (value : UInt8)
  | tickDelay
  | tickSound
  | tick
  | stopTimers
  deriving DecidableEq, Repr

inductive Result where
  | done
  | loaded (size : Nat)
  | refused (refusal : LoadRefusal)
  | failed (fault : Fault)
  /-- The receiver of this number was attached. -/
  | receiver (number : Nat)
  deriving DecidableEq, Repr

structure Report where
  console : Console
  result : Result
  notices : List Notice
  delivered : Option Delivery
  deriving DecidableEq

namespace Console

def quiet (console : Console) : Report :=
  ⟨console, .done, [], none⟩

/-- A fresh machine whose ticker has just been started. -/
def create : Console where
  machine := .fresh
  sink := none
  attached := 0
  ticker := .spawn

def load (console : Console) (program : List UInt8) : Report :=
  match console.machine.load program with
  | .ok machine =>
      ⟨{ console with machine := machine }, .loaded program.length, [.loaded program.length], none⟩
  | .error refusal => ⟨console, .refused refusal, [], none⟩

def withProgram (program : List UInt8) : Except LoadRefusal Report :=
  let report := create.load program
  match report.result with
  | .refused refusal => .error refusal
  | _ => .ok report

/--
Hands the display over to the receiver, if one is attached. A receiver that went
away is noticed now, and the sink is detached.
-/
def emit (console : Console) (notices : List Notice) : Report :=
  match console.sink with
  | none => ⟨console, .done, notices, none⟩
  | some sink =>
      if sink.connected then
        ⟨console, .done, notices, some ⟨sink.receiver, Frame.render console.machine.display⟩⟩
      else
        ⟨{ console with sink := none }, .done, notices ++ [.receiverGone], none⟩

/-- Takes over what a machine has done: hands over what it drew, and reports its fault. -/
def proceed (console : Console) (effect : Effect) : Report :=
  let next := { console with machine := effect.machine }
  let report :=
    if effect.drew then next.emit effect.notices else ⟨next, .done, effect.notices, none⟩
  match effect.fault with
  | some fault => { report with result := .failed fault }
  | none => report

def cycle (console : Console) (random : UInt8) : Report :=
  console.proceed (console.machine.cycle random)

/-- Executes an opcode without a fetch; a fault is reported but does not halt the machine. -/
def execute (console : Console) (opcode : Opcode) (random : UInt8) : Report :=
  console.proceed (console.machine.perform opcode random)

def setPin (console : Console) (pin : UInt8) (value : Bool) : Report :=
  match console.machine.keypad.set pin value with
  | .ok keypad => quiet { console with machine.keypad := keypad }
  | .error fault => ⟨console, .failed fault, [], none⟩

def attach (console : Console) : Report :=
  ⟨{ console with
      sink := some ⟨console.attached, true⟩
      attached := console.attached + 1 },
    .receiver console.attached, [], none⟩

/-- A receiver goes away; the machine notices when it next draws for it. -/
def dropReceiver (console : Console) (receiver : Nat) : Console :=
  { console with
    sink := console.sink.map fun sink =>
      if sink.receiver = receiver then { sink with connected := false } else sink }

def sendsTo (console : Console) (receiver : Nat) : Bool :=
  console.sink.any fun sink => sink.receiver == receiver

def perform (console : Console) : Operation → Report
  | .load program => console.load program
  | .cycle random => console.cycle random
  | .setPin pin value => console.setPin pin value
  | .resetPins => quiet { console with machine.keypad := .clear }
  | .attach => console.attach
  | .dropReceiver receiver => quiet (console.dropReceiver receiver)
  | .setDelay value => quiet { console with machine.timers.delay := value }
  | .setSound value => quiet { console with machine.timers.sound := value }
  | .tickDelay => quiet { console with machine.timers := console.machine.timers.tickDelay }
  | .tickSound => quiet { console with machine.timers := console.machine.timers.tickSound }
  | .tick => quiet { console with machine.timers := console.machine.timers.tick }
  | .stopTimers => quiet { console with ticker := console.ticker.stop }

def after (console : Console) (operations : List Operation) : Console :=
  operations.foldl (fun current operation => (current.perform operation).console) console

def reports (console : Console) : List Operation → List Report
  | [] => []
  | operation :: rest =>
      let report := console.perform operation
      report :: report.console.reports rest

end Console

end Chip8
