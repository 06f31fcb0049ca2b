import Chip8.Console
import Chip8.Terminal.Options

/-!
# Playback

A program that runs in a terminal. One thread cycles the machine, another prints
the frames; they meet at every frame, which the first offers until the second has
taken it. Each move of a thread is one action, and an action that cannot be taken
now has no result, so every interleaving is a list of actions.
-/

namespace Chip8.Terminal

/-- The two threads and what has been printed. -/
structure Playback where
  console : Console
  /-- The frame for which the cycling thread waits. -/
  offered : Option String
  /-- The frame that the printing thread has taken and not yet printed. -/
  taken : Option String
  /-- The cycling thread has ended, and the machine is gone. -/
  closed : Bool
  ended : Bool
  output : String
  deriving DecidableEq

namespace Playback

inductive Action where
  /-- The machine does a cycle, with the byte that chance offers. -/
  | cycle (random : UInt8)
  | tickDelay
  | tickSound
  /-- The printing thread takes the frame that is offered. -/
  | handOver
  /-- The printing thread prints the frame it has taken, and a line break. -/
  | print
  /-- The cycling thread ends, since the program has halted. -/
  | close
  /-- The printing thread ends, since no more frames can come. -/
  | finish
  deriving DecidableEq, Repr

def ofConsole (console : Console) : Playback where
  console := console.attach.console
  offered := none
  taken := none
  closed := false
  ended := false
  output := ""

def ofFile (path : String) : Except ReadFailure (List UInt8) → Except StartError Playback
  | .error failure => .error (.unreadable path failure)
  | .ok program =>
      match Console.withProgram program with
      | .error refusal => .error (.refused refusal)
      | .ok report => .ok (ofConsole report.console)

/-- Starts with a way to read files. The arguments are read before any file, and no file but
the one they name. -/
def startReading {m : Type → Type} [Monad m]
    (readFile : String → m (Except ReadFailure (List UInt8))) (arguments : List String) :
    m (Except StartError (Options × Playback)) :=
  match Options.ofArguments arguments with
  | .error error => pure (.error error)
  | .ok options => do
      let contents ← readFile options.path
      return (ofFile options.path contents).map fun playback => (options, playback)

def start (arguments : List String) (files : String → Except ReadFailure (List UInt8)) :
    Except StartError (Options × Playback) :=
  Id.run (startReading (fun path => pure (files path)) arguments)

def step? (playback : Playback) : Action → Option Playback
  | .cycle random =>
      if playback.closed || playback.offered.isSome || playback.console.machine.isHalted then
        none
      else
        let report := playback.console.cycle random
        some { playback with
          console := report.console
          offered := report.delivered.map Delivery.frame }
  | .tickDelay =>
      if playback.closed then none
      else some { playback with console := (playback.console.perform .tickDelay).console }
  | .tickSound =>
      if playback.closed then none
      else some { playback with console := (playback.console.perform .tickSound).console }
  | .handOver =>
      match playback.offered, playback.taken with
      | some frame, none =>
          if playback.ended then none
          else some { playback with offered := none, taken := some frame }
      | _, _ => none
  | .print =>
      match playback.taken with
      | some frame =>
          some { playback with taken := none, output := playback.output ++ frame ++ "\n" }
      | none => none
  | .close =>
      if !playback.closed && playback.offered.isNone && playback.console.machine.isHalted then
        some { playback with closed := true }
      else
        none
  | .finish =>
      if playback.closed && playback.taken.isNone && !playback.ended then
        some { playback with ended := true }
      else
        none

def run? (playback : Playback) : List Action → Option Playback
  | [] => some playback
  | action :: rest => (playback.step? action).bind fun next => next.run? rest

def attempt (playback : Playback) (action : Action) : Playback :=
  (playback.step? action).getD playback

/-- A cycle whose frame, if there is one, is printed at once. -/
def advance (playback : Playback) (random : UInt8) : Playback :=
  [Action.cycle random, .handOver, .print].foldl attempt playback

def windUp (playback : Playback) : Playback :=
  [Action.close, .finish].foldl attempt playback

def exit? (playback : Playback) : Option Exit :=
  if playback.closed && playback.ended then some ⟨0, playback.output, ""⟩ else none

end Playback

end Chip8.Terminal
