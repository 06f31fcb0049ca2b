import Chip8.Timers

/-!
# Ticker

The background thread that ticks the timers, and how its host ends it. Host and
thread share a channel for one shutdown request. Each move of either side is one
action; an action that a side cannot take now has no result, so a schedule is a
list of actions and every interleaving is a schedule.
-/

namespace Chip8

/-- The thread, its shutdown channel and the host's hold on both. -/
@[ext] structure Ticker where
  /-- The host still holds the sending end of the shutdown channel. -/
  sender : Bool
  /-- Shutdown requests that are queued in the channel. -/
  queued : Nat
  /-- The host has not yet waited for the end of the thread. -/
  handle : Bool
  /-- The thread is in its loop. -/
  alive : Bool
  /-- The host is stopping the thread and waits for its end. -/
  stopping : Bool
  /-- The host has let go of the ticker, which stops it too. -/
  dropped : Bool
  deriving DecidableEq, Repr

namespace Ticker

inductive Action where
  /-- The thread consumes one elapsed interval. -/
  | tick
  /-- The thread leaves its loop, since it was asked to or nobody can ask any more. -/
  | leave
  /-- The host begins to stop the thread; a sender it still holds is used and given up. -/
  | request
  /-- The host lets go of the ticker and thereby begins to stop the thread. -/
  | drop
  /-- The host has seen the thread end and goes on. -/
  | join
  deriving DecidableEq, Repr

def capacity : Nat := 1

def spawn : Ticker where
  sender := true
  queued := 0
  handle := true
  alive := true
  stopping := false
  dropped := false

def isRunning (ticker : Ticker) : Bool :=
  ticker.handle

/-- The host's first half of a stop. It is blocked while the channel is full. -/
def signal? (ticker : Ticker) : Option Ticker :=
  if ticker.sender then
    if ticker.queued < capacity then
      some { ticker with sender := false, queued := ticker.queued + 1, stopping := true }
    else
      none
  else
    some { ticker with stopping := true }

def step? (ticker : Ticker) : Action → Option Ticker
  | .tick => if ticker.alive then some ticker else none
  | .leave =>
      if ticker.alive && (decide (0 < ticker.queued) || !ticker.sender) then
        some { ticker with alive := false, queued := ticker.queued - 1 }
      else
        none
  | .request => if ticker.stopping || ticker.dropped then none else ticker.signal?
  | .drop =>
      if ticker.stopping || ticker.dropped then none
      else { ticker with dropped := true }.signal?
  | .join =>
      if ticker.stopping && (!ticker.handle || !ticker.alive) then
        some { ticker with handle := false, stopping := false }
      else
        none

def attempt (ticker : Ticker) (action : Action) : Ticker :=
  (ticker.step? action).getD ticker

/-- A stop in which the thread answers at once. -/
def stop (ticker : Ticker) : Ticker :=
  [Action.request, .leave, .join].foldl attempt ticker

def release (ticker : Ticker) : Ticker :=
  [Action.drop, .leave, .join].foldl attempt ticker

end Ticker

@[ext] structure Clock where
  timers : Timers
  ticker : Ticker
  deriving DecidableEq, Repr

namespace Clock

/-- A move of the thread or of the host, which may also set the timers. -/
inductive Action where
  | thread (action : Ticker.Action)
  | setDelay (value : UInt8)
  | setSound (value : UInt8)
  deriving DecidableEq, Repr

/-- The clock after an action, if the action can be taken; a host that waits sets nothing. -/
def step? (clock : Clock) : Action → Option Clock
  | .thread action =>
      (clock.ticker.step? action).map fun ticker =>
        { timers := if action = .tick then clock.timers.tick else clock.timers
          ticker := ticker }
  | .setDelay value =>
      if clock.ticker.stopping then none
      else some { clock with timers.delay := value }
  | .setSound value =>
      if clock.ticker.stopping then none
      else some { clock with timers.sound := value }

def run? (clock : Clock) : List Action → Option Clock
  | [] => some clock
  | action :: rest => (clock.step? action).bind fun next => next.run? rest

/-- Lets an interval elapse; only a thread that is alive takes notice of it. -/
def elapse (clock : Clock) : Clock :=
  (clock.step? (.thread .tick)).getD clock

end Clock

end Chip8
