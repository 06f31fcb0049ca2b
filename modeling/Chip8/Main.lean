import Chip8.Terminal.Playback

/-!
# Terminal program

Runs a program file and prints its frames. This layer reads the file, offers
random bytes, keeps the time and prints; all decisions are made below it.
-/

namespace Chip8.Terminal

/-- The number of an error; some reads report it as a negative number of 32 bits. -/
def errorCode (reported : UInt32) : Nat :=
  if reported.toNat < 0x80000000 then reported.toNat else UInt32.size - reported.toNat

def ReadFailure.ofError : IO.Error → ReadFailure
  | .alreadyExists _ code details => .ofCode (errorCode code) details
  | .otherError code details => .ofCode (errorCode code) details
  | .resourceBusy code details => .ofCode (errorCode code) details
  | .resourceVanished code details => .ofCode (errorCode code) details
  | .unsupportedOperation code details => .ofCode (errorCode code) details
  | .hardwareFault code details => .ofCode (errorCode code) details
  | .unsatisfiedConstraints code details => .ofCode (errorCode code) details
  | .illegalOperation code details => .ofCode (errorCode code) details
  | .protocolError code details => .ofCode (errorCode code) details
  | .timeExpired code details => .ofCode (errorCode code) details
  | .interrupted _ code details => .ofCode (errorCode code) details
  | .noFileOrDirectory _ code details => .ofCode (errorCode code) details
  | .invalidArgument _ code details => .ofCode (errorCode code) details
  | .permissionDenied _ code details => .ofCode (errorCode code) details
  | .resourceExhausted _ code details => .ofCode (errorCode code) details
  | .inappropriateType _ code details => .ofCode (errorCode code) details
  | .noSuchThing _ code details => .ofCode (errorCode code) details
  | .unexpectedEof => .ofCode 5 "unexpected end of file"
  | .userError details => .ofCode 5 details

def readProgram (path : String) : IO (Except ReadFailure (List UInt8)) := do
  try
    return .ok (← IO.FS.readBinFile path).toList
  catch error =>
    return .error (.ofError error)

partial def pause (millis : Nat) : IO Unit := do
  let most := 4000000000
  if millis ≤ most then
    IO.sleep millis.toUInt32
  else
    IO.sleep most.toUInt32
    pause (millis - most)

/-- Ticks the timers once for every interval that has elapsed. -/
def keepTime (playback : Playback) (ticks : Nat) : Playback :=
  ticks.repeat (fun current => (current.attempt .tickDelay).attempt .tickSound) playback

/-- Cycles and prints until the program halts. `ticked` intervals have been accounted for. -/
partial def play (options : Options) (began ticked : Nat) (playback : Playback) : IO UInt32 := do
  let elapsed := ((← IO.monoMsNow) - began) / Layout.tickMillis
  let random ← IO.rand 0 255
  let next := (keepTime playback (elapsed - ticked)).advance (UInt8.ofNat random)
  IO.print next.output
  (← IO.getStdout).flush
  match next.windUp.exit? with
  | some exit => return exit.code.toUInt32
  | none =>
      pause options.delay
      play options began elapsed { next with output := "" }

def refuse (error : StartError) : IO UInt32 := do
  IO.eprint error.exit.stderr
  return error.exit.code.toUInt32

end Chip8.Terminal

open Chip8.Terminal in
def main (arguments : List String) : IO UInt32 := do
  match ← Playback.startReading readProgram arguments with
  | .error error => refuse error
  | .ok (options, playback) => play options (← IO.monoMsNow) 0 playback
