import Chip8.Fault

/-!
# Options

The arguments of the terminal program: the path of a program file and, if given,
the delay between two cycles. Further arguments have no meaning. A start can
fail in three ways, and each has one line of report.
-/

namespace Chip8.Terminal

def delayLimit : Nat := UInt64.size

def decimalValue (digits : List Char) : Nat :=
  digits.foldl (fun value digit => 10 * value + (digit.toNat - '0'.toNat)) 0

def withoutPlus : List Char → List Char
  | '+' :: rest => rest
  | cs => cs

/--
Reads a delay: one or more decimal digits, behind a plus sign or none, that denote
a number below the limit.
-/
def delay? (text : String) : Option Nat :=
  let digits := withoutPlus text.toList
  if !digits.isEmpty && digits.all Char.isDigit && decide (decimalValue digits < delayLimit) then
    some (decimalValue digits)
  else
    none

structure Options where
  path : String
  /-- Milliseconds between two cycles. -/
  delay : Nat
  deriving DecidableEq, Repr

/-- Why a file could not be read, in the words and the number of the operating system. -/
structure ReadFailure where
  description : String
  code : Nat
  deriving DecidableEq, Repr

def systemDescriptions : List (Nat × String) :=
  [(1, "Operation not permitted"),
   (2, "No such file or directory"),
   (4, "Interrupted system call"),
   (5, "Input/output error"),
   (6, "No such device or address"),
   (12, "Cannot allocate memory"),
   (13, "Permission denied"),
   (20, "Not a directory"),
   (21, "Is a directory"),
   (22, "Invalid argument"),
   (23, "Too many open files in system"),
   (24, "Too many open files"),
   (26, "Text file busy"),
   (36, "File name too long"),
   (40, "Too many levels of symbolic links")]

/-- The failure of an error number; a number that is not listed keeps the words it came with. -/
def ReadFailure.ofCode (code : Nat) (otherwise : String) : ReadFailure :=
  ⟨(systemDescriptions.lookup code).getD otherwise, code⟩

inductive StartError where
  /-- There is no path, or the delay is not a number. -/
  | usage
  | unreadable (path : String) (failure : ReadFailure)
  | refused (refusal : LoadRefusal)
  deriving DecidableEq, Repr

def StartError.message : StartError → String
  | .usage => "Usage: chip8_terminal <path-to-program> [cycle-delay-ms]"
  | .unreadable path failure =>
      "Could not read program " ++ path ++ ": " ++ failure.description ++
        " (os error " ++ toString failure.code ++ ")"
  | .refused refusal => refusal.message

structure Exit where
  code : Nat
  stdout : String
  stderr : String
  deriving DecidableEq, Repr

/-- A failed start prints its report and nothing else. -/
def StartError.exit (error : StartError) : Exit :=
  ⟨1, "", error.message ++ "\n"⟩

namespace Options

def defaultDelay : Nat := 100

def ofArguments : List String → Except StartError Options
  | [] => .error .usage
  | [path] => .ok ⟨path, defaultDelay⟩
  | path :: text :: _ =>
      match delay? text with
      | some delay => .ok ⟨path, delay⟩
      | none => .error .usage

end Options

end Chip8.Terminal
