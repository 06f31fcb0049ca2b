/-!
# Numerals

Numbers read off the digits of an alphabet. The place of a digit in the alphabet is
its value, and the length of the alphabet is the base.
-/

namespace Chip8.Numeral

variable (alphabet : List Char)

def value? (c : Char) : Option Nat :=
  alphabet.idxOf? c

/-- Reads on from the value of the digits before. -/
def readFrom? (value : Nat) : List Char → Option Nat
  | [] => some value
  | c :: rest =>
      (value? alphabet c).bind fun v => readFrom? (alphabet.length * value + v) rest

/-- The number that a list of digits denotes; the empty list denotes zero. -/
def read? (cs : List Char) : Option Nat :=
  readFrom? alphabet 0 cs

theorem readFrom?_append (value : Nat) (front back : List Char) :
    readFrom? alphabet value (front ++ back) =
      (readFrom? alphabet value front).bind fun n => readFrom? alphabet n back := by
  induction front generalizing value with
  | nil => rfl
  | cons c rest ih => cases h : value? alphabet c <;> simp [readFrom?, h, ih]

theorem readFrom?_singleton (value : Nat) (c : Char) :
    readFrom? alphabet value [c] =
      (value? alphabet c).map fun v => alphabet.length * value + v := by
  cases h : value? alphabet c <;> simp [readFrom?, h]

end Chip8.Numeral
