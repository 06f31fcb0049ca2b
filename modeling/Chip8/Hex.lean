import Chip8.Numeral

/-!
# Hexadecimal text

Numbers written with upper-case hexadecimal digits and padded with zeros to a
least width, and the reading of such text. The main statement is
`read?_padded`: what is written reads back as the number, at every width.
-/

namespace Chip8.Hex

def alphabet : List Char :=
  ['0', '1', '2', '3', '4', '5', '6', '7', '8', '9', 'A', 'B', 'C', 'D', 'E', 'F']

def digit (value : Nat) : Char :=
  alphabet.getD value '0'

def value? : Char → Option Nat :=
  Numeral.value? alphabet

/-- The digits of a number, most significant first, without leading zeros. -/
def digits (n : Nat) : List Char :=
  if n < 16 then [digit n] else digits (n / 16) ++ [digit (n % 16)]

/-- The digits of a number behind as many zeros as a least width asks for. -/
def padded (width n : Nat) : List Char :=
  List.replicate (width - (digits n).length) '0' ++ digits n

def text (width n : Nat) : String :=
  String.ofList (padded width n)

def read? : List Char → Option Nat :=
  Numeral.read? alphabet

theorem value?_digit {v : Nat} (h : v < 16) : value? (digit v) = some v := by
  have all : ∀ i : Fin 16, value? (digit i) = some i.val := by decide
  exact all ⟨v, h⟩

theorem readFrom?_zeros (count : Nat) :
    Numeral.readFrom? alphabet 0 (List.replicate count '0') = some 0 := by
  have zero : Numeral.readFrom? alphabet 0 ['0'] = some 0 := by decide
  induction count with
  | zero => rfl
  | succ count ih => rw [List.replicate_succ', Numeral.readFrom?_append, ih, Option.bind_some, zero]

theorem read?_digits (n : Nat) : read? (digits n) = some n := by
  induction n using digits.induct with
  | case1 n small =>
      have first : Numeral.value? alphabet (digit n) = some n := value?_digit small
      rw [digits, if_pos small, read?, Numeral.read?, Numeral.readFrom?_singleton, first,
        Option.map_some, Nat.mul_zero, Nat.zero_add]
  | case2 n large ih =>
      have last : Numeral.value? alphabet (digit (n % 16)) = some (n % 16) :=
        value?_digit (Nat.mod_lt n (by decide))
      rw [read?, Numeral.read?] at ih ⊢
      rw [digits, if_neg large, Numeral.readFrom?_append, ih, Option.bind_some,
        Numeral.readFrom?_singleton, last, Option.map_some]
      exact congrArg some (Nat.div_add_mod n 16)

theorem read?_padded (width n : Nat) : read? (padded width n) = some n := by
  rw [read?, Numeral.read?, padded, Numeral.readFrom?_append, readFrom?_zeros, Option.bind_some]
  exact read?_digits n

end Chip8.Hex
