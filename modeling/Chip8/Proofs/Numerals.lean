import Chip8.Hex

/-! # Numerals

A grammar says which lists of characters denote a number in the digits of an alphabet, without
regard to how numbers are written, and `Numeral.denotes_iff` says that these are the lists that
are read. Of the hexadecimal numerals of a number one is wide enough for a least width and wastes
no zero, and `isPadded_iff` says that it is the one that is written. Where no digit follows, a
number that was written is read off the front of a text again, and nothing else is
(`number?_append` and `number?_sound`).
-/

namespace Chip8

namespace Numeral

variable {alphabet : List Char}

/-- One or more digits denote a number; each digit stands for its place in the alphabet, and the
length of the alphabet is the base. Zeros may stand in front. -/
inductive Denotes (alphabet : List Char) : List Char → Nat → Prop where
  | single {c : Char} {v : Nat} (digit : alphabet[v]? = some c) : Denotes alphabet [c] v
  | append {front : List Char} {n : Nat} {c : Char} {v : Nat} (denotes : Denotes alphabet front n)
      (digit : alphabet[v]? = some c) : Denotes alphabet (front ++ [c]) (alphabet.length * n + v)

theorem value?_eq_some_iff (distinct : alphabet.Nodup) {c : Char} {v : Nat} :
    value? alphabet c = some v ↔ alphabet[v]? = some c := by
  constructor
  · intro read
    obtain ⟨inside, listed, -⟩ := List.idxOf?_eq_some_iff.mp read
    exact List.getElem?_eq_some_iff.mpr ⟨inside, listed⟩
  · intro digit
    obtain ⟨inside, listed⟩ := List.getElem?_eq_some_iff.mp digit
    refine List.idxOf?_eq_some_iff.mpr ⟨inside, listed, fun w before same => ?_⟩
    exact List.pairwise_iff_getElem.mp distinct w v _ inside before (same.trans listed.symm)

theorem readFrom?_of_digit (distinct : alphabet.Nodup) {c : Char} {v : Nat}
    (digit : alphabet[v]? = some c) (value : Nat) :
    readFrom? alphabet value [c] = some (alphabet.length * value + v) := by
  rw [readFrom?_singleton, (value?_eq_some_iff distinct).mpr digit]
  rfl

theorem Denotes.ne_nil {cs : List Char} {n : Nat} (denotes : Denotes alphabet cs n) :
    cs ≠ [] := by
  cases denotes <;> simp

theorem Denotes.read? (distinct : alphabet.Nodup) {cs : List Char} {n : Nat}
    (denotes : Denotes alphabet cs n) : read? alphabet cs = some n := by
  induction denotes with
  | single digit =>
      have value := readFrom?_of_digit distinct digit 0
      rwa [Nat.mul_zero, Nat.zero_add] at value
  | append _ digit ih =>
      rw [Numeral.read?, readFrom?_append]
      rw [Numeral.read?] at ih
      rw [ih, Option.bind_some]
      exact readFrom?_of_digit distinct digit _

/-- More digits behind a numeral make a numeral. -/
theorem Denotes.append_all (distinct : alphabet.Nodup) {front rest : List Char} {m n : Nat}
    (denotes : Denotes alphabet front m) (read : readFrom? alphabet m rest = some n) :
    Denotes alphabet (front ++ rest) n := by
  induction rest generalizing front m with
  | nil =>
      rw [List.append_nil, ← Option.some.inj read]
      exact denotes
  | cons c rest ih =>
      obtain ⟨v, digit, later⟩ := Option.bind_eq_some_iff.mp read
      rw [List.append_cons]
      exact ih (denotes.append ((value?_eq_some_iff distinct).mp digit)) later

theorem denotes_iff (distinct : alphabet.Nodup) {cs : List Char} {n : Nat} :
    Denotes alphabet cs n ↔ cs ≠ [] ∧ read? alphabet cs = some n := by
  constructor
  · exact fun denotes => ⟨denotes.ne_nil, denotes.read? distinct⟩
  · rintro ⟨nonempty, read⟩
    cases cs with
    | nil => exact absurd rfl nonempty
    | cons c rest =>
        obtain ⟨v, digit, later⟩ := Option.bind_eq_some_iff.mp read
        rw [Nat.mul_zero, Nat.zero_add] at later
        exact Denotes.append_all distinct (.single ((value?_eq_some_iff distinct).mp digit)) later

end Numeral

namespace Hex

open Numeral (Denotes)

/-! ## Digits -/

theorem nodup_alphabet : alphabet.Nodup := by
  decide

theorem length_alphabet : alphabet.length = 16 :=
  rfl

theorem getElem?_alphabet_iff {v : Nat} {c : Char} :
    alphabet[v]? = some c ↔ v < 16 ∧ c = digit v := by
  have all : ∀ i : Fin 16, alphabet[i.val]? = some (digit i.val) := by decide
  constructor
  · intro listed
    have small : v < 16 := (List.getElem?_eq_some_iff.mp listed).1
    exact ⟨small, Option.some.inj (listed.symm.trans (all ⟨v, small⟩))⟩
  · rintro ⟨small, rfl⟩
    exact all ⟨v, small⟩

theorem digits_of_small {v : Nat} (small : v < 16) : digits v = [digit v] := by
  rw [digits, if_pos small]

theorem digits_append {n v : Nat} (positive : 0 < n) (small : v < 16) :
    digits (16 * n + v) = digits n ++ [digit v] := by
  have front : (16 * n + v) / 16 = n := by omega
  have last : (16 * n + v) % 16 = v := by omega
  rw [digits, if_neg (by omega), front, last]

theorem digits_ne_nil (n : Nat) : digits n ≠ [] := by
  rw [digits]
  split <;> simp

theorem padded_ne_nil (width n : Nat) : padded width n ≠ [] := by
  simp [padded, digits_ne_nil]

theorem length_digits_le_succ {n k : Nat} (short : (digits (n / 16)).length ≤ k) :
    (digits n).length ≤ k + 1 := by
  rw [digits]
  split
  · exact Nat.le_add_left _ _
  · rw [List.length_append]
    exact Nat.add_le_add_right short 1

theorem length_digits_le_four {n : Nat} (small : n < 65536) : (digits n).length ≤ 4 := by
  have first : (digits (n / 16 / 16 / 16)).length ≤ 1 := by
    rw [digits_of_small (by omega)]
    exact Nat.le_refl 1
  exact length_digits_le_succ (length_digits_le_succ (length_digits_le_succ first))

theorem length_padded {width n : Nat} (short : (digits n).length ≤ width) :
    (padded width n).length = width := by
  rw [padded, List.length_append, List.length_replicate]
  omega

theorem padded_of_small {v : Nat} (small : v < 16) : padded 1 v = [digit v] := by
  rw [padded, digits_of_small small]
  rfl

theorem text_of_small {v : Nat} (small : v < 16) : text 1 v = String.singleton (digit v) := by
  rw [text, padded_of_small small]
  rfl

/-- Written side by side, a number and a digit are one number with one more digit. -/
theorem padded_append {width n v : Nat} (positive : 0 < width) (small : v < 16) :
    padded width n ++ padded 1 v = padded (width + 1) (16 * n + v) := by
  rw [padded_of_small small]
  rcases Nat.eq_zero_or_pos n with rfl | large
  · have zeros : padded width 0 = List.replicate width '0' := by
      obtain ⟨rest, rfl⟩ := Nat.exists_eq_succ_of_ne_zero (Nat.ne_of_gt positive)
      rw [padded, digits_of_small (by decide), List.replicate_succ']
      rfl
    rw [zeros, Nat.mul_zero, Nat.zero_add, padded, digits_of_small small]
    rfl
  · rw [padded, padded, digits_append large small, List.append_assoc, List.length_append,
      List.length_singleton, Nat.add_sub_add_right]

theorem text_append {width n v : Nat} (positive : 0 < width) (small : v < 16) :
    text width n ++ text 1 v = text (width + 1) (16 * n + v) := by
  rw [text, text, ← String.ofList_append, padded_append positive small]
  rfl

/-- Nothing but zero is written with a zero in front. -/
theorem head?_digits {n : Nat} (positive : 0 < n) : (digits n).head? ≠ some '0' := by
  have nonzero : ∀ i : Fin 16, 0 < i.val → digit i.val ≠ '0' := by decide
  induction n using digits.induct with
  | case1 n small =>
      rw [digits_of_small small, List.head?_cons]
      exact fun zero => nonzero ⟨n, small⟩ positive (Option.some.inj zero)
  | case2 n large ih =>
      obtain ⟨first, rest, front⟩ := List.exists_cons_of_ne_nil (digits_ne_nil (n / 16))
      rw [digits, if_neg large, front, List.cons_append, List.head?_cons]
      rw [front, List.head?_cons] at ih
      exact ih (by omega)

/-! ## What is written -/

/-- A numeral with as many digits as it needs, or with zeros in front up to a least width. -/
structure IsPadded (width n : Nat) (cs : List Char) : Prop where
  denotes : Denotes alphabet cs n
  wide : width ≤ cs.length
  tight : width < cs.length → cs.head? ≠ some '0'

/-- The numerals of a number differ in the zeros in front only. -/
theorem eq_zeros_append {cs : List Char} {n : Nat} (denotes : Denotes alphabet cs n) :
    ∃ zeros, cs = List.replicate zeros '0' ++ digits n := by
  induction denotes with
  | single digit =>
      obtain ⟨small, rfl⟩ := getElem?_alphabet_iff.mp digit
      exact ⟨0, (digits_of_small small).symm⟩
  | @append front n c v _ digit ih =>
      obtain ⟨zeros, rfl⟩ := ih
      obtain ⟨small, rfl⟩ := getElem?_alphabet_iff.mp digit
      rcases Nat.eq_zero_or_pos n with rfl | positive
      · -- The digit zero in front of the last digit is one more of the zeros.
        refine ⟨zeros + 1, ?_⟩
        rw [Nat.mul_zero, Nat.zero_add, digits_of_small small, digits_of_small (by decide),
          List.replicate_succ']
        rfl
      · exact ⟨zeros, by rw [length_alphabet, digits_append positive small, List.append_assoc]⟩

theorem isPadded_padded {width : Nat} (positive : 0 < width) (n : Nat) :
    IsPadded width n (padded width n) where
  denotes := (Numeral.denotes_iff nodup_alphabet).mpr
    ⟨padded_ne_nil width n, read?_padded width n⟩
  wide := by
    simp only [padded, List.length_append, List.length_replicate]
    omega
  tight := by
    intro wider
    have needed : width < (digits n).length := by
      simp only [padded, List.length_append, List.length_replicate] at wider
      omega
    have large : 0 < n := by
      rcases Nat.eq_zero_or_pos n with rfl | large
      · rw [digits_of_small (by decide), List.length_singleton] at needed
        omega
      · exact large
    rw [padded, Nat.sub_eq_zero_of_le (Nat.le_of_lt needed)]
    exact head?_digits large

/-- What is written to a least width is the one numeral that fits the width. -/
theorem isPadded_iff {width n : Nat} (positive : 0 < width) {cs : List Char} :
    IsPadded width n cs ↔ cs = padded width n := by
  constructor
  · rintro ⟨denotes, wide, tight⟩
    obtain ⟨zeros, rfl⟩ := eq_zeros_append denotes
    rw [List.length_append, List.length_replicate] at wide tight
    have filled : zeros = width - (digits n).length := by
      by_cases wider : width < zeros + (digits n).length
      · cases zeros with
        | zero => omega
        | succ zeros => exact absurd rfl (tight wider)
      · omega
    rw [padded, filled]
  · rintro rfl
    exact isPadded_padded positive n

/-! ## Numbers in front of a text -/

def isDigit (c : Char) : Bool :=
  (value? c).isSome

/-- The number in front of a text and what follows it, if the number is written to a least
width. -/
def number? (width : Nat) (cs : List Char) : Option (Nat × List Char) :=
  (read? (cs.takeWhile isDigit)).bind fun n =>
    if padded width n = cs.takeWhile isDigit then some (n, cs.dropWhile isDigit) else none

theorem isDigit_of_readFrom? {value n : Nat} {cs : List Char}
    (read : Numeral.readFrom? alphabet value cs = some n) : ∀ c ∈ cs, isDigit c := by
  induction cs generalizing value with
  | nil => nofun
  | cons c rest ih =>
      obtain ⟨v, digit, later⟩ := Option.bind_eq_some_iff.mp read
      intro other mem
      rcases List.mem_cons.mp mem with rfl | mem
      · rw [isDigit, value?, digit]
        rfl
      · exact ih later other mem

theorem isDigit_of_mem_padded {width n : Nat} : ∀ c ∈ padded width n, isDigit c :=
  isDigit_of_readFrom? (read?_padded width n)

def Stops (cs : List Char) : Prop :=
  cs.head?.any isDigit = false

theorem Stops.takeWhile {cs : List Char} (stops : Stops cs) : cs.takeWhile isDigit = [] := by
  cases cs with
  | nil => rfl
  | cons c rest => exact List.takeWhile_cons_of_neg (Bool.eq_false_iff.mp stops)

theorem Stops.dropWhile {cs : List Char} (stops : Stops cs) : cs.dropWhile isDigit = cs := by
  cases cs with
  | nil => rfl
  | cons c rest => exact List.dropWhile_cons_of_neg (Bool.eq_false_iff.mp stops)

theorem number?_append {rest : List Char} (stops : Stops rest) (width n : Nat) :
    number? width (padded width n ++ rest) = some (n, rest) := by
  unfold number?
  rw [List.takeWhile_append_of_pos isDigit_of_mem_padded,
    List.dropWhile_append_of_pos isDigit_of_mem_padded, stops.takeWhile, stops.dropWhile,
    List.append_nil, read?_padded]
  exact if_pos rfl

theorem number?_sound {width n : Nat} {cs rest : List Char}
    (read : number? width cs = some (n, rest)) : cs = padded width n ++ rest := by
  obtain ⟨m, -, kept⟩ := Option.bind_eq_some_iff.mp read
  obtain ⟨shown, same⟩ := Option.ite_none_right_eq_some.mp kept
  obtain ⟨rfl, rfl⟩ := Prod.mk.inj (Option.some.inj same)
  rw [shown, List.takeWhile_append_dropWhile]

end Hex

end Chip8
