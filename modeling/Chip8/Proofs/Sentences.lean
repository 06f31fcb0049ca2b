import Chip8.Proofs.Numerals

/-! # Sentences with numbers

A sentence is made of words and of places for hexadecimal numbers, and `Sentence.Spells` is the
grammar of the texts that say it. If what follows a number never begins with a digit, the
sentence is readable: its numbers are read off the front of a text again, whatever follows
(`Sentence.read?_append`), and only a text that spells the sentence is read
(`Sentence.read?_sound`).
-/

namespace Chip8

/-- A piece of a sentence: words as they stand, or a place for a number of a least width. -/
inductive Piece where
  | words (text : String)
  | number (width : Nat)
  deriving DecidableEq, Repr

abbrev Sentence := List Piece

namespace Sentence

/-- A text is a sentence with numbers in its places, in hexadecimal digits. -/
inductive Spells : Sentence → List Nat → List Char → Prop where
  | done : Spells [] [] []
  | words {text : String} {rest : Sentence} {numbers : List Nat} {cs : List Char}
      (spells : Spells rest numbers cs) : Spells (.words text :: rest) numbers (text.toList ++ cs)
  | number {width n : Nat} {rest : Sentence} {numbers : List Nat} {shown cs : List Char}
      (padded : Hex.IsPadded width n shown) (spells : Spells rest numbers cs) :
      Spells (.number width :: rest) (n :: numbers) ("0x".toList ++ (shown ++ cs))

def behind? (words : String) (cs : List Char) : Option (List Char) :=
  if words.toList <+: cs then some (cs.drop words.toList.length) else none

def read? : Sentence → List Char → Option (List Nat × List Char)
  | [], cs => some ([], cs)
  | .words text :: rest, cs => (behind? text cs).bind (read? rest)
  | .number width :: rest, cs =>
      (behind? "0x" cs).bind fun digits =>
        (Hex.number? width digits).bind fun front =>
          (read? rest front.2).map fun later => (front.1 :: later.1, later.2)

/-- A sentence is over or goes on with words that begin with no digit. -/
def OpensApart : Sentence → Bool
  | [] => true
  | .words text :: _ => text.toList.head?.any fun c => !Hex.isDigit c
  | .number _ :: _ => false

/-- Every place for a number has a width, and behind it the sentence goes on apart from it. -/
def Readable : Sentence → Bool
  | [] => true
  | .words _ :: rest => Readable rest
  | .number width :: rest => 0 < width && OpensApart rest && Readable rest

theorem behind?_append (words : String) (rest : List Char) :
    behind? words (words.toList ++ rest) = some rest := by
  rw [behind?, if_pos (List.prefix_append _ _), List.drop_left]

theorem behind?_sound {words : String} {cs rest : List Char}
    (read : behind? words cs = some rest) : cs = words.toList ++ rest := by
  obtain ⟨front, dropped⟩ := Option.ite_none_right_eq_some.mp read
  rw [← Option.some.inj dropped]
  exact (List.prefix_iff_eq_append.mp front).symm

theorem readable_number {width : Nat} {rest : Sentence} :
    Readable (.number width :: rest) ↔ 0 < width ∧ OpensApart rest ∧ Readable rest := by
  simp only [Readable, Bool.and_eq_true, decide_eq_true_eq, and_assoc]

theorem Spells.stops {sentence : Sentence} {numbers : List Nat} {cs rest : List Char}
    (spells : Spells sentence numbers cs) (apart : OpensApart sentence) (stops : Hex.Stops rest) :
    Hex.Stops (cs ++ rest) := by
  cases spells with
  | done => exact stops
  | @words text =>
      rw [OpensApart] at apart
      unfold Hex.Stops
      cases first : text.toList with
      | nil => simp [first] at apart
      | cons c later =>
          rw [first] at apart
          simpa using apart
  | number => cases apart

/-- The numbers of a sentence can be read off it, if no number meets a digit. -/
theorem read?_append {sentence : Sentence} {numbers : List Nat} {cs rest : List Char}
    (spells : Spells sentence numbers cs) (readable : Readable sentence) (stops : Hex.Stops rest) :
    read? sentence (cs ++ rest) = some (numbers, rest) := by
  induction spells with
  | done => rfl
  | words _ ih =>
      rw [read?, List.append_assoc, behind?_append]
      exact ih readable
  | @number width n _ _ _ _ padded spells ih =>
      obtain ⟨positive, apart, readable⟩ := readable_number.mp readable
      rw [(Hex.isPadded_iff positive).mp padded, read?, List.append_assoc, List.append_assoc,
        behind?_append, Option.bind_some, Hex.number?_append (spells.stops apart stops),
        Option.bind_some, ih readable]
      rfl

theorem read?_sound {sentence : Sentence} {numbers : List Nat} {cs rest : List Char}
    (readable : Readable sentence) (read : read? sentence cs = some (numbers, rest)) :
    ∃ own, Spells sentence numbers own ∧ cs = own ++ rest := by
  induction sentence generalizing numbers cs with
  | nil =>
      obtain ⟨rfl, rfl⟩ := Prod.mk.inj (Option.some.inj read)
      exact ⟨[], .done, rfl⟩
  | cons piece sentence ih =>
      cases piece with
      | words text =>
          obtain ⟨later, front, read⟩ := Option.bind_eq_some_iff.mp read
          obtain ⟨own, spells, rfl⟩ := ih readable read
          exact ⟨_, spells.words, by rw [behind?_sound front, List.append_assoc]⟩
      | number width =>
          obtain ⟨positive, -, readable⟩ := readable_number.mp readable
          obtain ⟨digits, mark, read⟩ := Option.bind_eq_some_iff.mp read
          obtain ⟨⟨n, later⟩, front, read⟩ := Option.bind_eq_some_iff.mp read
          obtain ⟨⟨rest', tail⟩, behind, same⟩ := Option.map_eq_some_iff.mp read
          obtain ⟨rfl, rfl⟩ := Prod.mk.inj same
          obtain ⟨own, spells, rfl⟩ := ih readable behind
          exact ⟨_, spells.number (Hex.isPadded_padded positive n),
            by rw [behind?_sound mark, Hex.number?_sound front, List.append_assoc,
              List.append_assoc]⟩

/-- There is one way to say a sentence with given numbers. -/
theorem Spells.unique {sentence : Sentence} {numbers : List Nat} {cs cs' : List Char}
    (spells : Spells sentence numbers cs) (readable : Readable sentence)
    (spells' : Spells sentence numbers cs') : cs = cs' := by
  induction spells generalizing cs' with
  | done => cases spells'; rfl
  | words _ ih =>
      cases spells' with
      | words spells' => rw [ih readable spells']
  | number padded _ ih =>
      obtain ⟨positive, -, readable⟩ := readable_number.mp readable
      cases spells' with
      | number padded' spells' =>
          rw [ih readable spells', (Hex.isPadded_iff positive).mp padded,
            (Hex.isPadded_iff positive).mp padded']

end Sentence

end Chip8
