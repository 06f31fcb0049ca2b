import Chip8.Fault
import Chip8.Proofs.Sentences

/-! # Messages tell faults apart

The report of a fault is one of four readable sentences, and behind a halt stands the report of
its reason. `Fault.Reports` is the grammar of such texts, and the message of a fault is the only
text that reports it. As no two of the sentences open alike, `Fault.ofMessage?` finds the
sentence by its opening, reads its numbers and goes on with the reason; it accepts the messages
of faults and nothing else.
-/

namespace Chip8.Fault

/-! ## Forms -/

inductive Form where
  | outOfBounds
  | wrongClass
  | noSuchPin
  | halted
  deriving DecidableEq, Repr

namespace Form

def all : List Form :=
  [.outOfBounds, .wrongClass, .noSuchPin, .halted]

def opening : Form → String
  | .outOfBounds => "memory access out of bounds at address "
  | .wrongClass => "instruction class "
  | .noSuchPin => "input pin "
  | .halted => "program halted at "

/-- What follows the opening. Addresses have four digits at least, and classes and pins as many
as they need. -/
def body : Form → Sentence
  | .outOfBounds => [.number 4]
  | .wrongClass => [.number 1, .words " does not match the expected class ", .number 1]
  | .noSuchPin => [.number 1, .words " does not exist"]
  | .halted => [.number 4, .words ": "]

def sentence (form : Form) : Sentence :=
  .words form.opening :: form.body

def ofOpening? (cs : List Char) : Option (Form × List Char) :=
  all.findSome? fun form => (Sentence.behind? form.opening cs).map fun rest => (form, rest)

theorem mem_all (form : Form) : form ∈ all := by
  cases form <;> decide

theorem readable_body (form : Form) : form.body.Readable := by
  cases form <;> decide

theorem opening_ne_nil (form : Form) : form.opening.toList ≠ [] := by
  cases form <;> decide

theorem stops_opening (form : Form) (rest : List Char) :
    Hex.Stops (form.opening.toList ++ rest) := by
  cases form <;> rfl

/-- No opening begins another one. -/
theorem eq_of_opening_begins {form other : Form}
    (front : form.opening.toList <+: other.opening.toList) : form = other := by
  have apart : ∀ form ∈ all, ∀ other ∈ all,
      form.opening.toList <+: other.opening.toList → form = other := by
    decide
  exact apart form form.mem_all other other.mem_all front

theorem behind?_opening (form other : Form) (rest : List Char) :
    Sentence.behind? other.opening (form.opening.toList ++ rest) =
      if other = form then some rest else none := by
  split
  · rename_i same
    rw [same, Sentence.behind?_append]
  · rename_i differ
    refine if_neg fun front => differ ?_
    rcases List.prefix_or_prefix_of_prefix front (List.prefix_append _ rest) with within | within
    · exact eq_of_opening_begins within
    · exact (eq_of_opening_begins within).symm

theorem ofOpening?_append (form : Form) (rest : List Char) :
    ofOpening? (form.opening.toList ++ rest) = some (form, rest) := by
  simp only [ofOpening?, behind?_opening]
  cases form <;> rfl

theorem ofOpening?_sound {cs rest : List Char} {form : Form}
    (opens : ofOpening? cs = some (form, rest)) : cs = form.opening.toList ++ rest := by
  obtain ⟨other, -, found⟩ := List.exists_of_findSome?_eq_some opens
  obtain ⟨later, front, same⟩ := Option.map_eq_some_iff.mp found
  obtain ⟨rfl, rfl⟩ := Prod.mk.inj same
  exact Sentence.behind?_sound front

def read? (cs : List Char) : Option (Form × List Nat × List Char) :=
  (ofOpening? cs).bind fun opened =>
    (opened.1.body.read? opened.2).map fun read => (opened.1, read)

theorem read?_append {form : Form} {numbers : List Nat} {cs rest : List Char}
    (spells : form.sentence.Spells numbers cs) (stops : Hex.Stops rest) :
    read? (cs ++ rest) = some (form, numbers, rest) := by
  cases spells with
  | words spells =>
      rw [read?, List.append_assoc, ofOpening?_append, Option.bind_some,
        Sentence.read?_append spells form.readable_body stops]
      rfl

theorem read?_sound {form : Form} {numbers : List Nat} {cs rest : List Char}
    (read : read? cs = some (form, numbers, rest)) :
    ∃ own, form.sentence.Spells numbers own ∧ cs = own ++ rest := by
  obtain ⟨⟨form, later⟩, opens, found⟩ := Option.bind_eq_some_iff.mp read
  obtain ⟨⟨numbers, rest⟩, body, same⟩ := Option.map_eq_some_iff.mp found
  cases same
  obtain ⟨own, spells, rfl⟩ := Sentence.read?_sound form.readable_body body
  exact ⟨_, spells.words, by rw [ofOpening?_sound opens, List.append_assoc]⟩

theorem opening_append_of_spells {form : Form} {numbers : List Nat} {cs : List Char}
    (spells : form.sentence.Spells numbers cs) : ∃ rest, cs = form.opening.toList ++ rest := by
  cases spells with
  | words _ => exact ⟨_, rfl⟩

end Form

/-! ## Reports -/

def form : Fault → Form
  | .outOfBounds _ => .outOfBounds
  | .wrongClass _ _ => .wrongClass
  | .noSuchPin _ => .noSuchPin
  | .halted _ _ => .halted

/-- The numbers in the report of a fault, but not those in the report of its reason. -/
def numbers : Fault → List Nat
  | .outOfBounds address => [address]
  | .wrongClass got expected => [got.toNat, expected.toNat]
  | .noSuchPin pin => [pin.toNat]
  | .halted pc _ => [pc.toNat]

/-- A text reports a fault: it spells the numbers of the fault in the sentence of its form, and
behind a halt it goes on with a report of the reason. -/
inductive Reports : Fault → List Char → Prop where
  | cause {fault : Fault} {cs : List Char} (plain : fault.form ≠ .halted)
      (spells : fault.form.sentence.Spells fault.numbers cs) : Reports fault cs
  | halted {pc : UInt16} {reason : Fault} {cs rest : List Char}
      (spells : Form.halted.sentence.Spells [pc.toNat] cs) (reports : Reports reason rest) :
      Reports (.halted pc reason) (cs ++ rest)

theorem Reports.opens {fault : Fault} {cs : List Char} (reports : fault.Reports cs) :
    ∃ rest, cs = fault.form.opening.toList ++ rest := by
  cases reports with
  | cause _ spells => exact Form.opening_append_of_spells spells
  | halted spells _ =>
      obtain ⟨rest, rfl⟩ := Form.opening_append_of_spells spells
      exact ⟨_, List.append_assoc _ _ _⟩

theorem Reports.stops {fault : Fault} {cs : List Char} (reports : fault.Reports cs) :
    Hex.Stops cs := by
  obtain ⟨rest, rfl⟩ := reports.opens
  exact fault.form.stops_opening rest

theorem Reports.ne_nil {fault : Fault} {cs : List Char} (reports : fault.Reports cs) :
    cs ≠ [] := by
  obtain ⟨rest, rfl⟩ := reports.opens
  exact List.append_ne_nil_of_left_ne_nil fault.form.opening_ne_nil rest

theorem Reports.unique {fault : Fault} {cs cs' : List Char} (reports : fault.Reports cs)
    (reports' : fault.Reports cs') : cs = cs' := by
  induction reports generalizing cs' with
  | cause plain spells =>
      cases reports' with
      | cause _ spells' => exact spells.unique (Form.readable_body _) spells'
      | halted => exact absurd rfl plain
  | halted spells _ ih =>
      cases reports' with
      | cause plain _ => exact absurd rfl plain
      | halted spells' reports' => rw [spells.unique (Form.readable_body _) spells', ih reports']

theorem spells_number {width : Nat} {rest : Sentence} {numbers : List Nat} {cs : List Char}
    (positive : 0 < width) (n : Nat) (spells : rest.Spells numbers cs) :
    Sentence.Spells (.number width :: rest) (n :: numbers) ((Hex.marked width n).toList ++ cs) := by
  have marked : (Hex.marked width n).toList = "0x".toList ++ Hex.padded width n := by
    rw [Hex.marked, String.toList_append, Hex.text]
    exact congrArg _ String.toList_ofList
  rw [marked, List.append_assoc]
  exact .number (Hex.isPadded_padded positive n) spells

theorem reports_message (fault : Fault) : fault.Reports fault.message.toList := by
  induction fault with
  | outOfBounds address =>
      have words : message (.outOfBounds address) =
          "memory access out of bounds at address " ++ Hex.marked 4 address := rfl
      have spells : Form.outOfBounds.sentence.Spells [address] _ :=
        .words (spells_number (by decide) address .done)
      refine .cause nofun ?_
      simpa only [form, numbers, words, Form.opening, String.toList_append,
        List.append_nil] using spells
  | wrongClass got expected =>
      have words : message (.wrongClass got expected) =
          "instruction class " ++ Hex.marked 1 got.toNat ++
            " does not match the expected class " ++ Hex.marked 1 expected.toNat := rfl
      have spells : Form.wrongClass.sentence.Spells [got.toNat, expected.toNat] _ :=
        .words (spells_number (by decide) got.toNat
          (.words (spells_number (by decide) expected.toNat .done)))
      refine .cause nofun ?_
      simpa only [form, numbers, words, Form.opening, String.toList_append, List.append_assoc,
        List.append_nil] using spells
  | noSuchPin pin =>
      have words : message (.noSuchPin pin) =
          "input pin " ++ Hex.marked 1 pin.toNat ++ " does not exist" := rfl
      have spells : Form.noSuchPin.sentence.Spells [pin.toNat] _ :=
        .words (spells_number (by decide) pin.toNat (.words .done))
      refine .cause nofun ?_
      simpa only [form, numbers, words, Form.opening, String.toList_append, List.append_assoc,
        List.append_nil] using spells
  | halted pc reason ih =>
      have words : message (.halted pc reason) =
          "program halted at " ++ Hex.marked 4 pc.toNat ++ ": " ++ reason.message := rfl
      have spells : Form.halted.sentence.Spells [pc.toNat] _ :=
        .words (spells_number (by decide) pc.toNat (.words .done))
      have reports := Reports.halted spells ih
      simpa only [words, Form.opening, String.toList_append, List.append_assoc,
        List.nil_append] using reports

theorem reports_iff {fault : Fault} {cs : List Char} :
    fault.Reports cs ↔ cs = fault.message.toList := by
  constructor
  · exact fun reports => reports.unique fault.reports_message
  · rintro rfl
    exact fault.reports_message

/-! ## Reading a report -/

def byte? (n : Nat) : Option UInt8 :=
  if n < 256 then some (UInt8.ofNat n) else none

def word? (n : Nat) : Option UInt16 :=
  if n < 65536 then some (UInt16.ofNat n) else none

/-- The fault of a form with given numbers, if it has no other fault for its reason. -/
def cause? : Form → List Nat → Option Fault
  | .outOfBounds, [address] => some (.outOfBounds address)
  | .wrongClass, [got, expected] =>
      (byte? got).bind fun got => (byte? expected).map fun expected => .wrongClass got expected
  | .noSuchPin, [pin] => (byte? pin).map .noSuchPin
  | _, _ => none

theorem byte?_eq_some_iff {n : Nat} {byte : UInt8} : byte? n = some byte ↔ byte.toNat = n := by
  rw [byte?, Option.ite_none_right_eq_some, Option.some.injEq]
  constructor
  · rintro ⟨small, rfl⟩
    exact UInt8.toNat_ofNat_of_lt' small
  · rintro rfl
    exact ⟨byte.toNat_lt, UInt8.ofNat_toNat⟩

theorem word?_eq_some_iff {n : Nat} {word : UInt16} : word? n = some word ↔ word.toNat = n := by
  rw [word?, Option.ite_none_right_eq_some, Option.some.injEq]
  constructor
  · rintro ⟨small, rfl⟩
    exact UInt16.toNat_ofNat_of_lt' small
  · rintro rfl
    exact ⟨word.toNat_lt, UInt16.ofNat_toNat⟩

theorem cause?_eq_some_iff {form : Form} {numbers : List Nat} {fault : Fault} :
    cause? form numbers = some fault ↔
      fault.form ≠ .halted ∧ fault.form = form ∧ fault.numbers = numbers := by
  constructor
  · intro read
    unfold cause? at read
    split at read
    · cases read
      exact ⟨nofun, rfl, rfl⟩
    · obtain ⟨got, first, read⟩ := Option.bind_eq_some_iff.mp read
      obtain ⟨expected, second, rfl⟩ := Option.map_eq_some_iff.mp read
      rw [byte?_eq_some_iff] at first second
      exact ⟨nofun, rfl, by rw [Fault.numbers, first, second]⟩
    · obtain ⟨pin, first, rfl⟩ := Option.map_eq_some_iff.mp read
      rw [byte?_eq_some_iff] at first
      exact ⟨nofun, rfl, by rw [Fault.numbers, first]⟩
    · cases read
  · rintro ⟨plain, rfl, rfl⟩
    cases fault with
    | outOfBounds address => rfl
    | wrongClass got expected =>
        simp only [Fault.form, Fault.numbers, cause?, byte?_eq_some_iff.mpr rfl,
          Option.bind_some, Option.map_some]
    | noSuchPin pin =>
        simp only [Fault.form, Fault.numbers, cause?, byte?_eq_some_iff.mpr rfl, Option.map_some]
    | halted pc reason => exact absurd rfl plain

def halt? : Form → List Nat → Option UInt16
  | .halted, [pc] => word? pc
  | _, _ => none

theorem halt?_eq_some_iff {form : Form} {numbers : List Nat} {pc : UInt16} :
    halt? form numbers = some pc ↔ form = .halted ∧ numbers = [pc.toNat] := by
  constructor
  · intro read
    unfold halt? at read
    split at read
    · exact ⟨rfl, by rw [word?_eq_some_iff.mp read]⟩
    · cases read
  · rintro ⟨rfl, rfl⟩
    exact word?_eq_some_iff.mpr rfl

theorem length_lt_of_read? {cs rest : List Char} {form : Form} {numbers : List Nat}
    (read : Form.read? cs = some (form, numbers, rest)) : rest.length < cs.length := by
  obtain ⟨own, spells, rfl⟩ := Form.read?_sound read
  obtain ⟨body, rfl⟩ := Form.opening_append_of_spells spells
  have opening := List.length_pos_iff.mpr form.opening_ne_nil
  simp only [List.length_append]
  omega

/-- The fault that a text reports. Behind a halt stands the report of its reason. -/
def ofCharacters? (cs : List Char) : Option Fault :=
  match found : Form.read? cs with
  | none => none
  | some (form, numbers, rest) =>
      have : rest.length < cs.length := length_lt_of_read? found
      if rest = [] then cause? form numbers
      else (halt? form numbers).bind fun pc => (ofCharacters? rest).map (.halted pc)
termination_by cs.length

def ofMessage? (text : String) : Option Fault :=
  ofCharacters? text.toList

theorem ofCharacters?_of_read {cs rest : List Char} {form : Form} {numbers : List Nat}
    (read : Form.read? cs = some (form, numbers, rest)) :
    ofCharacters? cs =
      if rest = [] then cause? form numbers
      else (halt? form numbers).bind fun pc => (ofCharacters? rest).map (.halted pc) := by
  rw [ofCharacters?]
  split
  · rename_i missing
    cases read.symm.trans missing
  · rename_i found
    cases read.symm.trans found
    rfl

theorem ofCharacters?_sound {cs : List Char} {fault : Fault}
    (read : ofCharacters? cs = some fault) : fault.Reports cs := by
  induction cs using ofCharacters?.induct generalizing fault with
  | case1 cs missing =>
      rw [ofCharacters?] at read
      split at read
      · cases read
      · rename_i found
        cases missing.symm.trans found
  | case2 cs form numbers found shorter =>
      rw [ofCharacters?_of_read found, if_pos rfl] at read
      obtain ⟨plain, rfl, rfl⟩ := cause?_eq_some_iff.mp read
      obtain ⟨own, spells, rfl⟩ := Form.read?_sound found
      rw [List.append_nil]
      exact .cause plain spells
  | case3 cs form numbers rest found shorter more ih =>
      rw [ofCharacters?_of_read found, if_neg more] at read
      obtain ⟨pc, halt, read⟩ := Option.bind_eq_some_iff.mp read
      obtain ⟨reason, later, rfl⟩ := Option.map_eq_some_iff.mp read
      obtain ⟨rfl, rfl⟩ := halt?_eq_some_iff.mp halt
      obtain ⟨own, spells, rfl⟩ := Form.read?_sound found
      exact .halted spells (ih later)

theorem ofCharacters?_of_reports {cs : List Char} {fault : Fault}
    (reports : fault.Reports cs) : ofCharacters? cs = some fault := by
  induction reports with
  | @cause fault cs plain spells =>
      have ends : Hex.Stops [] := rfl
      have read := Form.read?_append spells ends
      rw [List.append_nil] at read
      rw [ofCharacters?_of_read read, if_pos rfl]
      exact cause?_eq_some_iff.mpr ⟨plain, rfl, rfl⟩
  | halted spells reports ih =>
      rw [ofCharacters?_of_read (Form.read?_append spells reports.stops), if_neg reports.ne_nil,
        halt?_eq_some_iff.mpr ⟨rfl, rfl⟩, ih]
      rfl

/-- The reader accepts the reports of faults and nothing else. -/
theorem ofMessage?_eq_some_iff {text : String} {fault : Fault} :
    ofMessage? text = some fault ↔ fault.Reports text.toList :=
  ⟨ofCharacters?_sound, ofCharacters?_of_reports⟩

/-! ## Faults and their messages -/

/-- A message tells its fault, however many halts are nested in it. The message of a fault is
the one text that reports the fault, and a fault is read off a text if it is its message; so
faults with the same message are the same. -/
theorem messages_tell_faults_apart :
    (∀ left right : Fault, left.message = right.message ↔ left = right) ∧
      ∀ (fault : Fault) (text : String),
        (fault.Reports text.toList ↔ text = fault.message) ∧
          (ofMessage? text = some fault ↔ text = fault.message) := by
  have reported : ∀ (fault : Fault) (text : String),
      fault.Reports text.toList ↔ text = fault.message :=
    fun fault text => reports_iff.trans String.toList_inj
  have read : ∀ (fault : Fault) (text : String),
      ofMessage? text = some fault ↔ text = fault.message :=
    fun fault text => ofMessage?_eq_some_iff.trans (reported fault text)
  refine ⟨fun left right => ⟨fun same => ?_, congrArg message⟩,
    fun fault text => ⟨reported fault text, read fault text⟩⟩
  have leftRead := (read left right.message).mpr same.symm
  have rightRead := (read right right.message).mpr rfl
  exact Option.some.inj (leftRead.symm.trans rightRead)

end Chip8.Fault
