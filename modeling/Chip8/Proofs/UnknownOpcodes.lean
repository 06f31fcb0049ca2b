import Chip8.Proofs.Decoding
import Chip8.Proofs.Cycle
import Chip8.Proofs.Numerals

/-! # Opcodes that are passed over

Some words of six classes mean nothing to the machine, calls of machine code among them.
`Opcode.Ignored` lists them by their nibbles. A cycle on such a word moves on and writes one
line for debugging, at whose end the word can be read off; a cycle on any other word writes
no such line.
-/

namespace Chip8

/-! ## A number at the end of a line -/

namespace Hex

def trailingDigits (text : String) : List Char :=
  (text.toList.reverse.takeWhile fun c => (value? c).isSome).reverse

/-- The number that a text ends in; a text that ends in no digit ends in no number. -/
def trailing? (text : String) : Option Nat :=
  match trailingDigits text with
  | [] => none
  | digits => read? digits

/-- A number written behind something that is not a digit is the number that the text ends in. -/
theorem trailing?_append_text {front : String}
    (stops : front.toList.getLast?.bind value? = none) (width n : Nat) :
    trailing? (front ++ text width n) = some n := by
  have all : ∀ c ∈ (padded width n).reverse, (value? c).isSome = true := fun c mem =>
    isDigit_of_mem_padded c (List.mem_reverse.mp mem)
  have none : front.toList.reverse.takeWhile (fun c => (value? c).isSome) = [] := by
    rw [← List.head?_reverse] at stops
    cases reversed : front.toList.reverse with
    | nil => rfl
    | cons last rest =>
        rw [reversed] at stops
        have stops : value? last = Option.none := stops
        simp [stops]
  have digits : trailingDigits (front ++ text width n) = padded width n := by
    rw [trailingDigits, String.toList_append, text, String.toList_ofList, List.reverse_append,
      List.takeWhile_append_of_pos all, none, List.append_nil, List.reverse_reverse]
  unfold trailing?
  rw [digits]
  split
  · exact absurd ‹_› (padded_ne_nil width n)
  · exact read?_padded width n

end Hex

/-! ## Which opcodes they are -/

theorem Arithmetic.ofNibble?_eq_none_iff (n : Nibble) :
    ofNibble? n = none ↔ n.val ∈ [0x8, 0x9, 0xA, 0xB, 0xC, 0xD, 0xF] := by
  revert n
  decide

namespace Opcode

def Ignored (opcode : Opcode) : Prop :=
  (opcode.kind = 0x0 ∧ opcode.address.val ∉ [0x0E0, 0x0EE]) ∨
  (opcode.kind = 0x5 ∧ opcode.n ≠ 0) ∨
  (opcode.kind = 0x8 ∧ opcode.n.val ∈ [0x8, 0x9, 0xA, 0xB, 0xC, 0xD, 0xF]) ∨
  (opcode.kind = 0x9 ∧ opcode.n ≠ 0) ∨
  (opcode.kind = 0xE ∧ opcode.value.toNat ∉ [0x9E, 0xA1]) ∨
  (opcode.kind = 0xF ∧
    opcode.value.toNat ∉ [0x07, 0x0A, 0x15, 0x18, 0x1E, 0x29, 0x33, 0x55, 0x65])

theorem ignored_iff {opcode : Opcode} :
    opcode.Ignored ↔
      opcode.instruction = .routine opcode.address ∨
        opcode.instruction = .unknown opcode.unknown := by
  rw [instruction_eq_iff, instruction_eq_iff]
  simp only [Ignored, Encodes, Meaningless, Arithmetic.ofNibble?_eq_none_iff, true_and,
    List.mem_cons, List.not_mem_nil, or_false, not_or]

/-- What is logged of an opcode that is passed over: the address of a routine, and of anything
else the whole word. -/
def logged (opcode : Opcode) : Nat :=
  if opcode.kind = 0x0 then opcode.word.toNat % 4096 else opcode.word.toNat

theorem logged_of_zero {opcode : Opcode} (kind : opcode.kind = 0x0) :
    opcode.logged = opcode.address.val := by
  have word := opcode.toNat_word
  rw [logged, if_pos kind, word]
  exact (Nat.mul_add_mod ..).trans (Nat.mod_eq_of_lt opcode.address.isLt)

theorem Meaningless.kind_ne_zero {opcode : Opcode} (meaningless : opcode.Meaningless) :
    opcode.kind ≠ 0x0 := by
  rcases meaningless with ⟨kind, -⟩ | ⟨kind, -⟩ | ⟨kind, -⟩ | ⟨kind, -⟩ | ⟨kind, -⟩ <;>
    simp [kind]

end Opcode

/-! ## The line that is written -/

/-- Four half bytes are written side by side as the number of four digits that they make. -/
theorem Hex.text_nibbles (a b c d : Nibble) :
    text 1 a.val ++ text 1 b.val ++ text 1 c.val ++ text 1 d.val =
      text 4 (16 * (16 * (16 * a.val + b.val) + c.val) + d.val) := by
  rw [text_append (by decide) b.val_lt, text_append (by decide) c.val_lt,
    text_append (by decide) d.val_lt]

namespace UnknownOpcode

theorem text_operands (kind x y n : Nibble) :
    (operands (Hex.digit kind.val) x y n).text =
      Hex.text 4 (Payload.word kind (.operands x y n)).toNat := by
  have word : (Payload.word kind (.operands x y n)).toNat =
      16 * (16 * (16 * kind.val + x.val) + y.val) + n.val := by
    simp only [Payload.word, UInt16.toNat_ofNat']
    omega
  rw [word, ← Hex.text_nibbles, Hex.text_of_small kind.val_lt]
  rfl

theorem text_registerValue (kind x : Nibble) (nn : UInt8) :
    (registerValue (Hex.digit kind.val) x nn).text =
      Hex.text 4 (Payload.word kind (.registerValue x nn)).toNat := by
  have halves : 16 * (Nibble.high nn).val + (Nibble.low nn).val = nn.toNat :=
    Nat.div_add_mod nn.toNat 16
  have byte : Hex.text 2 nn.toNat =
      Hex.text 1 (Nibble.high nn).val ++ Hex.text 1 (Nibble.low nn).val := by
    rw [Hex.text_append (by decide) (Nibble.low nn).val_lt, halves]
  have word : (Payload.word kind (.registerValue x nn)).toNat =
      16 * (16 * (16 * kind.val + x.val) + (Nibble.high nn).val) + (Nibble.low nn).val := by
    simp only [Payload.word, UInt16.toNat_ofNat']
    omega
  rw [word, ← Hex.text_nibbles, Hex.text_of_small kind.val_lt, text, byte, String.append_assoc,
    String.append_assoc, String.append_assoc]

end UnknownOpcode

/-- The digits of an opcode are those of its class, of its half bytes and of its byte side by
side, whichever of these its family reads. -/
theorem Opcode.text_unknown (opcode : Opcode) : opcode.unknown.text = opcode.text := by
  unfold Opcode.unknown
  split
  · rw [UnknownOpcode.text_operands, Opcode.text, ← Payload.word_payload opcode .operands]
    rfl
  · rw [UnknownOpcode.text_registerValue, Opcode.text,
      ← Payload.word_payload opcode .registerValue]
    rfl

/-- A notice is the line for debugging in which an opcode can be read. -/
structure Notice.Remarks (notice : Notice) (opcode : Opcode) : Prop where
  level : notice.level = .debug
  number : Hex.trailing? notice.text = some opcode.logged

theorem Notice.Remarks.machineRoutine {opcode : Opcode} (kind : opcode.kind = 0x0) :
    (Notice.machineRoutine opcode.address).Remarks opcode where
  level := rfl
  number := by
    have split : (Notice.machineRoutine opcode.address).text =
        "Ignoring machine code routine call to " ++ "0x" ++ Hex.text 3 opcode.address.val := by
      rw [String.append_assoc]
      rfl
    rw [split, Hex.trailing?_append_text (by decide), Opcode.logged_of_zero kind]

theorem Notice.Remarks.unknownOpcode {opcode : Opcode} (kind : opcode.kind ≠ 0x0) :
    (Notice.unknownOpcode opcode.unknown).Remarks opcode where
  level := rfl
  number := by
    have split : (Notice.unknownOpcode opcode.unknown).text =
        "Ignoring unknown opcode " ++ opcode.unknown.text := rfl
    rw [split, Opcode.text_unknown, Opcode.text, Hex.trailing?_append_text (by decide),
      Opcode.logged, if_neg kind]

namespace Machine

/-- Whatever the machine, an opcode to ignore does nothing but write its line. -/
theorem execute_of_ignored {opcode : Opcode} (ignored : opcode.Ignored) :
    ∃ notice : Notice, notice.Remarks opcode ∧
      ∀ (machine : Machine) random,
        machine.execute random opcode.instruction = ⟨machine, none, [notice], false⟩ := by
  rcases Opcode.ignored_iff.mp ignored with decoded | decoded
  · obtain ⟨kind, -⟩ := Opcode.instruction_eq_iff.mp decoded
    rw [decoded]
    exact ⟨_, .machineRoutine kind, fun _ _ => rfl⟩
  · obtain ⟨-, meaningless⟩ := Opcode.instruction_eq_iff.mp decoded
    rw [decoded]
    exact ⟨_, .unknownOpcode meaningless.kind_ne_zero, fun _ _ => rfl⟩

theorem level_noticesOf_ne_debug {opcode : Opcode} (known : ¬ opcode.Ignored)
    {machine : Machine} {notice : Notice}
    (noticed : notice ∈ machine.noticesOf opcode.instruction) : notice.level ≠ .debug := by
  rcases mem_noticesOf noticed with rfl | ⟨nnn, decoded, -⟩ | ⟨shown, decoded, -⟩
  · simp [Notice.level]
  · obtain ⟨-, rfl, -⟩ := Opcode.instruction_eq_iff.mp decoded
    exact absurd (Opcode.ignored_iff.mpr (.inl decoded)) known
  · obtain ⟨rfl, -⟩ := Opcode.instruction_eq_iff.mp decoded
    exact absurd (Opcode.ignored_iff.mpr (.inr decoded)) known

theorem level_cycle_ne_debug {machine : Machine} {random : UInt8} {notice : Notice}
    (known : ¬ machine.opcodeAtPc.Ignored)
    (noticed : notice ∈ (machine.cycle random).notices) : notice.level ≠ .debug := by
  rcases mem_notices_cycle noticed with rfl | executed | ⟨fault, rfl⟩
  · simp [Notice.level]
  · exact level_noticesOf_ne_debug known executed
  · simp [Notice.level]

end Machine

namespace Console

/-- An opcode without a meaning is passed over: the cycle succeeds, nothing but the program
counter changes, and behind the record of the fetch stands one line for debugging that ends in
the digits of the opcode. No other opcode leads to a line for debugging. -/
theorem unknown_opcodes_are_passed_over {console : Console} {opcode : Opcode}
    (running : console.machine.fault = none) (fetched : console.machine.fetch = .ok opcode)
    (random : UInt8) :
    (opcode.Ignored →
      (console.machine.pc + 2).toNat = console.machine.pc.toNat + 2 ∧
      ∃ notice : Notice,
        console.cycle random =
          ⟨{ console with machine.pc := console.machine.pc + 2 }, .done,
            [.fetched console.machine.pc opcode.word, notice], none⟩ ∧
        (console.cycle random).notices.map Notice.level = [.trace, .debug] ∧
        Hex.trailing? notice.text = some opcode.logged) ∧
      (¬ opcode.Ignored → ∀ notice ∈ (console.cycle random).notices, notice.level ≠ .debug) := by
  obtain ⟨inside, rfl⟩ := Machine.fetch_eq_ok_iff.mp fetched
  constructor
  · intro ignored
    have room : console.machine.pc.toNat + 2 < 65536 := by omega
    obtain ⟨notice, remarks, executes⟩ := Machine.execute_of_ignored ignored
    have turn : console.cycle random =
        ⟨{ console with machine.pc := console.machine.pc + 2 }, .done,
          [.fetched console.machine.pc console.machine.opcodeAtPc.word, notice], none⟩ := by
      rw [cycle, Machine.cycle_of_running running, Machine.attempt_of_inside inside, executes]
      rfl
    have levels : (console.cycle random).notices.map Notice.level = [.trace, .debug] := by
      rw [turn, List.map_cons, List.map_cons, remarks.level]
      rfl
    exact ⟨Machine.toNat_pc_advance room, notice, turn, levels, remarks.number⟩
  · intro known notice noticed
    rcases mem_notices_proceed noticed with noticed | rfl
    · exact Machine.level_cycle_ne_debug known noticed
    · simp [Notice.level]

/-- A byte below 0x10 keeps its zero: 0xE005 reads back from its line as it was fetched. The
opcode behind it means something and leads to no such line. -/
theorem passes_over_padded_word :
    let console := (create.load [0xE0, 0x05, 0x6A, 0x0F]).console
    let next := { console with machine.pc := 0x202 }
    (∃ notice : Notice,
      console.cycle 0 = ⟨next, .done, [.fetched 0x200 0xE005, notice], none⟩ ∧
        Hex.trailing? notice.text = some 0xE005) ∧
      ∀ notice ∈ (next.cycle 0).notices, notice.level ≠ .debug := by
  intro console next
  have fetched : console.machine.fetch = .ok ⟨0xE, 0, 0, 5⟩ :=
    Machine.fetch_eq_ok_iff.mpr ⟨by decide, by decide +kernel⟩
  have fetchedNext : next.machine.fetch = .ok ⟨6, 0xA, 0, 0xF⟩ :=
    Machine.fetch_eq_ok_iff.mpr ⟨by decide, by decide +kernel⟩
  have ignored : Opcode.Ignored ⟨0xE, 0, 0, 5⟩ := by
    unfold Opcode.Ignored
    decide
  have known : ¬ Opcode.Ignored ⟨6, 0xA, 0, 0xF⟩ := by
    unfold Opcode.Ignored
    decide
  obtain ⟨-, notice, turn, -, number⟩ := (unknown_opcodes_are_passed_over rfl fetched 0).1 ignored
  exact ⟨⟨notice, turn, number⟩, (unknown_opcodes_are_passed_over rfl fetchedNext 0).2 known⟩

end Console

end Chip8
