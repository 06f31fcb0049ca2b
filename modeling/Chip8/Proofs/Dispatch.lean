import Chip8.Proofs.Guarded
import Chip8.Proofs.Numerals

/-! # Opcodes and the families that read them

The half bytes of an opcode are cut out of two bytes and put together again in several ways.
`Opcode.MadeOf` says that all of these agree, as numbers and bit by bit, and `Family.Converts`
says what a family makes of an opcode. As the classes of the families are all different and
there is a family for each, exactly one family takes an opcode, and `Opcode.decode` asks that
one.
-/

namespace Chip8

/-! ## The readings of a payload -/

/-- What a payload holds of an opcode, as numbers. -/
def Payload.Holds (opcode : Opcode) {shape : Shape} : Payload shape → Prop
  | .address nnn => nnn.val = 256 * opcode.x.val + 16 * opcode.y.val + opcode.n.val
  | .registerValue x nn => x = opcode.x ∧ nn.toNat = 16 * opcode.y.val + opcode.n.val
  | .operands x y n => x = opcode.x ∧ y = opcode.y ∧ n = opcode.n

theorem Payload.holds_iff {opcode : Opcode} {shape : Shape} {payload : Payload shape} :
    payload.Holds opcode ↔ payload = opcode.payload shape := by
  cases payload with
  | address nnn =>
      rw [Opcode.payload, Payload.address.injEq, ← Fin.val_inj]
      rfl
  | registerValue x nn =>
      rw [Opcode.payload, Payload.registerValue.injEq, ← UInt8.toNat_inj, Opcode.toNat_value]
      rfl
  | operands x y n =>
      rw [Opcode.payload, Payload.operands.injEq]
      rfl

namespace Opcode

/-! ## Two bytes -/

/-- An opcode holds the half bytes of two bytes, and what it reads off them is what the numbers
and the bits of the two bytes say. -/
structure MadeOf (opcode : Opcode) (high low : UInt8) : Prop where
  kind : opcode.kind.val = (high >>> 4).toNat
  x : opcode.x.val = (high &&& 0xF).toNat
  y : opcode.y.val = (low >>> 4).toNat
  n : opcode.n.val = (low &&& 0xF).toNat
  word : opcode.word.toNat = 256 * high.toNat + low.toNat
  wordOfKind : opcode.word.toNat = 4096 * opcode.kind.val + opcode.address.val
  readings : ∀ shape, (opcode.payload shape).Holds opcode
  addressBits : (Guarded.Bare.ofBytes high low).address = opcode.address.word
  valueBits : (Guarded.Bare.ofBytes high low).value = opcode.value
  wordBits : (Guarded.Bare.ofBytes high low).word = opcode.word
  familyBits : (Guarded.Bare.ofBytes high low).family = opcode.family

theorem val_high_eq (byte : UInt8) : (Nibble.high byte).val = (byte >>> 4).toNat := by
  rw [Guarded.shiftRight_four, Guarded.toNat_ofNat_nibble]

theorem val_low_eq (byte : UInt8) : (Nibble.low byte).val = (byte &&& 0xF).toNat := by
  rw [Guarded.and_fifteen, Guarded.toNat_ofNat_nibble]

theorem madeOf_ofBytes (high low : UInt8) : (ofBytes high low).MadeOf high low where
  kind := val_high_eq high
  x := val_low_eq high
  y := val_high_eq low
  n := val_low_eq low
  word := toNat_word_ofBytes high low
  wordOfKind := toNat_word _
  readings := fun _ => Payload.holds_iff.mpr rfl
  addressBits := by rw [Guarded.Bare.ofBytes_eq, Guarded.Bare.address_ofOpcode]
  valueBits := by rw [Guarded.Bare.ofBytes_eq, Guarded.Bare.value_ofOpcode]
  wordBits := by rw [Guarded.Bare.ofBytes_eq, Guarded.Bare.word_ofOpcode]
  familyBits := by rw [Guarded.Bare.ofBytes_eq, Guarded.Bare.family_ofOpcode]

theorem ofBytes_inj {high low high' low' : UInt8} :
    ofBytes high low = ofBytes high' low' ↔ high = high' ∧ low = low' := by
  constructor
  · intro same
    have word := toNat_word_ofBytes high low
    rw [same, toNat_word_ofBytes] at word
    have small := low.toNat_lt
    have small' := low'.toNat_lt
    exact ⟨UInt8.toNat_inj.mp (by omega), UInt8.toNat_inj.mp (by omega)⟩
  · rintro ⟨rfl, rfl⟩
    rfl

/-! ## The text -/

/-- The text of an opcode is its word in four hexadecimal digits, and reads back as the word. -/
structure Written (opcode : Opcode) : Prop where
  fourDigits : opcode.text.toList.length = 4
  denotes : Numeral.Denotes Hex.alphabet opcode.text.toList opcode.word.toNat
  read : Hex.read? opcode.text.toList = some opcode.word.toNat

theorem toList_text (opcode : Opcode) : opcode.text.toList = Hex.padded 4 opcode.word.toNat := by
  rw [text, Hex.text, String.toList_ofList]

theorem written (opcode : Opcode) : opcode.Written where
  fourDigits := by
    rw [toList_text]
    exact Hex.length_padded (Hex.length_digits_le_four opcode.word.toNat_lt)
  denotes := by
    rw [toList_text]
    exact (Hex.isPadded_padded (by decide) _).denotes
  read := by rw [toList_text, Hex.read?_padded]

theorem text_inj {left right : Opcode} : left.text = right.text ↔ left = right := by
  refine ⟨fun same => ?_, congrArg text⟩
  have read := left.written.read
  rw [same, right.written.read] at read
  rw [← ofWord_word left, ← UInt16.toNat_inj.mp (Option.some.inj read), ofWord_word]

end Opcode

/-! ## Families -/

/-- What a family makes of an opcode: it reads the payload of its own class, and refuses an
opcode of another class with both classes. -/
structure Family.Converts (family : Family) (opcode : Opcode) : Prop where
  accepts : ∀ payload,
    family.read opcode = .ok payload ↔ opcode.kind = family.kind ∧ payload.Holds opcode
  refuses : opcode.kind ≠ family.kind → ∃ got expected : UInt8,
    family.read opcode = .error (.wrongClass got expected) ∧
      got.toNat = opcode.kind.val ∧ expected.toNat = family.kind.val

theorem Family.converts (family : Family) (opcode : Opcode) : family.Converts opcode where
  accepts := by
    intro payload
    by_cases same : opcode.kind = family.kind
    · rw [read_eq_ok same, Except.ok.injEq, Payload.holds_iff]
      exact ⟨fun read => ⟨same, read.symm⟩, fun read => read.2.symm⟩
    · rw [read, if_neg same]
      exact ⟨nofun, fun read => absurd read.1 same⟩
  refuses := by
    intro other
    exact ⟨_, _, if_neg other, Guarded.toNat_ofNat_nibble _, Guarded.toNat_ofNat_nibble _⟩

/-- A family takes an opcode, and no other family does; what it reads is what is decoded. -/
structure Opcode.GoesTo (opcode : Opcode) (family : Family) : Prop where
  taken : ∃ payload, family.read opcode = .ok payload ∧
    opcode.decode = .ok (family.instruction payload)
  alone : ∀ other payload, other.read opcode = .ok payload → other = family

theorem Opcode.goesTo_family (opcode : Opcode) : opcode.GoesTo opcode.family where
  taken := ⟨_, Family.read_eq_ok opcode.kind_family.symm, opcode.decode_eq_ok⟩
  alone := by
    intro other payload read
    obtain ⟨kind, -⟩ := ((other.converts opcode).accepts payload).mp read
    rw [family, kind, Family.ofKind_kind]

/-- Opcodes keep the two bytes they are made of, in their parts, in all their readings and in
their text; every family converts the opcodes of its class and refuses the others, and every
opcode goes to one family. -/
theorem Opcode.decoding_is_faithful :
    (∀ high low : UInt8, (ofBytes high low).MadeOf high low) ∧
      (∀ high low high' low' : UInt8,
        (ofBytes high low = ofBytes high' low' ↔ high = high' ∧ low = low') ∧
          ((ofBytes high low).text = (ofBytes high' low').text ↔ high = high' ∧ low = low')) ∧
      ∀ opcode : Opcode,
        opcode.Written ∧ (∀ family : Family, family.Converts opcode) ∧
          opcode.GoesTo opcode.family := by
  refine ⟨madeOf_ofBytes, fun high low high' low' => ⟨ofBytes_inj, ?_⟩, fun opcode =>
    ⟨opcode.written, fun family => family.converts opcode, opcode.goesTo_family⟩⟩
  rw [text_inj, ofBytes_inj]

end Chip8
