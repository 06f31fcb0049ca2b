import Chip8.Machine.Cycle

/-! # Guarded work

The work of a cycle on bare arrays and numbers. Nothing is in range by its type here:
every element, every range, every copy and every sum that could leave its bounds is
checked where it is used, and a check that fails ends the work in a `Trap` instead of an
effect. That no check ever fails is shown in the module on safety.
-/

namespace Chip8.Guarded

/-! ## Checks -/

/-- What would take the host down. -/
inductive Trap where
  /-- An element behind the end of an array. -/
  | index
  /-- A range that ends before it starts or behind the end of its array. -/
  | range
  /-- A copy between ranges of different lengths. -/
  | length
  /-- A number that is too large for its type. -/
  | overflow
  deriving DecidableEq, Repr

def shortLimit : Nat := 65536

/-- The bound of numbers that count elements; they have thirty-two bits or more. -/
def longLimit : Nat := 4294967296

/-- A sum or a product whose type holds the numbers below a limit. -/
def bounded (limit n : Nat) : Except Trap Nat :=
  if n < limit then .ok n else .error .overflow

def element {α : Type} (cells : List α) (i : Nat) : Except Trap α :=
  match cells[i]? with
  | some value => .ok value
  | none => .error .index

def replace {α : Type} {size : Nat} (cells : Vector α size) (i : Nat) (value : α) :
    Except Trap (Vector α size) :=
  if inside : i < size then .ok (cells.set i value inside) else .error .index

def slice {α : Type} (cells : List α) (start stop : Nat) : Except Trap (List α) :=
  if start ≤ stop ∧ stop ≤ cells.length then
    .ok ((cells.drop start).take (stop - start))
  else
    .error .range

def replaceWithin {α : Type} {size : Nat} (cells : Vector α size) (start stop i : Nat)
    (value : α) : Except Trap (Vector α size) :=
  if i < stop - start then replace cells (start + i) value else .error .index

/-- An array with the elements from a place on replaced, for as long as there are new ones. -/
def splice {α : Type} {size : Nat} (cells : Vector α size) (start : Nat) (source : List α) :
    Vector α size :=
  Vector.ofFn fun i => if start ≤ i.val then source.getD (i.val - start) cells[i] else cells[i]

def copyInto {α : Type} {size : Nat} (cells : Vector α size) (start stop : Nat)
    (source : List α) : Except Trap (Vector α size) :=
  if start ≤ stop ∧ stop ≤ size then
    if source.length = stop - start then .ok (splice cells start source) else .error .length
  else
    .error .range

def throughBuffer {α : Type} {size : Nat} (buffer : Vector α size) (count : Nat)
    (source : List α) : Except Trap (List α) := do
  let filled ← copyInto buffer 0 count source
  slice filled.toList 0 count

@[simp] theorem ok_bind {α β : Type} (value : α) (next : α → Except Trap β) :
    (Except.ok value >>= next) = next value :=
  rfl

theorem bounded_eq {limit n : Nat} (small : n < limit) : bounded limit n = .ok n :=
  if_pos small

theorem element_eq {α : Type} {cells : List α} {i : Nat} (inside : i < cells.length) :
    element cells i = .ok cells[i] := by
  rw [element, List.getElem?_eq_getElem inside]

theorem element_toList {α : Type} {size : Nat} (cells : Vector α size) {i : Nat}
    (inside : i < size) : element cells.toList i = .ok cells[i] := by
  rw [element_eq (by rwa [Vector.length_toList]), Vector.getElem_toList]

theorem replace_eq {α : Type} {size : Nat} (cells : Vector α size) {i : Nat} (value : α)
    (inside : i < size) : replace cells i value = .ok (cells.set i value inside) :=
  dif_pos inside

theorem slice_eq {α : Type} {cells : List α} {start stop : Nat} (ordered : start ≤ stop)
    (inside : stop ≤ cells.length) :
    slice cells start stop = .ok ((cells.drop start).take (stop - start)) :=
  if_pos ⟨ordered, inside⟩

theorem copyInto_eq {α : Type} {size start stop : Nat} (cells : Vector α size) {source : List α}
    (inside : stop ≤ size) (whole : start + source.length = stop) :
    copyInto cells start stop source = .ok (splice cells start source) := by
  rw [copyInto, if_pos ⟨by omega, inside⟩, if_pos (by omega)]

theorem getElem_splice {α : Type} {size start i : Nat} (cells : Vector α size) (source : List α)
    (inside : i < size) :
    (splice cells start source)[i] =
      if start ≤ i then source.getD (i - start) cells[i] else cells[i] := by
  simp only [splice, Vector.getElem_ofFn, Fin.getElem_fin]

theorem throughBuffer_eq {α : Type} {size count : Nat} (buffer : Vector α size) {source : List α}
    (fits : count ≤ size) (whole : source.length = count) :
    throughBuffer buffer count source = .ok source := by
  subst whole
  rw [throughBuffer, copyInto_eq buffer fits (Nat.zero_add _), ok_bind,
    slice_eq (Nat.zero_le _) (by rwa [Vector.length_toList])]
  refine congrArg Except.ok (List.ext_getElem ?_ ?_)
  · rw [List.length_take, List.length_drop, Vector.length_toList]
    omega
  · intro k inside inside'
    rw [List.getElem_take, List.getElem_drop, Vector.getElem_toList, getElem_splice]
    simp [inside']

/-! ## Opcodes -/

/-- The half bytes of an opcode, each in a whole byte that could hold more. -/
structure Bare where
  kind : UInt8
  x : UInt8
  y : UInt8
  n : UInt8

namespace Bare

def ofBytes (high low : UInt8) : Bare :=
  ⟨high >>> 4, high &&& 0xF, low >>> 4, low &&& 0xF⟩

def address (bare : Bare) : UInt16 :=
  bare.x.toUInt16 <<< 8 ||| bare.y.toUInt16 <<< 4 ||| bare.n.toUInt16

def value (bare : Bare) : UInt8 :=
  bare.y <<< 4 ||| bare.n

def word (bare : Bare) : UInt16 :=
  bare.kind.toUInt16 <<< 12 ||| bare.address

-- A notice holds half bytes by its type. The parts are half bytes already, so that `low` only
-- changes the type here.

def ignoredOperands (bare : Bare) (digit : Char) (machine : Machine) : Effect :=
  ⟨machine, none,
    [.unknownOpcode (.operands digit (.low bare.x) (.low bare.y) (.low bare.n))], false⟩

def ignoredValue (bare : Bare) (digit : Char) (machine : Machine) : Effect :=
  ⟨machine, none, [.unknownOpcode (.registerValue digit (.low bare.x) bare.value)], false⟩

def ofOpcode (opcode : Opcode) : Bare where
  kind := UInt8.ofNat opcode.kind.val
  x := UInt8.ofNat opcode.x.val
  y := UInt8.ofNat opcode.y.val
  n := UInt8.ofNat opcode.n.val

end Bare

theorem toNat_ofNat_nibble (nibble : Nibble) : (UInt8.ofNat nibble.val).toNat = nibble.val := by
  rw [UInt8.toNat_ofNat']
  exact Nat.mod_eq_of_lt (Nat.lt_trans nibble.val_lt (by decide))

theorem low_ofNat_nibble (nibble : Nibble) : Nibble.low (UInt8.ofNat nibble.val) = nibble := by
  apply Fin.ext
  rw [Nibble.val_low, toNat_ofNat_nibble]
  exact Nat.mod_eq_of_lt nibble.val_lt

theorem shiftRight_four (byte : UInt8) : byte >>> 4 = UInt8.ofNat (Nibble.high byte).val := by
  apply UInt8.toNat_inj.mp
  rw [toNat_ofNat_nibble, UInt8.toNat_shiftRight, Nat.shiftRight_eq_div_pow]
  rfl

theorem and_fifteen (byte : UInt8) : byte &&& 0xF = UInt8.ofNat (Nibble.low byte).val := by
  apply UInt8.toNat_inj.mp
  rw [toNat_ofNat_nibble, UInt8.toNat_and]
  exact Nat.and_two_pow_sub_one_eq_mod byte.toNat 4

namespace Bare

theorem ofBytes_eq (high low : UInt8) : ofBytes high low = ofOpcode (.ofBytes high low) := by
  simp only [ofBytes, ofOpcode, Opcode.ofBytes, shiftRight_four, and_fifteen]

theorem value_ofOpcode (opcode : Opcode) : (ofOpcode opcode).value = opcode.value := by
  apply UInt8.toNat_inj.mp
  have all : ∀ y n : Nibble,
      (UInt8.ofNat y.val <<< 4 ||| UInt8.ofNat n.val).toNat = 16 * y.val + n.val := by decide
  rw [Opcode.toNat_value]
  exact all opcode.y opcode.n

theorem toNat_nibble (nibble : Nibble) :
    (UInt8.ofNat nibble.val).toUInt16.toNat = nibble.val := by
  rw [UInt8.toNat_toUInt16, toNat_ofNat_nibble]

/-- No bit of half a byte is lost when it moves up by three half bytes at most. -/
theorem toNat_nibble_shiftLeft (nibble : Nibble) {count : UInt16} (short : count.toNat ≤ 12) :
    ((UInt8.ofNat nibble.val).toUInt16 <<< count).toNat = nibble.val <<< count.toNat := by
  have fits : nibble.val <<< count.toNat < 2 ^ 16 := by
    have power := Nat.pow_le_pow_right (show 0 < 2 by decide) short
    rw [Nat.shiftLeft_eq]
    exact Nat.lt_of_le_of_lt (Nat.mul_le_mul (Nat.le_of_lt_succ nibble.val_lt) power) (by decide)
  have count_eq : count.toNat % 16 = count.toNat := Nat.mod_eq_of_lt (by omega)
  rw [UInt16.toNat_shiftLeft, toNat_nibble, count_eq, Nat.mod_eq_of_lt fits]

theorem address_ofOpcode (opcode : Opcode) :
    (ofOpcode opcode).address = opcode.address.word := by
  have y := opcode.y.val_lt
  have n := opcode.n.val_lt
  have low : opcode.y.val <<< 4 ||| opcode.n.val = 16 * opcode.y.val + opcode.n.val := by
    rw [← Nat.shiftLeft_add_eq_or_of_lt n, Nat.shiftLeft_eq, Nat.mul_comm]
  have below : 16 * opcode.y.val + opcode.n.val < 2 ^ 8 := by omega
  apply UInt16.toNat_inj.mp
  rw [Address.toNat_word, address, UInt16.or_assoc, UInt16.toNat_or, UInt16.toNat_or]
  simp only [ofOpcode]
  rw [toNat_nibble_shiftLeft _ (by decide), toNat_nibble_shiftLeft _ (by decide), toNat_nibble]
  simp only [UInt16.reduceToNat, Opcode.address]
  rw [low, ← Nat.shiftLeft_add_eq_or_of_lt below, Nat.shiftLeft_eq]
  omega

theorem word_ofOpcode (opcode : Opcode) : (ofOpcode opcode).word = opcode.word := by
  have below : opcode.address.val < 2 ^ 12 := opcode.address.isLt
  apply UInt16.toNat_inj.mp
  rw [Opcode.toNat_word, word, address_ofOpcode, UInt16.toNat_or, Address.toNat_word]
  simp only [ofOpcode]
  rw [toNat_nibble_shiftLeft _ (by decide)]
  simp only [UInt16.reduceToNat]
  rw [← Nat.shiftLeft_add_eq_or_of_lt below, Nat.shiftLeft_eq]
  omega

@[simp] theorem toNat_kind (opcode : Opcode) :
    (ofOpcode opcode).kind.toNat = opcode.kind.val :=
  toNat_ofNat_nibble opcode.kind

@[simp] theorem toNat_x (opcode : Opcode) : (ofOpcode opcode).x.toNat = opcode.x.val :=
  toNat_ofNat_nibble opcode.x

@[simp] theorem toNat_y (opcode : Opcode) : (ofOpcode opcode).y.toNat = opcode.y.val :=
  toNat_ofNat_nibble opcode.y

@[simp] theorem toNat_n (opcode : Opcode) : (ofOpcode opcode).n.toNat = opcode.n.val :=
  toNat_ofNat_nibble opcode.n

end Bare

/-! ## Registers and memory -/

def get (machine : Machine) (r : Nat) : Except Trap UInt8 :=
  element machine.registers.values.toList r

def put (machine : Machine) (r : Nat) (value : UInt8) : Except Trap Machine := do
  let values ← replace machine.registers.values r value
  .ok { machine with registers := ⟨values⟩ }

/-- The bounds of a range of memory; a range past the end of memory is a fault, not a trap. -/
def range (start : UInt16) (size : Nat) : Except Trap (Except Fault (Nat × Nat)) := do
  let stop ← bounded longLimit (start.toNat + size)
  if 4096 < stop then
    .ok (.error (.outOfBounds (max start.toNat 4096)))
  else
    .ok (.ok (start.toNat, stop))

def withRange (machine : Machine) (size : Nat) (next : Nat → Nat → Except Trap Effect) :
    Except Trap Effect := do
  match ← range machine.index size with
  | .ok (start, stop) => next start stop
  | .error fault => .ok (.refused machine fault)

/-! ## Sprites -/

def flagHit (machine : Machine) (lit : Bool) : Except Trap Machine :=
  if lit then put machine 15 1 else .ok machine

def invert (machine : Machine) (row column : Nat) : Except Trap Machine := do
  let above ← bounded longLimit (row * Layout.displayWidth)
  let place ← bounded longLimit (above + column)
  let lit ← element machine.display.pixels.toList place
  let machine ← flagHit machine lit
  let pixels ← replace machine.display.pixels place (!lit)
  .ok { machine with display := ⟨pixels⟩ }

/-- Draws the last pixels of a row, each with its own bit of the mask, up to the right edge. -/
def drawRow (machine : Machine) (x row : Nat) (bits : UInt8) (offset : Nat) (mask : UInt8) :
    Nat → Except Trap Machine
  | 0 => .ok machine
  | count + 1 => do
      let column ← bounded longLimit (x + offset)
      if Layout.displayWidth ≤ column then
        .ok machine
      else
        let machine ← if bits &&& mask ≠ 0 then invert machine row column else .ok machine
        drawRow machine x row bits (offset + 1) (mask >>> 1) count

def drawRows (machine : Machine) (x y offset : Nat) : List UInt8 → Except Trap Machine
  | [] => .ok machine
  | bits :: rest => do
      let row ← bounded longLimit (y + offset)
      if Layout.displayHeight ≤ row then
        .ok machine
      else
        let machine ← drawRow machine x row bits 0 0x80 8
        drawRows machine x y (offset + 1) rest

/-- Draws a sprite, which is read into a buffer of fifteen rows first. -/
def draw (machine : Machine) (bare : Bare) : Except Trap Effect := do
  let x ← get machine bare.x.toNat
  let y ← get machine bare.y.toNat
  let n := bare.n.toNat
  withRange machine n fun start stop => do
    let source ← slice machine.memory.cells.toList start stop
    let rows ← throughBuffer (Vector.replicate 15 0) n source
    let machine ← put machine 15 0
    let left := x.toNat % Layout.displayWidth
    let top := y.toNat % Layout.displayHeight
    let machine ← drawRows machine left top 0 rows
    .ok ⟨machine, none, [], true⟩

/-! ## Instructions -/

def system (machine : Machine) (bare : Bare) : Effect :=
  match bare.address.toNat with
  | 0x0E0 => .silent { machine with display := .blank }
  | 0x0EE =>
      let popped := machine.stack.pop
      ⟨{ machine with stack := popped.rest, pc := popped.address }, none, popped.notices, false⟩
  | nnn =>
      -- The remainder is for the type of the notice; three half bytes stay below it.
      ⟨machine, none, [.machineRoutine ⟨nnn % 4096, Nat.mod_lt nnn (by decide)⟩], false⟩

def skipOnValue (machine : Machine) (bare : Bare) (condition : UInt8 → UInt8 → Bool) :
    Except Trap Effect := do
  let a ← get machine bare.x.toNat
  .ok (.silent (machine.skipIf (condition a bare.value)))

def skipOnRegisters (machine : Machine) (bare : Bare) (digit : Char)
    (condition : UInt8 → UInt8 → Bool) : Except Trap Effect := do
  if bare.n.toNat = 0 then
    let a ← get machine bare.x.toNat
    let b ← get machine bare.y.toNat
    .ok (.silent (machine.skipIf (condition a b)))
  else
    .ok (bare.ignoredOperands digit machine)

def addValue (machine : Machine) (bare : Bare) : Except Trap Effect := do
  let a ← get machine bare.x.toNat
  let machine ← put machine bare.x.toNat (a + bare.value)
  .ok (.silent machine)

def assign (machine : Machine) (bare : Bare) (value : UInt8) : Except Trap Effect := do
  let machine ← put machine bare.x.toNat value
  .ok (.silent machine)

def combine (machine : Machine) (bare : Bare) (operation : Arithmetic) :
    Except Trap Effect := do
  let a ← get machine bare.x.toNat
  let b ← get machine bare.y.toNat
  let machine ← put machine bare.x.toNat (operation.value a b)
  match operation.flag? a b with
  | some flag => do
      let machine ← put machine 15 (if flag then 1 else 0)
      .ok (.silent machine)
  | none => .ok (.silent machine)

def arithmetic (machine : Machine) (bare : Bare) : Except Trap Effect :=
  match bare.n.toNat with
  | 0x0 => combine machine bare .copy
  | 0x1 => combine machine bare .or
  | 0x2 => combine machine bare .and
  | 0x3 => combine machine bare .xor
  | 0x4 => combine machine bare .add
  | 0x5 => combine machine bare .subtract
  | 0x6 => combine machine bare .shiftRight
  | 0x7 => combine machine bare .subtractFrom
  | 0xE => combine machine bare .shiftLeft
  | _ => .ok (bare.ignoredOperands '8' machine)

def jumpOffset (machine : Machine) (bare : Bare) : Except Trap Effect := do
  let offset ← get machine 0
  let target ← bounded longLimit (bare.address.toNat + offset.toNat)
  if 4096 ≤ target then
    .ok (.refused machine (.outOfBounds target))
  else
    .ok (.silent { machine with pc := UInt16.ofNat target })

def skipPin (machine : Machine) (bare : Bare) : Except Trap Effect := do
  let a ← get machine bare.x.toNat
  let pin := (a &&& 0xF).toNat
  match bare.value.toNat with
  | 0x9E => do
      let isSet ← element machine.keypad.pins.toList pin
      .ok (.silent (machine.skipIf isSet))
  | 0xA1 => do
      let isSet ← element machine.keypad.pins.toList pin
      .ok (.silent (machine.skipIf (!isSet)))
  | _ => .ok (bare.ignoredValue 'E' machine)

def firstSet (machine : Machine) : List Nat → Except Trap (Option Nat)
  | [] => .ok none
  | pin :: rest => do
      let isSet ← element machine.keypad.pins.toList pin
      if isSet then .ok (some pin) else firstSet machine rest

def awaitPin (machine : Machine) (bare : Bare) : Except Trap Effect := do
  match ← firstSet machine (List.range Layout.pinCount) with
  | some pin => assign machine bare (UInt8.ofNat pin)
  | none => .ok (.silent machine.tryAgain)

def glyph (machine : Machine) (bare : Bare) : Except Trap Effect := do
  let a ← get machine bare.x.toNat
  let offset ← bounded shortLimit ((a &&& 0xF).toNat * 5)
  let start ← bounded shortLimit (0x50 + offset)
  .ok (.silent { machine with index := UInt16.ofNat start })

def decimal (machine : Machine) (bare : Bare) : Except Trap Effect := do
  let a ← get machine bare.x.toNat
  withRange machine 3 fun start stop => do
    let _ ← slice machine.memory.cells.toList start stop
    let cells ← replaceWithin machine.memory.cells start stop 0 (a / 100)
    let cells ← replaceWithin cells start stop 1 (a / 10 % 10)
    let cells ← replaceWithin cells start stop 2 (a % 10)
    .ok (.silent { machine with memory := ⟨cells⟩ })

def save (machine : Machine) (bare : Bare) : Except Trap Effect := do
  let size ← bounded longLimit (bare.x.toNat + 1)
  withRange machine size fun start stop => do
    let source ← slice machine.registers.values.toList 0 size
    let cells ← copyInto machine.memory.cells start stop source
    .ok (.silent { machine with memory := ⟨cells⟩ })

/-- Loads registers through a buffer of their own size. -/
def restore (machine : Machine) (bare : Bare) : Except Trap Effect := do
  let size ← bounded longLimit (bare.x.toNat + 1)
  withRange machine size fun start stop => do
    let source ← slice machine.memory.cells.toList start stop
    let loaded ← throughBuffer (Vector.replicate Layout.registerCount 0) size source
    let values ← copyInto machine.registers.values 0 size loaded
    .ok (.silent { machine with registers := ⟨values⟩ })

def peripheral (machine : Machine) (bare : Bare) (byte : Nat) : Except Trap Effect :=
  match byte with
  | 0x07 => assign machine bare machine.timers.delay
  | 0x0A => awaitPin machine bare
  | 0x15 => do
      let a ← get machine bare.x.toNat
      .ok (.silent { machine with timers.delay := a })
  | 0x18 => do
      let a ← get machine bare.x.toNat
      .ok (.silent { machine with timers.sound := a })
  | 0x1E => do
      let a ← get machine bare.x.toNat
      .ok (.silent { machine with index := machine.index + a.toUInt16 })
  | 0x29 => glyph machine bare
  | 0x33 => decimal machine bare
  | 0x55 => save machine bare
  | 0x65 => restore machine bare
  | _ => .ok (bare.ignoredValue 'F' machine)

/-! ## Cycles -/

def Bare.family (bare : Bare) : Family :=
  match bare.kind.toNat with
  | 0x0 => .system
  | 0x1 => .jump
  | 0x2 => .call
  | 0x3 => .skipIfValue
  | 0x4 => .skipUnlessValue
  | 0x5 => .skipIfSame
  | 0x6 => .setValue
  | 0x7 => .addValue
  | 0x8 => .arithmetic
  | 0x9 => .skipUnlessSame
  | 0xA => .setIndex
  | 0xB => .jumpOffset
  | 0xC => .random
  | 0xD => .draw
  | 0xE => .skipPin
  | _ => .peripheral

theorem Bare.family_ofOpcode (opcode : Opcode) : (ofOpcode opcode).family = opcode.family := by
  rw [Bare.family, toNat_kind, ← opcode.kind_family]
  cases opcode.family <;> rfl

def work (machine : Machine) (random : UInt8) (bare : Bare) : Family → Except Trap Effect
  | .system => .ok (system machine bare)
  | .jump => .ok (.silent { machine with pc := bare.address })
  | .call =>
      let stack := machine.stack.push machine.pc
      .ok (.silent { machine with stack := stack, pc := bare.address })
  | .skipIfValue => skipOnValue machine bare fun a b => a == b
  | .skipUnlessValue => skipOnValue machine bare fun a b => a != b
  | .skipIfSame => skipOnRegisters machine bare '5' fun a b => a == b
  | .setValue => assign machine bare bare.value
  | .addValue => addValue machine bare
  | .arithmetic => arithmetic machine bare
  | .skipUnlessSame => skipOnRegisters machine bare '9' fun a b => a != b
  | .setIndex => .ok (.silent { machine with index := bare.address })
  | .jumpOffset => jumpOffset machine bare
  | .random => assign machine bare (random &&& bare.value)
  | .draw => draw machine bare
  | .skipPin => skipPin machine bare
  | .peripheral => peripheral machine bare bare.value.toNat

/-- Hands an opcode to a family, which refuses it if it is of another class. -/
def perform (machine : Machine) (random : UInt8) (bare : Bare) : Except Trap Effect :=
  let expected := UInt8.ofNat bare.family.kind.val
  if bare.kind = expected then
    work machine random bare bare.family
  else
    .ok (.refused machine (.wrongClass bare.kind expected))

def execute (machine : Machine) (random : UInt8) (word : UInt16) : Except Trap Effect :=
  perform machine random (.ofBytes (word >>> 8).toUInt8 word.toUInt8)

def fetch (machine : Machine) : Except Trap (Except Fault Bare) := do
  match ← range machine.pc 2 with
  | .error fault => .ok (.error fault)
  | .ok (start, stop) => do
      let bytes ← slice machine.memory.cells.toList start stop
      let high ← element bytes 0
      let low ← element bytes 1
      .ok (.ok (.ofBytes high low))

def attempt (machine : Machine) (random : UInt8) : Except Trap Effect := do
  match ← fetch machine with
  | .ok bare => do
      let effect ← perform machine.advance random bare
      .ok (effect.noting (.fetched machine.pc bare.word))
  | .error fault => .ok (.refused machine fault)

def cycle (machine : Machine) (random : UInt8) : Except Trap Effect :=
  match machine.fault with
  | some fault => .ok (.refused machine fault)
  | none => do
      let effect ← attempt machine random
      .ok (effect.haltedAt machine.pc)

end Chip8.Guarded
