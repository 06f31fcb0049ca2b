import Chip8.Layout
import Chip8.Fault

/-!
# Memory

The 4096 bytes of memory, seen through `byte`, and the spans of addresses that an
access may take. An access is checked once, by `Span.check`; a span that exists
lies inside memory.
-/

namespace Chip8

structure Span where
  start : Nat
  size : Nat
  fits : start + size ≤ 4096
  deriving DecidableEq

namespace Span

def stop (span : Span) : Nat :=
  span.start + span.size

/--
The span of `size` addresses from `start` on. An access past the end of memory is
refused at the first address that does not exist.
-/
def check (start : UInt16) (size : Nat) : Except Fault Span :=
  if fits : start.toNat + size ≤ 4096 then
    .ok ⟨start.toNat, size, fits⟩
  else
    .error (.outOfBounds (max start.toNat 4096))

theorem check_eq_ok {start : UInt16} {size : Nat} (fits : start.toNat + size ≤ 4096) :
    check start size = .ok ⟨start.toNat, size, fits⟩ :=
  dif_pos fits

theorem check_eq_error {start : UInt16} {size : Nat} (past : 4096 < start.toNat + size) :
    check start size = .error (.outOfBounds (max start.toNat 4096)) :=
  dif_neg (Nat.not_le.mpr past)

end Span

@[ext] structure Memory where
  cells : Vector UInt8 4096
  deriving DecidableEq

namespace Memory

def blank : Memory :=
  ⟨Vector.replicate 4096 0⟩

/-- The byte at an address; zero behind the end of memory. -/
def byte (memory : Memory) (address : Nat) : UInt8 :=
  if inside : address < 4096 then memory.cells[address] else 0

/-- Writes one byte; behind the end of memory nothing is written. -/
def set (memory : Memory) (address : Nat) (value : UInt8) : Memory :=
  ⟨memory.cells.setIfInBounds address value⟩

def store (memory : Memory) (start : Nat) : List UInt8 → Memory
  | [] => memory
  | value :: rest => (memory.set start value).store (start + 1) rest

def read (memory : Memory) (span : Span) : List UInt8 :=
  (List.range span.size).map fun k => memory.byte (span.start + k)

@[simp] theorem byte_blank (address : Nat) : blank.byte address = 0 := by
  by_cases h : address < 4096 <;> simp [blank, byte, h]

theorem byte_set {address : Nat} (inside : address < 4096) (memory : Memory) (value : UInt8)
    (other : Nat) :
    (memory.set address value).byte other =
      if other = address then value else memory.byte other := by
  by_cases h : other < 4096
  · simp [set, byte, h, Vector.getElem_setIfInBounds, eq_comm]
  · simp [byte, h, show other ≠ address by omega]

/-- A stored run of bytes replaces the bytes at its own addresses and no others. -/
theorem byte_store (memory : Memory) {start : Nat} {bytes : List UInt8}
    (fits : start + bytes.length ≤ 4096) (address : Nat) :
    (memory.store start bytes).byte address =
      if start ≤ address ∧ address < start + bytes.length then
        bytes.getD (address - start) 0
      else
        memory.byte address := by
  induction bytes generalizing memory start with
  | nil =>
      rw [if_neg (by simp only [List.length_nil]; omega)]
      rfl
  | cons value rest ih =>
      simp only [List.length_cons] at fits ⊢
      rw [store, ih _ (by omega), byte_set (by omega)]
      rcases Nat.lt_trichotomy address start with below | rfl | above
      · rw [if_neg (by omega), if_neg (by omega), if_neg (by omega)]
      · rw [if_neg (by omega), if_pos rfl, if_pos (by omega)]
        simp
      · obtain ⟨k, rfl⟩ : ∃ k, address = start + 1 + k := ⟨address - start - 1, by omega⟩
        have shift : start + 1 + k - start = k + 1 := by omega
        have low : start + 1 + k - (start + 1) = k := by omega
        rw [shift, low, if_neg (show ¬ start + 1 + k = start by omega), List.getD_cons_succ]
        by_cases inside : k < rest.length
        · rw [if_pos (by omega), if_pos (by omega)]
        · rw [if_neg (by omega), if_neg (by omega)]

@[simp] theorem length_read (memory : Memory) (span : Span) :
    (memory.read span).length = span.size := by
  simp [read]

theorem read_congr {left right : Memory} {span : Span}
    (same : ∀ address, span.start ≤ address → address < span.stop →
      left.byte address = right.byte address) : left.read span = right.read span := by
  apply List.map_congr_left
  intro k listed
  have := List.mem_range.mp listed
  exact same _ (Nat.le_add_right _ _) (Nat.add_lt_add_left this _)

/-- What is stored in a whole span is read back from it. -/
theorem read_store (memory : Memory) {span : Span} {bytes : List UInt8}
    (whole : bytes.length = span.size) : (memory.store span.start bytes).read span = bytes := by
  have fits := span.fits
  apply List.ext_getElem
  · rw [length_read, whole]
  · intro k inside inside'
    simp only [read, List.getElem_map, List.getElem_range]
    rw [byte_store _ (by omega), if_pos (by omega), Nat.add_sub_cancel_left]
    exact (List.getElem_eq_getD 0).symm

/-- A span inside another one reads a part of what that one reads. -/
theorem read_within (memory : Memory) (outer inner : Span) {offset : Nat}
    (starts : inner.start = outer.start + offset) (ends : offset + inner.size ≤ outer.size) :
    memory.read inner = ((memory.read outer).drop offset).take inner.size := by
  apply List.ext_getElem
  · rw [List.length_take, List.length_drop, length_read, length_read]
    omega
  · intro k inside inside'
    simp only [read, List.getElem_take, List.getElem_drop, List.getElem_map, List.getElem_range,
      starts, Nat.add_assoc]

theorem ext_byte {left right : Memory}
    (same : ∀ address < 4096, left.byte address = right.byte address) : left = right := by
  apply Memory.ext
  apply Vector.ext
  intro i h
  simpa only [byte, h, dite_true] using same i h

end Memory

end Chip8
