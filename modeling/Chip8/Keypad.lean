import Chip8.Fault
import Chip8.Layout

/-!
# Keypad

The sixteen input pins, usually wired to the keys. A program sees them through
`get` and `lowest?`; the host sets them one by one and clears them together.
-/

namespace Chip8

@[ext] structure Keypad where
  pins : Vector Bool Layout.pinCount
  deriving DecidableEq

namespace Keypad

def clear : Keypad :=
  ⟨Vector.replicate Layout.pinCount false⟩

def get (keypad : Keypad) (pin : Nibble) : Bool :=
  getElem keypad.pins pin.val pin.val_lt

def set (keypad : Keypad) (pin : UInt8) (value : Bool) : Except Fault Keypad :=
  if within : pin.toNat < Layout.pinCount then
    .ok ⟨keypad.pins.set pin.toNat value⟩
  else
    .error (.noSuchPin pin)

def lowest? (keypad : Keypad) : Option Nibble :=
  (List.finRange Layout.pinCount).find? keypad.get

@[simp] theorem get_clear (pin : Nibble) : clear.get pin = false := by
  simp [clear, get]

theorem lowest?_eq_none_iff (keypad : Keypad) : keypad.lowest? = none ↔ keypad = clear := by
  constructor
  · intro none
    apply Keypad.ext
    apply Vector.ext
    intro i h
    have unset := List.find?_eq_none.mp none ⟨i, h⟩ (List.mem_finRange _)
    simpa [get, clear] using unset
  · rintro rfl
    apply List.find?_eq_none.mpr
    intro pin _
    simp

/-- The pin that a program sees is set, and none below it is. -/
theorem lowest_spec {keypad : Keypad} {pin : Nibble} (found : keypad.lowest? = some pin) :
    keypad.get pin = true ∧ ∀ lower < pin, keypad.get lower = false := by
  obtain ⟨isSet, place, inside, listed, before⟩ := List.find?_eq_some_iff_getElem.mp found
  rw [List.getElem_finRange] at listed
  subst listed
  refine ⟨isSet, ?_⟩
  intro lower below
  have unset := before lower.val below
  rw [List.getElem_finRange] at unset
  simpa using unset

theorem lowest_of_get {keypad : Keypad} {pin : Nibble} (set : keypad.get pin = true) :
    ∃ lowest, keypad.lowest? = some lowest := by
  cases found : keypad.lowest? with
  | some lowest => exact ⟨lowest, rfl⟩
  | none =>
      rw [lowest?_eq_none_iff] at found
      simp [found] at set

theorem set_eq_error_iff (keypad : Keypad) (pin : UInt8) (value : Bool) :
    keypad.set pin value = .error (.noSuchPin pin) ↔ 16 ≤ pin.toNat := by
  have sixteen : Layout.pinCount = 16 := rfl
  unfold set
  split <;> simp <;> omega

theorem get_of_set_eq_ok {keypad changed : Keypad} {pin : UInt8} {value : Bool}
    (h : keypad.set pin value = .ok changed) (other : Nibble) :
    changed.get other = if other.val = pin.toNat then value else keypad.get other := by
  unfold set at h
  split at h
  · cases h
    simp [get, Vector.getElem_set, eq_comm]
  · cases h

end Keypad

end Chip8
