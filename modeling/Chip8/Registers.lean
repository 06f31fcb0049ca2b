import Chip8.Layout

/-!
# Registers

The sixteen byte registers V0 to VF, seen through `get`.
-/

namespace Chip8

@[ext] structure Registers where
  values : Vector UInt8 Layout.registerCount
  deriving DecidableEq

namespace Registers

def zero : Registers :=
  ⟨Vector.replicate Layout.registerCount 0⟩

def get (registers : Registers) (r : Nibble) : UInt8 :=
  getElem registers.values r.val r.val_lt

def set (registers : Registers) (r : Nibble) (value : UInt8) : Registers :=
  ⟨registers.values.set r.val value r.val_lt⟩

def setFlag (registers : Registers) (condition : Bool) : Registers :=
  registers.set Layout.flagRegister (if condition then 1 else 0)

def upTo (registers : Registers) (last : Nibble) : List UInt8 :=
  registers.values.toList.take (last.val + 1)

/-- Writes V0 and the registers after it, as long as there are values. -/
def load (registers : Registers) (values : List UInt8) : Registers :=
  ⟨Vector.ofFn fun r => values.getD r.val (registers.get r)⟩

@[simp] theorem get_zero (r : Nibble) : zero.get r = 0 := by
  simp [zero, get]

theorem get_set (registers : Registers) (r : Nibble) (value : UInt8) (other : Nibble) :
    (registers.set r value).get other = if other = r then value else registers.get other := by
  simp [set, get, Vector.getElem_set, Fin.ext_iff, eq_comm]

theorem get_setFlag (registers : Registers) (condition : Bool) (other : Nibble) :
    (registers.setFlag condition).get other =
      if other = Layout.flagRegister then (if condition then 1 else 0) else registers.get other :=
  get_set registers Layout.flagRegister _ other

@[simp] theorem get_load (registers : Registers) (values : List UInt8) (r : Nibble) :
    (registers.load values).get r = values.getD r.val (registers.get r) := by
  simp [load, get]

@[simp] theorem length_upTo (registers : Registers) (last : Nibble) :
    (registers.upTo last).length = last.val + 1 := by
  rw [upTo, List.length_take, Vector.length_toList]
  exact Nat.min_eq_left last.isLt

theorem getElem_upTo (registers : Registers) (last r : Nibble) (within : r ≤ last) :
    (registers.upTo last)[r.val]? = some (registers.get r) := by
  have := Fin.le_def.mp within
  simp [upTo, get, show r.val < last.val + 1 by omega]

theorem ext_get {left right : Registers} (same : ∀ r, left.get r = right.get r) :
    left = right := by
  apply Registers.ext
  apply Vector.ext
  intro i h
  exact same ⟨i, h⟩

end Registers

end Chip8
