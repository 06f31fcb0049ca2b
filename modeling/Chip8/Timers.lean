/-!
# Timers

The delay and the sound timer: two byte counters that every tick brings one
nearer to zero, where they stay.
-/

namespace Chip8

@[ext] structure Timers where
  delay : UInt8
  sound : UInt8
  deriving DecidableEq, Repr

namespace Timers

def zero : Timers :=
  ⟨0, 0⟩

def countDown (value : UInt8) : UInt8 :=
  if value = 0 then 0 else value - 1

def tickDelay (timers : Timers) : Timers :=
  { timers with delay := countDown timers.delay }

def tickSound (timers : Timers) : Timers :=
  { timers with sound := countDown timers.sound }

/-- One elapsed interval: the delay timer steps first, then the sound timer. -/
def tick (timers : Timers) : Timers :=
  timers.tickDelay.tickSound

@[simp] theorem toNat_countDown (value : UInt8) :
    (countDown value).toNat = value.toNat - 1 := by
  unfold countDown
  split
  · subst_vars
    rfl
  · rename_i nonzero
    have positive : value.toNat ≠ 0 := fun h => nonzero (UInt8.toNat_inj.mp h)
    have one_le : (1 : UInt8) ≤ value := by
      rw [UInt8.le_iff_toNat_le]
      simp
      omega
    rw [UInt8.toNat_sub_of_le _ _ one_le]
    rfl

end Timers

end Chip8
