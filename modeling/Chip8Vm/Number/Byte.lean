/-!
# Bytes

The numbers of a machine are kept as numbers; this is where one becomes a byte, if it is one.
-/

set_option autoImplicit false

namespace Chip8Vm

/-- A value as a byte, if it is one. -/
def byte? (value : Int) : Option UInt8 :=
  if 0 ≤ value ∧ value < 256 then some (UInt8.ofNat value.toNat) else none

theorem byte?_eq_none_iff {v : Int} : byte? v = none ↔ ¬(0 ≤ v ∧ v < 256) := by
  unfold byte?; split <;> simp_all

end Chip8Vm
