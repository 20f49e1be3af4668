import Chip8Vm.Fault
import Chip8Vm.Number.Signed

/-!
# Places in a row

The rows of the display and the registers stand in rows of a fixed length, and a number names a
place there: from zero on from the front, and below zero from the end. A number that names none is a
fault, and one that no row could be long enough for is a fault of its own.
-/

set_option autoImplicit false

namespace Chip8Vm.Number

/-- The place that a number means among `count`. -/
def place? (count : Nat) (i : Int) : Option (Fin count) :=
  if h : -count ≤ i ∧ i < count then
    some ⟨(i % count).toNat, by
      have := Int.emod_nonneg i (b := count)
      have := Int.emod_lt_of_pos i (b := count)
      omega⟩
  else none

/-- The place that a number means, or else what is wrong; `outside` is the fault of a number that
names no place in this row. -/
def place (count : Nat) (outside : Fault) (i : Int) : Except Fault (Fin count) :=
  if fits 63 i then
    match place? count i with
    | some p => .ok p
    | none => .error outside
  else .error .placeTooLarge

theorem place?_natCast {count : Nat} (i : Fin count) : place? count (i : Int) = some i := by
  unfold place?
  rw [dif_pos (by omega)]
  congr
  rw [Int.emod_eq_of_lt (by omega) (by omega)]
  exact Int.toNat_natCast i

theorem place_natCast {count : Nat} {outside : Fault} (i : Fin count) (h : count ≤ Nat.pow 2 63) :
    place count outside (i : Int) = .ok i := by
  unfold place
  rw [if_pos (fits_natCast (Nat.lt_of_lt_of_le i.isLt h)), place?_natCast]

end Chip8Vm.Number
