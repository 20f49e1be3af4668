/-!
# Signed numbers of a width

Where a number leaves the machine for the screen or for a list of rows, it is kept in so many bits
and one more for the sign. A number too large for them is either refused (`fits`) or cut down to
them (`signed`), and one that fits is not changed by the cut (`signed_eq_self`).
-/

set_option autoImplicit false

namespace Chip8Vm.Number

/-- Whether a number can be kept in so many bits besides its sign. -/
def fits (bits : Nat) (n : Int) : Bool := -(Nat.pow 2 bits : Int) ≤ n && n < Nat.pow 2 bits

/-- What is left of a number in so many bits and a sign: the low bits, the highest of which says
whether the number is below zero. -/
def signed (bits : Nat) (n : Int) : Int := n.bmod (Nat.pow 2 (bits + 1))

theorem fits_natCast {bits n : Nat} (h : n < Nat.pow 2 bits) : fits bits (n : Int) := by
  simp only [fits, Bool.and_eq_true, decide_eq_true_eq]
  omega

theorem signed_eq_self {bits : Nat} {n : Int} (h : fits bits n) : signed bits n = n := by
  simp only [fits, Bool.and_eq_true, decide_eq_true_eq, Nat.pow_eq] at h
  unfold signed
  apply Int.bmod_eq_of_le <;> simp only [Nat.pow_eq, Nat.pow_succ] <;> omega

end Chip8Vm.Number
