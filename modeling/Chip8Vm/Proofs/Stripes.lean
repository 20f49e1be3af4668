import Chip8Vm.Display
import Chip8Vm.Number.Bitwise

/-!
# The pixels of a stripe

A stripe is made of two shifts of an endless row of bits, cut to sixty-four columns. Bit by bit it
is this: column `c` shows bit `7 + x - c` of the sprite number, or bit `x - c - 57` of it, which is
what has gone round the right edge (`getMsbD_stripe`). A byte has no bits above the seventh, and
then at most one of the two is there:

> **a byte at column `x` shows, at column `c`, its bit `7 - j` where `j` is how far `c` is to the
> right of `x`, going round, and nothing if that is eight or more** (`getMsbD_stripe_of_byte`).
-/

set_option autoImplicit false

namespace Chip8Vm

/-! ## Bits of a shifted number -/

namespace Number

theorem bit_shiftRight (n : Int) (k i : Nat) : bit (n >>> k) i = bit n (k + i) := by
  cases n with
  | ofNat a => exact Nat.testBit_shiftRight a
  | negSucc a => exact congrArg (! ·) (Nat.testBit_shiftRight a)

/-- A number is twice its half, and the bit left over. -/
theorem bit_double (n : Int) (i : Nat) : bit (n * 2) i = (decide (0 < i) && bit n (i - 1)) := by
  cases n with
  | ofNat a =>
    show (a * 2).testBit i = _
    cases i with
    | zero => simp
    | succ i => simp [Nat.testBit_succ, bit]
  | negSucc a =>
    have even : Int.negSucc a * 2 = Int.negSucc (2 * a + 1) := by omega
    rw [even]
    show (!(2 * a + 1).testBit i) = _
    cases i with
    | zero => simp
    | succ i =>
      have half : (2 * a + 1) / 2 = a := by omega
      simp [Nat.testBit_succ, half, bit]

theorem bit_shiftLeft (n : Int) (k i : Nat) :
    bit (n <<< k) i = (decide (k ≤ i) && bit n (i - k)) := by
  induction k generalizing i with
  | zero => simp
  | succ k ih =>
    rw [Int.shiftLeft_succ, bit_double, ih, Nat.sub_sub, Nat.add_comm 1 k]
    by_cases h : k + 1 ≤ i
    · simp [h, show 0 < i by omega, show k ≤ i - 1 by omega]
    · simp only [h, decide_false, Bool.false_and, Bool.and_eq_false_iff, decide_eq_false_iff_not]
      omega

/-- A byte has eight bits. -/
theorem bit_of_byte {b : Int} (h : 0 ≤ b ∧ b < 256) {i : Nat} (hi : 8 ≤ i) : bit b i = false := by
  obtain ⟨a, rfl⟩ := Int.eq_ofNat_of_zero_le h.1
  refine Nat.testBit_lt_two_pow (Nat.lt_of_lt_of_le (m := 2 ^ 8) (by omega) ?_)
  exact Nat.pow_le_pow_right (by decide) hi

theorem getLsbD_ofInt (w : Nat) (n : Int) (i : Nat) :
    (BitVec.ofInt w n).getLsbD i = (decide (i < w) && bit n i) := by
  cases n with
  | ofNat a => exact BitVec.getLsbD_ofNat w a i
  | negSucc a =>
    rw [BitVec.ofInt_negSucc_eq_not_ofNat, BitVec.getLsbD_not, BitVec.getLsbD_ofNat]
    by_cases h : i < w
    · simp [h, bit]
    · simp [h]

end Number

namespace Display

/-- Column `c` of the byte moved right by `k` columns from the left edge. -/
theorem bit_right (b : Int) {k : Nat} (c : Fin 64) :
    Number.bit ((b <<< (56 : Nat)) >>> k) (63 - c)
      = (decide ((c : Int) ≤ 7 + k) && Number.bit b (7 + k - c : Int).toNat) := by
  rw [Number.bit_shiftRight, Number.bit_shiftLeft]
  by_cases h : (c : Int) ≤ 7 + k
  · have place : k + (63 - c) - 56 = (7 + k - c : Int).toNat := by omega
    rw [place, decide_eq_true h, decide_eq_true (by omega)]
  · rw [decide_eq_false h, decide_eq_false (by omega)]
    rfl

/-- Column `c` of what that pushes out, moved left by the rest of the width. -/
theorem bit_left (b : Int) {k : Nat} (hk : k < 64) (c : Fin 64) :
    Number.bit ((b <<< (56 : Nat)) <<< (64 - k)) (63 - c)
      = (decide ((c : Int) + 57 ≤ k) && Number.bit b (k - c - 57 : Int).toNat) := by
  rw [Number.bit_shiftLeft, Number.bit_shiftLeft, ← Bool.and_assoc, ← Bool.decide_and]
  by_cases h : (c : Int) + 57 ≤ k
  · have place : 63 - c - (64 - k) - 56 = (k - c - 57 : Int).toNat := by omega
    rw [place, decide_eq_true h, decide_eq_true (by omega)]
  · rw [decide_eq_false h, decide_eq_false (by omega)]
    rfl

/-- The pixels of a stripe, whatever the number; a bit below the lowest is not there. -/
theorem getMsbD_stripe (b x : Int) (c : Fin 64) :
    (stripe b x).getMsbD c =
      ((decide (c ≤ 7 + x % 64) && Number.bit b (7 + x % 64 - c).toNat)
        || (decide (c + 57 ≤ x % 64) && Number.bit b (x % 64 - c - 57).toNat)) := by
  obtain ⟨k, hk, hx⟩ : ∃ k : Nat, k < 64 ∧ x % 64 = k := ⟨(x % 64).toNat, by omega, by omega⟩
  have inside : 63 - c.val < 64 := by omega
  simp only [stripe, hx, Int.toNat_natCast]
  rw [BitVec.getMsbD_eq_getLsbD, decide_eq_true c.isLt, Bool.true_and, BitVec.getLsbD_or,
    Number.getLsbD_ofInt, Number.getLsbD_ofInt, decide_eq_true inside, Bool.true_and,
    Bool.true_and, bit_right, bit_left b hk]

/-- A byte has no pixels but the eight from its column on, going round. -/
theorem getMsbD_stripe_of_byte {b : Int} (h : 0 ≤ b ∧ b < 256) (x : Int) (c : Fin 64) :
    (stripe b x).getMsbD c =
      (decide ((c - x) % 64 < 8) && Number.bit b (7 - (c - x) % 64).toNat) := by
  rw [getMsbD_stripe]
  by_cases left : x % 64 ≤ c
  · -- the column is not left of the byte's, so that nothing that went round is there
    have far : (c - x) % 64 = c - x % 64 := by omega
    have none : decide (c + 57 ≤ x % 64) = false := decide_eq_false (by omega)
    have place : 7 + x % 64 - c = 7 - (c - x) % 64 := by omega
    have same : (c ≤ 7 + x % 64) = ((c - x) % 64 < 8) := by
      rw [far]
      exact propext (by omega)
    rw [none, Bool.false_and, Bool.or_false, place]
    simp only [same]
  · -- left of it the byte itself would need a bit above its seventh
    have far : (c - x) % 64 = 64 + c - x % 64 := by omega
    have none : Number.bit b (7 + x % 64 - c).toNat = false := Number.bit_of_byte h (by omega)
    have place : x % 64 - c - 57 = 7 - (c - x) % 64 := by omega
    have same : (c + 57 ≤ x % 64) = ((c - x) % 64 < 8) := by
      rw [far]
      exact propext (by omega)
    rw [none, Bool.and_false, Bool.false_or, place]
    simp only [same]

end Display
end Chip8Vm
