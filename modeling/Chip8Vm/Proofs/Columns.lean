import Chip8Vm.Proofs.Sprites
import Chip8Vm.Proofs.Torus

/-!
# The columns of a stripe

A stripe is made of two numbers without an end, and it is one word whether each is cut to the width
before they are joined or both together afterwards (`toNat_stripe`). Whatever the size and the sign
of the sprite number, two of its bits may show in a column: the one that stands there, and the one
that has gone round to it (`testBit_stripe`).

A byte is narrower than the display, so that the second can show only where the first does not.
Hence a byte is there once, wherever it is drawn, and all of it:

> **its stripe has as many bits as the byte** (`card_testBit_stripe`), **no other byte has the same
> one in that place** (`stripe_inj`), **and the one further to the right is this one turned**
> (`turn_stripe`).
-/

set_option autoImplicit false

namespace Chip8Vm

/-! ## Numbers by their bits -/

namespace Number

/-- The bit of a number at a place. Below the lowest place there is none. -/
def bitAt (n place : Int) : Bool := decide (0 ≤ place) && bit n place.toNat

/-- The row of a width that a number is cut to is what a mask of that width leaves of it. -/
theorem toNat_ofInt_eq_land (w : Nat) (n : Int) :
    ((BitVec.ofInt w n).toNat : Int) = land n ((2 ^ w - 1 : Nat) : Int) := by
  obtain ⟨left, hleft⟩ : ∃ left : Nat, land n ((2 ^ w - 1 : Nat) : Int) = left := by
    cases n with
    | ofNat a => exact ⟨_, rfl⟩
    | negSucc a => exact ⟨_, rfl⟩
  rw [hleft]
  refine congrArg Int.ofNat (Nat.eq_of_testBit_eq fun i => ?_)
  have masked : left.testBit i = (bit n i && (2 ^ w - 1).testBit i) :=
    (congrArg (bit · i) hleft).symm.trans (bit_land n _ i)
  rw [masked, Nat.testBit_two_pow_sub_one, Bool.and_comm]
  exact getLsbD_ofInt w n i

/-- Numbers may be joined before they are cut to a width or afterwards. -/
theorem ofInt_lor (w : Nat) (m n : Int) :
    BitVec.ofInt w (lor m n) = BitVec.ofInt w m ||| BitVec.ofInt w n := by
  apply BitVec.eq_of_getLsbD_eq
  intro i hi
  rw [BitVec.getLsbD_or, getLsbD_ofInt, getLsbD_ofInt, getLsbD_ofInt, bit_lor,
    Bool.and_or_distrib_left]

/-- Two bytes are one if their eight bits are the same. -/
theorem byte_eq_of_bit_eq {b b' : Int} (h : 0 ≤ b ∧ b < 256) (h' : 0 ≤ b' ∧ b' < 256)
    (same : ∀ j : Fin 8, bit b (7 - j.val) = bit b' (7 - j.val)) : b = b' := by
  obtain ⟨n, rfl⟩ := Int.eq_ofNat_of_zero_le h.1
  obtain ⟨n', rfl⟩ := Int.eq_ofNat_of_zero_le h'.1
  refine congrArg Int.ofNat (Nat.eq_of_testBit_eq fun i => ?_)
  by_cases low : i < 8
  · have place : 7 - (7 - i) = i := by omega
    have bits := same ⟨7 - i, by omega⟩
    dsimp only at bits
    rw [place] at bits
    exact bits
  · exact (bit_of_byte h (by omega)).trans (bit_of_byte h' (by omega)).symm

end Number

namespace Display

variable {b x : Int}

theorem getMsbD_eq_testBit (row : BitVec 64) (c : Fin 64) :
    row.getMsbD c = row.toNat.testBit (63 - c.val) := by
  rw [BitVec.getMsbD_eq_getLsbD, decide_eq_true c.isLt, Bool.true_and]
  rfl

/-! ## Any number -/

/-- A stripe as a number: both shifts joined, and what a mask of sixty-four bits leaves of that. -/
theorem toNat_stripe (b x : Int) :
    ((stripe b x).toNat : Int) = Number.land
      (Number.lor ((b <<< (56 : Nat)) >>> (x % 64).toNat)
        ((b <<< (56 : Nat)) <<< (64 - (x % 64).toNat))) (2 ^ 64 - 1) := by
  have joined := Number.toNat_ofInt_eq_land 64
    (Number.lor ((b <<< (56 : Nat)) >>> (x % 64).toNat)
      ((b <<< (56 : Nat)) <<< (64 - (x % 64).toNat)))
  rw [Number.ofInt_lor] at joined
  exact joined

/-- The two bits of a number that show in a column of its stripe. -/
theorem testBit_stripe (b x : Int) (c : Fin 64) :
    (stripe b x).toNat.testBit (63 - c.val) =
      (Number.bitAt b (7 + x % 64 - c) || Number.bitAt b (x % 64 - c - 57)) := by
  have here : decide (c ≤ 7 + x % 64) = decide (0 ≤ 7 + x % 64 - c) :=
    decide_eq_decide.mpr (by omega)
  have round : decide (c + 57 ≤ x % 64) = decide (0 ≤ x % 64 - c - 57) :=
    decide_eq_decide.mpr (by omega)
  rw [← getMsbD_eq_testBit, getMsbD_stripe, here, round]
  rfl

/-! ## Bytes -/

/-- The column of a byte that shows in a column of its stripe. -/
theorem testBit_stripe_of_byte (h : 0 ≤ b ∧ b < 256) (x : Int) (c : Fin 64) :
    (stripe b x).toNat.testBit (63 - c.val) = true ↔
      (c - x) % 64 < 8 ∧ Number.bitAt b (7 - (c - x) % 64) = true := by
  rw [← getMsbD_eq_testBit, getMsbD_stripe_of_byte h, Bool.and_eq_true, decide_eq_true_eq]
  refine and_congr_right fun near => ?_
  rw [Number.bitAt, decide_eq_true (by omega), Bool.true_and]

/-- Every bit of a byte shows in a column. -/
theorem getMsbD_stripe_columnAt (h : 0 ≤ b ∧ b < 256) (x : Int) (j : Fin 8) :
    (stripe b x).getMsbD (columnAt (x + j.val)) = Number.bit b (7 - j.val) := by
  have offset : ((columnAt (x + j.val)).val - x) % 64 = j.val := by
    rw [val_columnAt]
    omega
  have place : (7 - (j.val : Int)).toNat = 7 - j.val := by omega
  rw [getMsbD_stripe_of_byte h, offset, place, decide_eq_true (by omega), Bool.true_and]

theorem stripe_inj {b' : Int} (h : 0 ≤ b ∧ b < 256) (h' : 0 ≤ b' ∧ b' < 256)
    (same : stripe b x = stripe b' x) : b = b' := by
  apply Number.byte_eq_of_bit_eq h h'
  intro j
  rw [← getMsbD_stripe_columnAt h x j, same, getMsbD_stripe_columnAt h' x j]

theorem card_testBit_stripe (h : 0 ≤ b ∧ b < 256) (x : Int) :
    (Finset.univ.filter fun c : Fin 64 => (stripe b x).toNat.testBit (63 - c.val) = true).card
      = byteCount b := by
  rw [← sum_stripe h x, Finset.card_filter]
  apply Finset.sum_congr rfl
  intro c _
  rw [getMsbD_eq_testBit]
  cases (stripe b x).toNat.testBit (63 - c.val) <;> rfl

/-- A stripe shows all of its number. -/
structure ShowsAll (b x : Int) : Prop where
  column : ∀ c : Fin 64, (stripe b x).toNat.testBit (63 - c.val) = true ↔
    (c - x) % 64 < 8 ∧ Number.bitAt b (7 - (c - x) % 64) = true
  count : (Finset.univ.filter fun c : Fin 64 =>
    (stripe b x).toNat.testBit (63 - c.val) = true).card = byteCount b
  tells : ∀ b', 0 ≤ b' ∧ b' < 256 → stripe b' x = stripe b x → b' = b
  turns : ∀ k : Int, stripe b (x + k) = (stripe b x).rotateRight (k % 64).toNat

theorem showsAll_of_byte (h : 0 ≤ b ∧ b < 256) (x : Int) : ShowsAll b x where
  column := testBit_stripe_of_byte h x
  count := card_testBit_stripe h x
  tells _ h' same := stripe_inj h' h same
  turns k := (turn_stripe h k x).symm

/-- **The bits of a stripe**, for every number and every column that it is put at. It is a number of
sixty-four bits, with a bit in a column if the number has one of the two that can show there. If the
number is a byte, the stripe shows all of it: each bit where it belongs and none twice, so that
bytes can be told apart; and a step to the right is a turn. -/
theorem stripe_bits (b x : Int) :
    (stripe b x).toNat < 2 ^ 64 ∧
    ((stripe b x).toNat : Int) = Number.land
      (Number.lor ((b <<< (56 : Nat)) >>> (x % 64).toNat)
        ((b <<< (56 : Nat)) <<< (64 - (x % 64).toNat))) (2 ^ 64 - 1) ∧
    (∀ c : Fin 64, (stripe b x).toNat.testBit (63 - c.val) = true ↔
      Number.bitAt b (7 + x % 64 - c) = true ∨ Number.bitAt b (x % 64 - c - 57) = true) ∧
    (0 ≤ b ∧ b < 256 → ShowsAll b x) := by
  refine ⟨(stripe b x).isLt, toNat_stripe b x, fun c => ?_, fun h => showsAll_of_byte h x⟩
  rw [testBit_stripe, Bool.or_eq_true]

/-- A byte over the right edge, which shows its last bit in the fourth column, and which a step to
the left, nearly three times round, turns to the left edge; and a number below zero, whose bits go
on to the left where those of a byte end. -/
theorem stripe_bits_overEdge :
    (0 ≤ (0xB5 : Int) ∧ (0xB5 : Int) < 256) ∧ (stripe 0xB5 60).toNat.testBit (63 - 2) = false
      ∧ (stripe 0xB5 60).toNat.testBit (63 - 3) = true
      ∧ stripe 0xB5 (60 + -188) = (stripe 0xB5 60).rotateRight 4
      ∧ (stripe (-1) 3).toNat.testBit (63 - 2) = true := by
  have byte : 0 ≤ (0xB5 : Int) ∧ (0xB5 : Int) < 256 := by decide
  obtain ⟨-, -, -, shows⟩ := stripe_bits 0xB5 60
  have shown := shows byte
  have dark : ¬ (stripe 0xB5 60).toNat.testBit (63 - 2) = true :=
    mt (shown.column 2).mp (by decide)
  exact ⟨byte, Bool.eq_false_iff.mpr dark, (shown.column 3).mpr (by decide), shown.turns (-188),
    ((stripe_bits (-1) 3).2.2.1 2).mpr (by decide)⟩

end Display
end Chip8Vm
