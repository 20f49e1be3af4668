import Mathlib.Algebra.BigOperators.Fin
import Mathlib.Algebra.Ring.Parity
import Mathlib.Data.Fintype.BigOperators
import Chip8Vm.Proofs.Stripes

/-!
# Drawing, pixel by pixel

Drawing turns whole rows over, a stripe at a time, and a tall sprite comes back to rows it has
turned over before. For a single pixel none of that matters. The bits of the sprite lie on a torus
of sixty-four columns and thirty-two rows, and a pixel is turned over once for every set bit that
lies on it (`strikes`):

> **a pixel after drawing is what it was before, turned over if an odd number of set bits strike
> it** (`pixel_draw`), wherever the sprite is put and however tall it is.
-/

set_option autoImplicit false

namespace Chip8Vm
namespace Display

/-- The set bits of a sprite at a position that lie on a pixel, as byte and place in the byte from
the left. -/
def strikes (x y : Int) (sprite : List Int) (column : Fin 64) (row : Fin 32) :
    Finset (Fin sprite.length × Fin 8) :=
  Finset.univ.filter fun p =>
    (y + p.1.val) % 32 = row ∧ (x + p.2.val) % 64 = column
      ∧ Number.bit sprite[p.1] (7 - p.2.val) = true

/-- The strikes of one byte, whose row is known. -/
def byteStrikes (x b : Int) (column : Fin 64) : Finset (Fin 8) :=
  Finset.univ.filter fun j => (x + j.val) % 64 = column ∧ Number.bit b (7 - j.val) = true

/-- A byte strikes a pixel of its row once or not at all, as its stripe says. -/
theorem card_byteStrikes {b : Int} (h : 0 ≤ b ∧ b < 256) (x : Int) (column : Fin 64) :
    (byteStrikes x b column).card = ((stripe b x).getMsbD column).toNat := by
  have place : ∀ j : Fin 8, (x + j.val) % 64 = column ↔ (j.val : Int) = (column - x) % 64 := by
    intro j
    omega
  by_cases lit : (stripe b x).getMsbD column = true
  · rw [lit]
    rw [getMsbD_stripe_of_byte h, Bool.and_eq_true, decide_eq_true_eq] at lit
    obtain ⟨near, hit⟩ := lit
    refine Finset.card_eq_one.mpr ⟨⟨((column - x) % 64).toNat, by omega⟩, ?_⟩
    ext j
    rw [byteStrikes, Finset.mem_filter, Finset.mem_singleton, place, Fin.ext_iff]
    constructor
    · rintro ⟨-, hj, -⟩
      dsimp only
      omega
    · intro hj
      dsimp only at hj
      have bit : 7 - j.val = (7 - (column - x) % 64).toNat := by omega
      exact ⟨Finset.mem_univ j, by omega, bit ▸ hit⟩
  · rw [Bool.not_eq_true] at lit
    rw [lit]
    refine Finset.card_eq_zero.mpr (Finset.filter_eq_empty_iff.mpr ?_)
    rintro j - ⟨hj, hit⟩
    rw [place] at hj
    have bit : 7 - j.val = (7 - (column - x) % 64).toNat := by omega
    rw [getMsbD_stripe_of_byte h, ← bit, hit, Bool.and_true, decide_eq_false_iff_not] at lit
    omega

/-! ## Sprites -/

/-- The strikes of a sprite, byte by byte. -/
theorem card_strikes (x y : Int) (sprite : List Int) (column : Fin 64) (row : Fin 32) :
    (strikes x y sprite column row).card =
      ∑ i : Fin sprite.length,
        if (y + i.val) % 32 = row then (byteStrikes x sprite[i] column).card else 0 := by
  rw [strikes, Finset.card_filter, Fintype.sum_prod_type]
  refine Finset.sum_congr rfl fun i _ => ?_
  by_cases hrow : (y + i.val) % 32 = row
  · simp only [hrow, true_and, if_true, byteStrikes, Finset.card_filter]
  · simp only [hrow, false_and, if_false, Finset.sum_const_zero]

theorem card_strikes_cons (x y b : Int) (bs : List Int) (column : Fin 64) (row : Fin 32) :
    (strikes x y (b :: bs) column row).card =
      (if rowAt y = row then (byteStrikes x b column).card else 0)
        + (strikes x (y + 1) bs column row).card := by
  rw [card_strikes, card_strikes]
  refine (Fin.sum_univ_succ _).trans (congr (congrArg HAdd.hAdd ?_) ?_)
  · have first : (y + (0 : Fin (bs.length + 1)).val) % 32 = row ↔ rowAt y = row := by
      rw [rowAt, Fin.ext_iff, Fin.val_zero]
      dsimp only
      omega
    exact if_congr first rfl rfl
  · refine Finset.sum_congr rfl fun i _ => ?_
    have next : y + (i.succ.val : Int) = y + 1 + i.val := by
      rw [Fin.val_succ]
      omega
    rw [next]
    rfl

theorem lit_stamp (d : Display) (x y b : Int) (column : Fin 64) (row : Fin 32) :
    { d with rows := stamp d.rows x y b }.lit column row =
      (d.lit column row ^^ (decide (rowAt y = row) && (stripe b x).getMsbD column)) := by
  unfold lit
  by_cases hrow : rowAt y = row
  · subst hrow
    simp only [stamp, Fin.getElem_fin, Vector.getElem_set_self, BitVec.getMsbD_xor, decide_true,
      Bool.true_and]
  · have apart : (rowAt y).val ≠ row.val := fun h => hrow (Fin.ext h)
    simp only [stamp, Fin.getElem_fin, Vector.getElem_set_ne _ _ apart, hrow, decide_false,
      Bool.false_and, Bool.xor_false]

theorem decide_odd_add (m n : Nat) :
    decide (Odd (m + n)) = (decide (Odd m) ^^ decide (Odd n)) := by
  by_cases hm : Odd m <;> by_cases hn : Odd n <;> simp [hm, hn, Nat.odd_add, ← Nat.not_odd_iff_even]

/-- A sprite turned over, seen at one pixel. The induction is on the sprite, and
each byte adds its strikes to those of the bytes below it. -/
theorem lit_stampAll {sprite : List Int} (h : ∀ b ∈ sprite, 0 ≤ b ∧ b < 256) (x y : Int)
    (d : Display) (column : Fin 64) (row : Fin 32) :
    { d with rows := stampAll x y sprite d.rows }.lit column row =
      (d.lit column row ^^ decide (Odd (strikes x y sprite column row).card)) := by
  induction sprite generalizing y d with
  | nil =>
    have none : (strikes x y [] column row).card = 0 := (card_strikes x y [] column row).trans rfl
    rw [none, stampAll]
    simp
  | cons b bs ih =>
    have below := ih (fun c hc => h c (by simp [hc])) (y + 1)
      { d with rows := stamp d.rows x y b }
    rw [stampAll, below, lit_stamp, card_strikes_cons, card_byteStrikes (h b (by simp)),
      decide_odd_add, Bool.xor_assoc]
    congr 2
    by_cases hrow : rowAt y = row
    · rw [if_pos hrow, decide_eq_true hrow, Bool.true_and]
      cases (stripe b x).getMsbD column <;> decide
    · rw [if_neg hrow, decide_eq_false hrow, Bool.false_and]
      decide

/-- **A pixel after drawing**, read before and after. Drawing leaves the display to be shown again,
also where it changes nothing, and every row is still a word. -/
theorem pixel_draw (d : Display) (x y : Int) (sprite : List Int)
    (h : ∀ b ∈ sprite, 0 ≤ b ∧ b < 256) (column : Fin 64) (row : Fin 32) :
    d.pixel column row = .ok (d.lit column row)
      ∧ (d.draw x y sprite).pixel column row =
          .ok (d.lit column row ^^ decide (Odd (strikes x y sprite column row).card))
      ∧ (d.draw x y sprite).dirty = true
      ∧ ((d.draw x y sprite).rows.get row).toNat < 2 ^ 64 := by
  refine ⟨pixel_eq_lit d column row, ?_, rfl, BitVec.isLt _⟩
  rw [pixel_eq_lit]
  exact congrArg Except.ok (lit_stampAll h x y d column row)

/-- A sprite one byte taller than the display, drawn across the right edge from the last row: its
first and its last byte fall on the same row and undo each other there. -/
theorem pixel_draw_tall :
    let sprite : List Int := List.replicate 33 0xFF
    (∀ b ∈ sprite, 0 ≤ b ∧ b < 256)
      ∧ (blank.draw 60 (-1) sprite).pixel 3 31 = .ok false
      ∧ (blank.draw 60 (-1) sprite).pixel 3 30 = .ok true := by
  intro sprite
  have bytes : ∀ b ∈ sprite, 0 ≤ b ∧ b < 256 := by
    intro b hb
    rw [List.eq_of_mem_replicate hb]
    decide
  refine ⟨bytes, (pixel_draw blank 60 (-1) sprite bytes 3 31).2.1.trans ?_,
    (pixel_draw blank 60 (-1) sprite bytes 3 30).2.1.trans ?_⟩
  · have twice : (strikes 60 (-1) sprite 3 31).card = 2 := by decide +kernel
    rw [twice]
    decide
  · have once : (strikes 60 (-1) sprite 3 30).card = 1 := by decide +kernel
    rw [once]
    decide

end Display
end Chip8Vm
