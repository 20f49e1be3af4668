import Chip8Vm.Proofs.Overlay
import Chip8Vm.Proofs.Pixels

/-!
# Collisions

Drawing answers whether some byte of the sprite met a lit pixel of its row at its turn. That is a
matter of turns, and a tall sprite may meet pixels that it has lit itself. Counted over the whole
display it is a matter of before and after only: a set bit lights a pixel or, where it meets one,
puts it out, and then two pixels are missing that would otherwise be lit.

> **nothing was met exactly if every set bit has lit a pixel** (`count_stampAll`), however tall the
> sprite; **and if it comes to no row twice, something was met exactly if a pixel went out**
> (`meets_iff`).
-/

set_option autoImplicit false

namespace Chip8Vm
namespace Display

/-! ## Counting -/

/-- How many pixels are lit. -/
def litCount (d : Display) : Nat :=
  (Finset.univ.filter fun p : Fin 64 × Fin 32 => d.lit p.1 p.2 = true).card

/-- How many of the eight bits of a byte are set. -/
def byteCount (b : Int) : Nat := (Finset.univ.filter fun j : Fin 8 => Number.bit b j = true).card

/-- How many bits of a sprite are set. -/
def spriteCount (sprite : List Int) : Nat := (sprite.map byteCount).sum

/-- How many lit pixels a byte meets. -/
def metCount (d : Display) (x y b : Int) : Nat :=
  (Finset.univ.filter fun p : Fin 64 × Fin 32 =>
    d.lit p.1 p.2 = true ∧ rowAt y = p.2 ∧ (stripe b x).getMsbD p.1 = true).card

/-- A byte has as many pixels as set bits, wherever it is drawn. -/
theorem sum_stripe {b : Int} (h : 0 ≤ b ∧ b < 256) (x : Int) :
    ∑ column : Fin 64, ((stripe b x).getMsbD column).toNat = byteCount b := by
  -- each set bit is on one column, and `byteStrikes` are those of a column
  let columnOf (j : Fin 8) : Fin 64 := ⟨((x + j.val) % 64).toNat, by omega⟩
  have fibre : ∀ column : Fin 64, byteStrikes x b column
      = (Finset.univ.filter fun j : Fin 8 => Number.bit b (7 - j.val) = true).filter
        (columnOf · = column) := by
    intro column
    ext j
    have here : columnOf j = column ↔ (x + j.val) % 64 = column := by
      rw [Fin.ext_iff]
      dsimp only [columnOf]
      omega
    simp only [byteStrikes, Finset.mem_filter, Finset.mem_univ, true_and, here, and_comm]
  have reversed : (Finset.univ.filter fun j : Fin 8 => Number.bit b (7 - j.val) = true).card
      = byteCount b := by
    apply Finset.card_equiv Fin.revPerm
    intro j
    simp only [Finset.mem_filter, Finset.mem_univ, true_and, Fin.revPerm_apply, Fin.val_rev]
    rw [show 8 - (j.val + 1) = 7 - j.val by omega]
  calc ∑ column : Fin 64, ((stripe b x).getMsbD column).toNat
      = ∑ column : Fin 64, (byteStrikes x b column).card :=
        Finset.sum_congr rfl fun column _ => (card_byteStrikes h x column).symm
    _ = (Finset.univ.filter fun j : Fin 8 => Number.bit b (7 - j.val) = true).card := by
        simp only [fibre]
        exact (Finset.card_eq_sum_card_fiberwise fun j _ => Finset.mem_univ (columnOf j)).symm
    _ = byteCount b := reversed

/-- **A byte and its count.** What it meets it puts out, and so loses twice: once as lit before, and
once as a bit of its own. -/
theorem count_stamp {b : Int} (h : 0 ≤ b ∧ b < 256) (d : Display) (x y : Int) :
    litCount { d with rows := stamp d.rows x y b } + 2 * d.metCount x y b
      = d.litCount + byteCount b := by
  have pixel : ∀ p : Fin 64 × Fin 32,
      (if { d with rows := stamp d.rows x y b }.lit p.1 p.2 = true then 1 else 0)
        + 2 * (if d.lit p.1 p.2 = true ∧ rowAt y = p.2 ∧ (stripe b x).getMsbD p.1 = true
          then 1 else 0)
      = (if d.lit p.1 p.2 = true then 1 else 0)
        + if rowAt y = p.2 then ((stripe b x).getMsbD p.1).toNat else 0 := by
    intro p
    rw [lit_stamp]
    cases d.lit p.1 p.2 <;> cases (stripe b x).getMsbD p.1 <;> by_cases hrow : rowAt y = p.2 <;>
      simp [hrow]
  have bits : ∑ p : Fin 64 × Fin 32,
      (if rowAt y = p.2 then ((stripe b x).getMsbD p.1).toNat else 0) = byteCount b := by
    rw [Fintype.sum_prod_type, ← sum_stripe h x]
    apply Finset.sum_congr rfl
    intro column _
    simp
  simp only [litCount, metCount, Finset.card_filter, Finset.mul_sum]
  rw [← Finset.sum_add_distrib, ← bits, ← Finset.sum_add_distrib]
  apply Finset.sum_congr rfl
  intro p _
  exact pixel p

/-! ## Meeting -/

theorem and_ne_zero_iff (u v : BitVec 64) :
    u &&& v ≠ 0#64 ↔ ∃ column : Fin 64, u.getMsbD column = true ∧ v.getMsbD column = true := by
  constructor
  · intro some_bit
    by_contra none
    apply some_bit
    apply BitVec.eq_of_getMsbD_eq
    intro i hi
    rw [BitVec.getMsbD_and, BitVec.getMsbD_zero, Bool.and_eq_false_imp]
    intro hu
    by_contra hv
    exact none ⟨⟨i, hi⟩, hu, Bool.eq_true_of_not_eq_false hv⟩
  · rintro ⟨column, hu, hv⟩ zero
    have bit := congrArg (·.getMsbD column) zero
    simp [hu, hv] at bit

theorem metCount_eq_zero_iff (d : Display) (x y b : Int) :
    d.metCount x y b = 0 ↔ d.rows.get (rowAt y) &&& stripe b x = 0#64 := by
  simp only [metCount, Finset.card_eq_zero, Finset.filter_eq_empty_iff, Finset.mem_univ,
    forall_const, Prod.forall]
  constructor
  · intro unmet
    by_contra some_bit
    obtain ⟨column, lit, bit⟩ := (and_ne_zero_iff _ _).mp some_bit
    exact unmet column (rowAt y) ⟨lit, rfl, bit⟩
  · rintro zero column row ⟨lit, rfl, bit⟩
    exact (and_ne_zero_iff _ _).mpr ⟨column, lit, bit⟩ zero

/-- **A sprite and its count.** The induction is on the sprite, and each byte adds what it loses to
what the bytes below it lose on the display that it leaves. -/
theorem count_stampAll {sprite : List Int} (h : ∀ b ∈ sprite, 0 ≤ b ∧ b < 256) (d : Display)
    (x y : Int) :
    ∃ lost, litCount { d with rows := stampAll x y sprite d.rows } + 2 * lost
        = d.litCount + spriteCount sprite ∧
      (lost = 0 ↔ meets x y sprite d.rows = false) := by
  induction sprite generalizing d y with
  | nil => exact ⟨0, rfl, by simp [meets]⟩
  | cons b bs ih =>
    have first := count_stamp (h b (by simp)) d x y
    obtain ⟨lost, count, nothing⟩ := ih (fun c hc => h c (by simp [hc]))
      { d with rows := stamp d.rows x y b } (y + 1)
    refine ⟨d.metCount x y b + lost, ?_, ?_⟩
    · rw [spriteCount, List.map_cons, List.sum_cons, ← spriteCount, stampAll]
      dsimp only at count
      omega
    · rw [Nat.add_eq_zero_iff, nothing, metCount_eq_zero_iff, meets, Bool.or_eq_false_iff,
        bne_eq_false_iff_eq]
      exact Iff.rfl

/-- A sprite puts nothing on a row that none of its bytes is on. -/
theorem ink_eq_zero {x y : Int} {sprite : List Int} {row : Fin 32}
    (h : ∀ i < sprite.length, rowAt (y + i) ≠ row) : ink x y sprite row = 0#64 := by
  induction sprite generalizing y with
  | nil => rfl
  | cons b bs ih =>
    have here : rowAt y ≠ row := by
      have := h 0 (by simp)
      simpa using this
    have below : ink x (y + 1) bs row = 0#64 := by
      apply ih
      intro i hi
      have := h (i + 1) (by simpa using hi)
      rw [show y + 1 + (i : Int) = y + (i + 1 : Nat) by omega]
      exact this
    rw [ink, if_neg here, below, BitVec.xor_self]

/-- A sprite that comes to no row twice finds each row as it was before. -/
theorem meets_iff {x y : Int} {sprite : List Int} (h : sprite.length ≤ 32)
    (rows : Vector (BitVec 64) 32) :
    meets x y sprite rows = true ↔ ∃ row : Fin 32, rows.get row &&& ink x y sprite row ≠ 0#64 := by
  induction sprite generalizing y rows with
  | nil => simp [meets, ink]
  | cons b bs ih =>
    have short : bs.length + 1 ≤ 32 := h
    have once : ink x (y + 1) bs (rowAt y) = 0#64 := by
      apply ink_eq_zero
      intro i hi same
      have := congrArg Fin.val same
      simp only [rowAt] at this
      omega
    have here : ink x y (b :: bs) (rowAt y) = stripe b x := by
      rw [ink, if_pos rfl, once, BitVec.xor_zero]
    have elsewhere : ∀ row, rowAt y ≠ row →
        (stamp rows x y b).get row &&& ink x (y + 1) bs row
          = rows.get row &&& ink x y (b :: bs) row := by
      intro row hrow
      rw [get_stamp, ink, if_neg hrow, BitVec.xor_zero, BitVec.zero_xor]
    rw [meets, Bool.or_eq_true, bne_iff_ne, ih (by omega)]
    constructor
    · rintro (first | ⟨row, later⟩)
      · exact ⟨rowAt y, by rwa [here]⟩
      · have hrow : rowAt y ≠ row := by
          rintro rfl
          rw [once, BitVec.and_zero] at later
          exact later rfl
        exact ⟨row, by rwa [← elsewhere row hrow]⟩
    · rintro ⟨row, met⟩
      by_cases hrow : rowAt y = row
      · subst hrow
        exact Or.inl (by rwa [here] at met)
      · exact Or.inr ⟨row, by rwa [elsewhere row hrow]⟩

theorem lit_draw_ink (d : Display) (x y : Int) (sprite : List Int) (column : Fin 64)
    (row : Fin 32) : (d.draw x y sprite).lit column row
      = (d.lit column row ^^ (ink x y sprite row).getMsbD column) := by
  show ((d.draw x y sprite).rows.get row).getMsbD column = _
  rw [get_draw, BitVec.getMsbD_xor]
  rfl

/-- **What drawing answers.** It is no exactly if the lit pixels have become more by the set bits of
the sprite. If the sprite is not taller than the display, it is yes exactly if a pixel went out. -/
theorem collides_exact (d : Display) (x y : Int) (sprite : List Int)
    (h : ∀ b ∈ sprite, 0 ≤ b ∧ b < 256) :
    (d.collides x y sprite = false ↔
      (d.draw x y sprite).litCount = d.litCount + spriteCount sprite) ∧
    (sprite.length ≤ 32 → (d.collides x y sprite = true ↔
      ∃ (column : Fin 64) (row : Fin 32),
        d.pixel column row = .ok true ∧ (d.draw x y sprite).pixel column row = .ok false)) := by
  constructor
  · obtain ⟨lost, count, nothing⟩ := count_stampAll h d x y
    have drawn : (d.draw x y sprite).litCount
        = litCount { d with rows := stampAll x y sprite d.rows } := rfl
    rw [collides, ← nothing, drawn]
    omega
  · intro short
    rw [collides, meets_iff short]
    simp only [and_ne_zero_iff, pixel_eq_lit, lit_draw_ink, Except.ok.injEq]
    constructor
    · rintro ⟨row, column, lit, inked⟩
      replace lit : d.lit column row = true := lit
      exact ⟨column, row, lit, by rw [lit, inked]; rfl⟩
    · rintro ⟨column, row, lit, dark⟩
      rw [lit, Bool.true_xor, Bool.not_eq_false'] at dark
      exact ⟨row, column, lit, dark⟩

/-- A sprite one byte taller than the display meets on a dark one what it has lit itself, and a dot
across the right edge is met from the other side. -/
theorem collides_exact_wrapped :
    let tall : List Int := List.replicate 33 0xFF
    let dot : List Int := [0x01, 0x80]
    let d := blank.draw 60 31 [0xFF]
    (∀ b ∈ tall, 0 ≤ b ∧ b < 256) ∧ (∀ b ∈ dot, 0 ≤ b ∧ b < 256) ∧ dot.length ≤ 32
      ∧ (blank.draw 7 0 tall).litCount ≠ blank.litCount + spriteCount tall
      ∧ ∃ (column : Fin 64) (row : Fin 32),
        d.pixel column row = .ok true ∧ (d.draw (-4) (-1) dot).pixel column row = .ok false := by
  intro tall dot d
  have bytes : ∀ b ∈ tall, 0 ≤ b ∧ b < 256 := by
    intro b hb
    rw [List.eq_of_mem_replicate hb]
    decide
  have dotBytes : ∀ b ∈ dot, 0 ≤ b ∧ b < 256 := by decide
  refine ⟨bytes, dotBytes, by decide, ?_, ?_⟩
  · intro counted
    have unmet := (collides_exact blank 7 0 tall bytes).1.mpr counted
    exact absurd unmet (by decide +kernel)
  · apply ((collides_exact d (-4) (-1) dot dotBytes).2 (by decide)).mp
    decide +kernel

end Display
end Chip8Vm
