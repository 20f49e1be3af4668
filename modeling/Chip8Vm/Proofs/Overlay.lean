import Mathlib.Data.List.Perm.Basic
import Chip8Vm.Display

/-!
# Sprites one over the other

A sprite may be taller than the display, and then it comes back to rows that it has turned over
before. What it does to a row is one word all the same: the stripes of all its bytes on that row,
one over the other (`ink`). Drawing turns the rows over by these words and does nothing else
(`get_draw`), and everything that is known of the exclusive or is known of drawing:

> **the order of drawings makes no difference, and two that are the same undo each other**
> (`rows_drawAll`), however far apart they are and whatever is drawn in between.

A place is a place on the torus, so two drawings are the same if their columns agree modulo the
width and their rows modulo the height. Nothing is asked of the numbers in a sprite.
-/

set_option autoImplicit false

namespace Chip8Vm
namespace Display

/-! ## One sprite -/

/-- What a sprite puts on a row. -/
def ink (x : Int) : Int → List Int → Fin 32 → BitVec 64
  | _, [], _ => 0#64
  | y, b :: bs, row => (if rowAt y = row then stripe b x else 0#64) ^^^ ink x (y + 1) bs row

theorem get_stamp (rows : Vector (BitVec 64) 32) (x y b : Int) (row : Fin 32) :
    (stamp rows x y b).get row
      = rows.get row ^^^ if rowAt y = row then stripe b x else 0#64 := by
  show (stamp rows x y b)[row] = rows[row] ^^^ _
  by_cases hrow : rowAt y = row
  · subst hrow
    simp [stamp]
  · have apart : (rowAt y).val ≠ row.val := fun h => hrow (Fin.ext h)
    simp [stamp, hrow, Vector.getElem_set_ne _ _ apart]

theorem get_stampAll (x y : Int) (sprite : List Int) (rows : Vector (BitVec 64) 32)
    (row : Fin 32) : (stampAll x y sprite rows).get row = rows.get row ^^^ ink x y sprite row := by
  induction sprite generalizing y rows with
  | nil => simp [stampAll, ink]
  | cons b bs ih => rw [stampAll, ih, get_stamp, ink, BitVec.xor_assoc]

/-- **Drawing is an exclusive or**, row by row. -/
theorem get_draw (d : Display) (x y : Int) (sprite : List Int) (row : Fin 32) :
    (d.draw x y sprite).rows.get row = d.rows.get row ^^^ ink x y sprite row :=
  get_stampAll x y sprite d.rows row

/-- The column counts modulo the width only, and the row modulo the height. -/
theorem ink_congr {x x' y y' : Int} (hx : x % 64 = x' % 64) (hy : y % 32 = y' % 32)
    (sprite : List Int) : ink x y sprite = ink x' y' sprite := by
  have stripes : ∀ b, stripe b x = stripe b x' := by
    intro b
    simp only [stripe, hx]
  induction sprite generalizing y y' with
  | nil => rfl
  | cons b bs ih =>
    have first : rowAt y = rowAt y' := by
      apply Fin.ext
      simp only [rowAt, hy]
    have rest : ink x (y + 1) bs = ink x' (y' + 1) bs := ih (by omega)
    funext row
    simp only [ink, first, stripes, rest]

/-! ## Many of them -/

/-- A sprite and the place it is drawn at. -/
structure Drawing where
  x : Int
  y : Int
  sprite : List Int

/-- The same sprite at the same place of the torus. -/
structure Drawing.Same (a a' : Drawing) : Prop where
  column : a.x % 64 = a'.x % 64
  row : a.y % 32 = a'.y % 32
  sprite : a.sprite = a'.sprite

/-- Draw one sprite after the other. -/
def drawAll (drawings : List Drawing) (d : Display) : Display :=
  drawings.foldl (fun d a => d.draw a.x a.y a.sprite) d

/-- What a drawing leaves has to be shown, so its rows are all there is to it. -/
theorem draw_eq_of_rows {d d' : Display} {a a' : Drawing}
    (h : ∀ row : Fin 32,
      (d.draw a.x a.y a.sprite).rows.get row = (d'.draw a'.x a'.y a'.sprite).rows.get row) :
    d.draw a.x a.y a.sprite = d'.draw a'.x a'.y a'.sprite := by
  apply congrArg (Display.mk · true)
  apply Vector.ext
  intro i hi
  exact h ⟨i, hi⟩

theorem draw_comm (d : Display) (a a' : Drawing) :
    (d.draw a.x a.y a.sprite).draw a'.x a'.y a'.sprite
      = (d.draw a'.x a'.y a'.sprite).draw a.x a.y a.sprite := by
  apply draw_eq_of_rows
  intro row
  simp only [get_draw, BitVec.xor_assoc]
  rw [BitVec.xor_comm (ink a.x a.y a.sprite row)]

theorem drawAll_perm {drawings drawings' : List Drawing} (h : drawings.Perm drawings')
    (d : Display) : d.drawAll drawings = d.drawAll drawings' := by
  apply h.foldl_eq'
  intro a _ a' _ d
  exact d.draw_comm a a'

/-- A second drawing of the same takes the first one back. -/
theorem draw_same {a a' : Drawing} (h : a.Same a') (d : Display) :
    ((d.draw a.x a.y a.sprite).draw a'.x a'.y a'.sprite).rows = d.rows := by
  have ink_same : ink a'.x a'.y a'.sprite = ink a.x a.y a.sprite := by
    rw [← h.sprite, ink_congr h.column h.row]
  have row : ∀ row : Fin 32,
      ((d.draw a.x a.y a.sprite).draw a'.x a'.y a'.sprite).rows.get row = d.rows.get row := by
    intro row
    rw [get_draw, get_draw, ink_same, BitVec.xor_assoc, BitVec.xor_self, BitVec.xor_zero]
  apply Vector.ext
  intro i hi
  exact row ⟨i, hi⟩

/-- What is drawn does not depend on whether the display has to be shown. -/
theorem rows_drawAll_congr {d d' : Display} (h : d.rows = d'.rows) (drawings : List Drawing) :
    (d.drawAll drawings).rows = (d'.drawAll drawings).rows := by
  induction drawings generalizing d d' with
  | nil => exact h
  | cons a as ih =>
    apply ih
    simp only [draw, h]

theorem rows_drawAll_same {a a' : Drawing} (h : a.Same a') (before between after : List Drawing)
    (d : Display) :
    (d.drawAll (before ++ a :: (between ++ a' :: after))).rows
      = (d.drawAll (before ++ (between ++ after))).rows := by
  -- both are brought to the front, where nothing is drawn between them
  have front : (before ++ a :: (between ++ a' :: after)).Perm
      (a :: a' :: (before ++ (between ++ after))) := by
    have inner : (before ++ (between ++ a' :: after)).Perm
        (a' :: (before ++ (between ++ after))) := by
      rw [← List.append_assoc, ← List.append_assoc]
      exact List.perm_middle
    exact List.perm_middle.trans (inner.cons a)
  rw [drawAll_perm front]
  exact rows_drawAll_congr (draw_same h d) _

/-- **Drawings may be made in any order, and two of the same may be left out**, whatever the
display, the places and the numbers in the sprites. So what is drawn and drawn again is taken back,
and what was drawn in between stays. -/
theorem rows_drawAll (d : Display) (drawings : List Drawing) :
    (∀ drawings' : List Drawing, drawings.Perm drawings' →
      (d.drawAll drawings).rows = (d.drawAll drawings').rows) ∧
    (∀ (before between after : List Drawing) (a a' : Drawing),
      drawings = before ++ a :: (between ++ a' :: after) → a.Same a' →
      (d.drawAll drawings).rows = (d.drawAll (before ++ (between ++ after))).rows) ∧
    ∀ a a' : Drawing, a.Same a' →
      (d.drawAll (a :: (drawings ++ [a']))).rows = (d.drawAll drawings).rows := by
  refine ⟨?_, ?_, ?_⟩
  · intro drawings' h
    rw [drawAll_perm h]
  · intro before between after a a' split same
    rw [split]
    exact rows_drawAll_same same before between after d
  · intro a a' same
    have undone := rows_drawAll_same same [] drawings [] d
    rw [List.append_nil] at undone
    exact undone

/-- A sprite across a corner, of numbers that are no bytes; the same from the other side; and in
between one that goes round the display and meets itself. -/
theorem rows_drawAll_corner :
    let a : Drawing := ⟨-3, 30, [300, -1, 0x81]⟩
    let a' : Drawing := ⟨61, -2, [300, -1, 0x81]⟩
    let c : Drawing := ⟨60, 5, List.replicate 40 0xA5⟩
    a.Same a' ∧ [a, c, a'].Perm [c, a', a]
      ∧ (blank.drawAll [a, c, a']).rows = (blank.drawAll [c, a', a]).rows
      ∧ (blank.drawAll [a, c, a']).rows = (blank.drawAll [c]).rows
      ∧ (blank.drawAll [a, c]).rows ≠ (blank.drawAll [c]).rows := by
  intro a a' c
  have same : a.Same a' := ⟨by decide, by decide, rfl⟩
  have perm : ([a] ++ [c, a']).Perm ([c, a'] ++ [a]) := List.perm_append_comm
  obtain ⟨reordered, cancelled, -⟩ := rows_drawAll blank [a, c, a']
  refine ⟨same, perm, reordered _ perm, cancelled [] [c] [] a a' rfl same, ?_⟩
  decide +kernel

end Display
end Chip8Vm
