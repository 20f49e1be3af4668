import Chip8Vm.Proofs.Overlay
import Chip8Vm.Proofs.Stripes

/-!
# The display has no edges

Columns go round at sixty-four and rows at thirty-two, so a display may be rolled: every pixel goes
the same way to the right and down, and what leaves at an edge comes back at the other one. Drawing
takes no notice of where the edges are:

> **a sprite drawn at a place of the rolled display is the sprite drawn first and the display rolled
> afterwards** (`draw_roll`), and what drawing answers is the same.

A row is rolled as a word (`turn`), and a column of it is read where it came from (`getMsbD_turn`).
That sprites are made of bytes is needed. A number with more bits has some outside the eight columns
of its byte, and there the edges do count.
-/

set_option autoImplicit false

namespace Chip8Vm
namespace Display

/-- The column that a horizontal position falls on. -/
def columnAt (x : Int) : Fin 64 := ⟨(x % 64).toNat, by omega⟩

theorem val_columnAt (x : Int) : ((columnAt x).val : Int) = x % 64 := by
  simp only [columnAt]
  omega

theorem val_rowAt (y : Int) : ((rowAt y).val : Int) = y % 32 := by
  simp only [rowAt]
  omega

theorem columnAt_eq {x : Int} {c : Fin 64} (h : x % 64 = c) : columnAt x = c := by
  apply Fin.ext
  have := val_columnAt x
  omega

theorem rowAt_eq {y : Int} {r : Fin 32} (h : y % 32 = r) : rowAt y = r := by
  apply Fin.ext
  have := val_rowAt y
  omega

/-- A row with its pixels moved to the right, going round. -/
def turn (k : Int) (row : BitVec 64) : BitVec 64 := row.rotateRight (k % 64).toNat

/-- Rows moved to the right and down, going round both ways. -/
def rollRows (dx dy : Int) (rows : Vector (BitVec 64) 32) : Vector (BitVec 64) 32 :=
  Vector.ofFn fun row => turn dx rows[rowAt (row - dy)]

/-- The display with every pixel moved to the right and down, going round both ways. -/
def roll (dx dy : Int) (d : Display) : Display := { d with rows := rollRows dx dy d.rows }

/-! ## One row -/

theorem getMsbD_turn (k : Int) (row : BitVec 64) (c : Fin 64) :
    (turn k row).getMsbD c = row.getMsbD (columnAt (c - k)) := by
  rw [turn, BitVec.getMsbD_rotateRight, decide_eq_true c.isLt, Bool.true_and]
  have short : (k % 64).toNat % 64 = (k % 64).toNat := by omega
  have column := val_columnAt (c - k)
  rw [short]
  by_cases left : c.val < (k % 64).toNat
  · -- a column left of the distance is one that came round the edge
    have source : (64 + c.val - (k % 64).toNat) % 64 = (columnAt (c - k)).val := by omega
    rw [if_pos left, source]
  · have source : c.val - (k % 64).toNat = (columnAt (c - k)).val := by omega
    rw [if_neg left, source]

theorem getMsbD_turn_add (k : Int) (row : BitVec 64) (c : Fin 64) :
    (turn k row).getMsbD (columnAt (c + k)) = row.getMsbD c := by
  have back : columnAt ((columnAt (c + k) : Fin 64) - k) = c := by
    apply columnAt_eq
    rw [val_columnAt]
    omega
  rw [getMsbD_turn, back]

theorem turn_xor (k : Int) (u v : BitVec 64) : turn k (u ^^^ v) = turn k u ^^^ turn k v := by
  apply BitVec.eq_of_getMsbD_eq
  intro c hc
  have column := fun row => getMsbD_turn k row ⟨c, hc⟩
  dsimp only at column
  rw [BitVec.getMsbD_xor, column, column, column, BitVec.getMsbD_xor]

theorem turn_and (k : Int) (u v : BitVec 64) : turn k (u &&& v) = turn k u &&& turn k v := by
  apply BitVec.eq_of_getMsbD_eq
  intro c hc
  have column := fun row => getMsbD_turn k row ⟨c, hc⟩
  dsimp only at column
  rw [BitVec.getMsbD_and, column, column, column, BitVec.getMsbD_and]

theorem turn_eq_zero_iff {k : Int} {row : BitVec 64} : turn k row = 0#64 ↔ row = 0#64 := by
  constructor
  · intro dark
    apply BitVec.eq_of_getMsbD_eq
    intro c hc
    rw [← getMsbD_turn_add k row ⟨c, hc⟩, dark, BitVec.getMsbD_zero, BitVec.getMsbD_zero]
  · rintro rfl
    apply BitVec.eq_of_getMsbD_eq
    intro c hc
    exact (getMsbD_turn k 0#64 ⟨c, hc⟩).trans (by simp)

/-- **The stripe of a byte further to the right** is the stripe, turned by so much. -/
theorem turn_stripe {b : Int} (h : 0 ≤ b ∧ b < 256) (k x : Int) :
    turn k (stripe b x) = stripe b (x + k) := by
  apply BitVec.eq_of_getMsbD_eq
  intro c hc
  rw [getMsbD_turn k _ ⟨c, hc⟩, getMsbD_stripe_of_byte h,
    getMsbD_stripe_of_byte h (x + k) ⟨c, hc⟩]
  have offset : (((columnAt ((c : Int) - k)).val : Int) - x) % 64 = (c - (x + k)) % 64 := by
    rw [val_columnAt]
    omega
  rw [offset]

/-! ## All rows -/

theorem get_rollRows (dx dy y : Int) (rows : Vector (BitVec 64) 32) :
    (rollRows dx dy rows).get (rowAt (y + dy)) = turn dx (rows.get (rowAt y)) := by
  have back : rowAt ((rowAt (y + dy) : Fin 32) - dy) = rowAt y := by
    apply rowAt_eq
    rw [val_rowAt, val_rowAt]
    omega
  have moved : (rollRows dx dy rows).get (rowAt (y + dy))
      = turn dx (rows.get (rowAt ((rowAt (y + dy) : Fin 32) - dy))) := Vector.getElem_ofFn _
  rw [moved, back]

/-- Two displays' rows are the same if they are the same where they have been rolled to. -/
theorem rows_ext_rolled (dy : Int) {rows rows' : Vector (BitVec 64) 32}
    (h : ∀ y : Int, rows.get (rowAt (y + dy)) = rows'.get (rowAt (y + dy))) : rows = rows' := by
  apply Vector.ext
  intro i hi
  have place : rowAt ((i - dy : Int) + dy) = ⟨i, hi⟩ := by
    apply rowAt_eq
    dsimp only
    omega
  have same := h (i - dy)
  rw [place] at same
  exact same

theorem stamp_rollRows {b : Int} (h : 0 ≤ b ∧ b < 256) (rows : Vector (BitVec 64) 32)
    (x y dx dy : Int) :
    stamp (rollRows dx dy rows) (x + dx) (y + dy) b = rollRows dx dy (stamp rows x y b) := by
  apply rows_ext_rolled dy
  intro y'
  have same_row : rowAt (y + dy) = rowAt (y' + dy) ↔ rowAt y = rowAt y' := by
    have := val_rowAt y
    have := val_rowAt y'
    have := val_rowAt (y + dy)
    have := val_rowAt (y' + dy)
    rw [Fin.ext_iff, Fin.ext_iff]
    omega
  rw [get_stamp, get_rollRows, get_rollRows, get_stamp, turn_xor]
  by_cases hrow : rowAt y = rowAt y'
  · rw [if_pos hrow, if_pos (same_row.mpr hrow), turn_stripe h]
  · rw [if_neg hrow, if_neg (mt same_row.mp hrow), turn_eq_zero_iff.mpr rfl]

/-- A sprite and a roll. The induction is on the sprite, the next byte being a row further down on
both sides. -/
theorem stampAll_rollRows {sprite : List Int} (h : ∀ b ∈ sprite, 0 ≤ b ∧ b < 256)
    (rows : Vector (BitVec 64) 32) (x y dx dy : Int) :
    stampAll (x + dx) (y + dy) sprite (rollRows dx dy rows)
      = rollRows dx dy (stampAll x y sprite rows) := by
  induction sprite generalizing y rows with
  | nil => rfl
  | cons b bs ih =>
    have below := ih (fun c hc => h c (by simp [hc])) (stamp rows x y b) (y + 1)
    rw [stampAll, stampAll, stamp_rollRows (h b (by simp)), ← below,
      show y + dy + 1 = y + 1 + dy by omega]

/-- What a sprite meets it meets on the rolled rows too, where it has been rolled to. -/
theorem meets_rollRows {sprite : List Int} (h : ∀ b ∈ sprite, 0 ≤ b ∧ b < 256)
    (rows : Vector (BitVec 64) 32) (x y dx dy : Int) :
    meets (x + dx) (y + dy) sprite (rollRows dx dy rows) = meets x y sprite rows := by
  induction sprite generalizing y rows with
  | nil => rfl
  | cons b bs ih =>
    have byte := h b (by simp)
    have below := ih (fun c hc => h c (by simp [hc])) (stamp rows x y b) (y + 1)
    have row : (rollRows dx dy rows)[rowAt (y + dy)] = turn dx rows[rowAt y] :=
      get_rollRows dx dy y rows
    have first : ((rollRows dx dy rows)[rowAt (y + dy)] &&& stripe b (x + dx) != 0#64)
        = (rows[rowAt y] &&& stripe b x != 0#64) := by
      rw [row, ← turn_stripe byte, ← turn_and, Bool.eq_iff_iff, bne_iff_ne, bne_iff_ne, ne_eq,
        ne_eq, turn_eq_zero_iff]
    rw [meets, meets, first, stamp_rollRows byte, ← below, show y + dy + 1 = y + 1 + dy by omega]

/-! ## The display -/

theorem lit_roll (d : Display) (dx dy : Int) (column : Fin 64) (row : Fin 32) :
    (d.roll dx dy).lit (columnAt (column + dx)) (rowAt (row + dy)) = d.lit column row := by
  have here : rowAt (row.val : Int) = row := rowAt_eq (by omega)
  have rolled := get_rollRows dx dy row.val d.rows
  rw [here] at rolled
  have moved : (d.roll dx dy).rows[rowAt (row + dy)] = turn dx d.rows[row] := rolled
  rw [lit, moved, getMsbD_turn_add, lit]

/-- **Drawing and rolling.** Rolling takes every pixel to where it belongs. Drawing a sprite of
bytes as much further to the right and down as the display has been rolled leaves the display that
drawing before rolling leaves, and gives the same answer, whatever the place and the distances. -/
theorem draw_roll (d : Display) (x y dx dy : Int) (sprite : List Int)
    (h : ∀ b ∈ sprite, 0 ≤ b ∧ b < 256) :
    (∀ (column : Fin 64) (row : Fin 32),
      (d.roll dx dy).pixel ((column + dx) % 64) ((row + dy) % 32) = d.pixel column row) ∧
    (d.roll dx dy).draw (x + dx) (y + dy) sprite = (d.draw x y sprite).roll dx dy ∧
    (d.roll dx dy).collides (x + dx) (y + dy) sprite = d.collides x y sprite := by
  refine ⟨?_, ?_, ?_⟩
  · intro column row
    rw [← val_columnAt, ← val_rowAt, pixel_eq_lit, pixel_eq_lit, lit_roll]
  · exact congrArg (Display.mk · true) (stampAll_rollRows h d.rows x y dx dy)
  · exact meets_rollRows h d.rows x y dx dy

/-- A sprite that goes over a corner and meets a dot there, on a display rolled to the left by more
than its width and down: both the dot and the collision are where they have been rolled to. -/
theorem draw_roll_corner :
    let sprite : List Int := [0x81, 0xFF, 0x42]
    let d := blank.draw 3 0 [0x80]
    (∀ b ∈ sprite, 0 ≤ b ∧ b < 256)
      ∧ (d.roll (-70) 7).pixel ((3 + -70) % 64) ((0 + 7) % 32) = .ok true
      ∧ (d.roll (-70) 7).collides (60 + -70) (31 + 7) sprite = true
      ∧ (d.roll (-70) 7).draw (60 + -70) (31 + 7) sprite = (d.draw 60 31 sprite).roll (-70) 7 := by
  intro sprite d
  have bytes : ∀ b ∈ sprite, 0 ≤ b ∧ b < 256 := by decide
  obtain ⟨pixels, drawn, answer⟩ := draw_roll d 60 31 (-70) 7 sprite bytes
  refine ⟨bytes, (pixels 3 0).trans ?_, answer.trans ?_, drawn⟩
  · decide +kernel
  · decide +kernel

end Display
end Chip8Vm
