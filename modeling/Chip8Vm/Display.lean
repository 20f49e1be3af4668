import Chip8Vm.Number.Place
import Chip8Vm.Outcome

/-!
# The display

Thirty-two rows of sixty-four pixels. A row is one word whose most significant bit is column 0, and
a sprite byte drawn at a column becomes a word too, its *stripe*: the byte with its top bit on that
column, going round the right edge. Drawing is nothing but XOR of stripes into rows, and rows go
round the lower edge, so the display is a torus.

The view in which drawing is a matter of pixels is `lit`. A display also remembers that it has
changed since it was last shown (`dirty`).
-/

set_option autoImplicit false

namespace Chip8Vm

/-- The rows from the top, and whether they have to be shown again. -/
structure Display where
  rows : Vector (BitVec 64) 32
  dirty : Bool
  deriving DecidableEq

namespace Display

/-- A display with every pixel dark, to be shown. -/
def blank : Display := ⟨Vector.replicate 32 0#64, true⟩

/-- The display with every pixel turned off, to be shown. -/
def clear (d : Display) : Display := { d with rows := Vector.replicate 32 0#64, dirty := true }

/-- Whether the pixel at a column and a row is lit. -/
def lit (d : Display) (column : Fin 64) (row : Fin 32) : Bool := d.rows[row].getMsbD column

/-- The display with a whole row replaced; nobody is told to show it. -/
def setRow (row : Fin 32) (bits : BitVec 64) (d : Display) : Display :=
  { d with rows := d.rows.set row bits }

/-! ## Drawing -/

/-- A sprite byte as a word, its top bit on column `x` and what passes the right edge back at the
left. The byte stands at the left edge, is moved right by the column, and what that pushes out is
found again by moving it left by the rest of the width. -/
def stripe (byte x : Int) : BitVec 64 :=
  let column := (x % 64).toNat
  BitVec.ofInt 64 ((byte <<< (56 : Nat)) >>> column)
    ||| BitVec.ofInt 64 ((byte <<< (56 : Nat)) <<< (64 - column))

/-- The row that a vertical position falls on. -/
def rowAt (y : Int) : Fin 32 := ⟨(y % 32).toNat, by omega⟩

/-- Rows with the stripe of one sprite byte turned over. -/
def stamp (rows : Vector (BitVec 64) 32) (x y byte : Int) : Vector (BitVec 64) 32 :=
  rows.set (rowAt y) (rows[rowAt y] ^^^ stripe byte x)

/-- Rows with the stripes of a whole sprite turned over, one byte to a row. -/
def stampAll (x : Int) : Int → List Int → Vector (BitVec 64) 32 → Vector (BitVec 64) 32
  | _, [], rows => rows
  | y, b :: bs, rows => stampAll x (y + 1) bs (stamp rows x y b)

/-- Whether some byte of a sprite meets a lit pixel of its row at its turn. -/
def meets (x : Int) : Int → List Int → Vector (BitVec 64) 32 → Bool
  | _, [], _ => false
  | y, b :: bs, rows =>
    rows[rowAt y] &&& stripe b x != 0#64 || meets x (y + 1) bs (stamp rows x y b)

/-- The display with a sprite turned over at a position. -/
def draw (d : Display) (x y : Int) (sprite : List Int) : Display :=
  ⟨stampAll x y sprite d.rows, true⟩

/-- Whether drawing a sprite at a position turns a lit pixel off. -/
def collides (d : Display) (x y : Int) (sprite : List Int) : Bool := meets x y sprite d.rows

/-! ## Reading -/

/-- The pixel at a column, given as a number, of a row; columns left of the display are dark. -/
def pixelOfRow (d : Display) (column : Int) (row : Fin 32) : Except Fault Bool :=
  if 64 ≤ column then .error .columnPastEdge
  else if column < 0 then .ok false
  else .ok (d.rows[row].getMsbD column.toNat)

/-- The pixel at a column and a row given as numbers. Rows may be counted from the bottom by numbers
below zero, and the row is looked at before the column. -/
def pixel (d : Display) (column row : Int) : Except Fault Bool :=
  (Number.place 32 .noSuchRow row).bind (d.pixelOfRow column)

/-- A row as text, one character to a pixel. -/
def rowText (row : BitVec 64) : String :=
  String.ofList ((List.range 64).map fun column => if row.getMsbD column then '#' else '.')

/-- The rows as text, from the top, a line each. -/
def text (d : Display) : String := "\n".intercalate (d.rows.toList.map rowText)

@[simp] theorem lit_blank (column : Fin 64) (row : Fin 32) : blank.lit column row = false := by
  simp [lit, blank]

theorem pixel_eq_lit (d : Display) (column : Fin 64) (row : Fin 32) :
    d.pixel column row = .ok (d.lit column row) := by
  have inside : d.pixelOfRow column row = .ok (d.lit column row) := by
    unfold pixelOfRow
    rw [if_neg (by omega), if_neg (by omega)]
    simp [lit]
  unfold pixel
  rw [Number.place_natCast row (by decide)]
  exact inside

end Display

end Chip8Vm
