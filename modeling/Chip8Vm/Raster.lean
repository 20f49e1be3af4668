import Chip8Vm.Graphics
import Chip8Vm.Number.Signed

/-!
# Rasters

A library that paints into memory: a surface is a rectangle of pixels, line by line from the top.

Sizes and places are kept in thirty-two bits, so those that are longer are cut down before they
mean anything. A window that then has no size at all covers the desktop, one with a side that is
still too long cannot be had, and a rectangle that reaches over an edge is clipped there.

`Raster.color?` is the view: the colour at a place, if the place is on the surface.
-/

set_option autoImplicit false

namespace Chip8Vm

/-- A rectangle of pixels, line by line from the top. -/
structure Raster where
  width : Nat
  height : Nat
  lines : Array (Array Color)
  size_lines : lines.size = height
  size_line : ∀ line ∈ lines, line.size = width
  small : width ≤ 16384 ∧ height ≤ 16384

namespace Raster

/-- Columns of the desktop. -/
def desktopWidth : Nat := 1024

/-- Lines of the desktop. -/
def desktopHeight : Nat := 768

/-- The longest side of a window. -/
def sideLimit : Int := 16384

/-- What a window shows before anything is painted. -/
def black : Color := ⟨0, 0, 0, 255⟩

/-- A raster of one colour. -/
def filled (width height : Nat) (small : width ≤ 16384 ∧ height ≤ 16384) (c : Color) : Raster where
  width := width
  height := height
  lines := Array.replicate height (Array.replicate width c)
  size_lines := Array.size_replicate
  size_line line h := by rw [(Array.mem_replicate.mp h).2, Array.size_replicate]
  small := small

/-- The colour at a column and a line. -/
def color? (s : Raster) (x y : Nat) : Option Color := s.lines[y]?.bind fun pixels => pixels[x]?

/-- What is wrong with a coordinate that cannot be kept. -/
def coordinateFault? (i : Int) : Option Fault :=
  if !Number.fits 63 i then some .coordinateTooLong
  else if Number.fits 31 i then none
  else if i < 0 then some .coordinateBelow
  else some .coordinateAbove

/-- The colour at a place given by numbers. The column is looked at before the line, and both before
the surface. -/
def read (s : Raster) (x y : Int) : Except Fault Color :=
  match (coordinateFault? x).or (coordinateFault? y) with
  | some fault => .error fault
  | none =>
    if x < 0 ∨ y < 0 then .error .noSuchPixel
    else (s.color? x.toNat y.toNat).elim (.error .noSuchPixel) fun c => .ok c.solid

/-- A line with `count` pixels from `x` on in a colour. -/
def paintLine (c : Color) (x : Nat) : (count : Nat) → Array Color → Array Color
  | 0, line => line
  | count + 1, line => paintLine c (x + 1) count (line.setIfInBounds x c)

/-- Lines with `count` of them from `y` on painted. -/
def paintLines (paint : Array Color → Array Color) (y : Nat) :
    (count : Nat) → Array (Array Color) → Array (Array Color)
  | 0, lines => lines
  | count + 1, lines => paintLines paint (y + 1) count (lines.modify y paint)

/-- Where a stretch from a place on begins and how much of it there is, between zero and a limit. -/
def clip (limit : Nat) (start length : Int) : Nat × Nat :=
  let first := (max 0 start).toNat
  (first, (min (limit : Int) (start + length)).toNat - first)

theorem size_paintLine (c : Color) (x count : Nat) (line : Array Color) :
    (paintLine c x count line).size = line.size := by
  induction count generalizing x line with
  | zero => rfl
  | succ count ih => rw [paintLine, ih, Array.size_setIfInBounds]

theorem size_paintLines (paint : Array Color → Array Color) (y count : Nat)
    (lines : Array (Array Color)) : (paintLines paint y count lines).size = lines.size := by
  induction count generalizing y lines with
  | zero => rfl
  | succ count ih => rw [paintLines, ih, Array.size_modify]

theorem getElem?_paintLines (paint : Array Color → Array Color) (y count : Nat)
    (lines : Array (Array Color)) (py : Nat) :
    (paintLines paint y count lines)[py]?
      = if y ≤ py ∧ py < y + count then lines[py]?.map paint else lines[py]? := by
  induction count generalizing y lines with
  | zero => rw [paintLines, if_neg (by omega)]
  | succ count ih =>
    rw [paintLines, ih, Array.getElem?_modify]
    by_cases here : y = py
    · rw [if_neg (by omega), if_pos here, if_pos (by omega)]
    · rw [if_neg here]
      congr 1
      exact propext (by omega)

/-- Painting leaves the lines as long as they were. -/
theorem size_line_paintLines {paint : Array Color → Array Color} {lines : Array (Array Color)}
    {width : Nat} (kept : ∀ line, (paint line).size = line.size)
    (h : ∀ line ∈ lines, line.size = width) (y count : Nat) :
    ∀ line ∈ paintLines paint y count lines, line.size = width := by
  intro line painted
  obtain ⟨py, found⟩ := Array.mem_iff_getElem?.mp painted
  rw [getElem?_paintLines] at found
  split at found
  · obtain ⟨before, there, rfl⟩ := Option.map_eq_some_iff.mp found
    rw [kept]
    exact h before (Array.mem_iff_getElem?.mpr ⟨py, there⟩)
  · exact h line (Array.mem_iff_getElem?.mpr ⟨py, found⟩)

/-- The raster with a rectangle in a colour, its corner at a column and a line, as far as it is on
the raster. -/
def rectangle (c : Color) (x y width height : Int) (s : Raster) : Raster :=
  let (column, columns) := clip s.width (Number.signed 31 x) (Number.signed 31 width)
  let (line, lines) := clip s.height (Number.signed 31 y) (Number.signed 31 height)
  { s with
    lines := paintLines (paintLine c column columns) line lines s.lines
    size_lines := (size_paintLines ..).trans s.size_lines
    size_line := size_line_paintLines (size_paintLine c column columns) s.size_line line lines }

/-- The raster of a window of a size. -/
def ofSize (width height : Int) : Except Fault Raster :=
  let columns := Number.signed 31 width
  let lines := Number.signed 31 height
  if !(Number.fits 63 width && Number.fits 63 height) then .error .noWindowSize
  else if columns < 0 ∨ lines < 0 then .error .negativeWindow
  else if large : sideLimit < columns ∨ sideLimit < lines then .error .windowTooLarge
  else if columns = 0 ∧ lines = 0 then .ok (filled desktopWidth desktopHeight (by decide) black)
  else .ok (filled columns.toNat lines.toNat (by unfold sideLimit at large; omega) black)

end Raster

/-- The library that paints into memory. -/
def Graphics.raster : Graphics where
  Surface := Raster
  width := Raster.width
  height := Raster.height
  grant := Raster.ofSize
  fill c s := .filled s.width s.height s.small c
  rectangle := Raster.rectangle
  read := Raster.read

end Chip8Vm
