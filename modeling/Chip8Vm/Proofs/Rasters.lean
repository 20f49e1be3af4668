import Chip8Vm.Raster

/-!
# Rasters paint

A raster cuts what it is given down to thirty-two bits and clips it to its edges. Of a rectangle
that lies on it neither changes anything, since a raster is not large (`Raster.small`):

> **the library that paints into memory keeps what is promised of one that paints**
> (`Graphics.paints_raster`).

So whatever is proved of all such libraries is proved of one that runs.
-/

set_option autoImplicit false

namespace Chip8Vm

namespace Raster

variable {s : Raster} {c : Color} {px py : Nat}

/-! ## Lines -/

theorem getElem?_paintLine (c : Color) (x count : Nat) (pixels : Array Color) (px : Nat) :
    (paintLine c x count pixels)[px]?
      = if x ≤ px ∧ px < x + count then pixels[px]?.map fun _ => c else pixels[px]? := by
  induction count generalizing x pixels with
  | zero => rw [paintLine, if_neg (by omega)]
  | succ count ih =>
    rw [paintLine, ih, Array.getElem?_setIfInBounds]
    by_cases here : x = px
    · subst here
      have beyond : ¬ (x + 1 ≤ x ∧ x < x + 1 + count) := by omega
      have first : x ≤ x ∧ x < x + (count + 1) := by omega
      rw [if_neg beyond, if_pos rfl, if_pos first]
      by_cases hx : x < pixels.size
      · rw [if_pos hx, Array.getElem?_eq_getElem hx]
        rfl
      · rw [if_neg hx, Array.getElem?_eq_none (by omega)]
        rfl
    · rw [if_neg here]
      congr 1
      exact propext (by omega)

/-- What clipping takes away is off the raster. -/
theorem clip_iff {limit place : Nat} (h : place < limit) (start length : Int) :
    (clip limit start length).1 ≤ place
        ∧ place < (clip limit start length).1 + (clip limit start length).2
      ↔ start ≤ place ∧ place < start + length := by
  unfold clip
  dsimp only
  omega

/-! ## Places on a raster -/

/-- Every place on a raster has a colour. -/
theorem exists_color? (hx : px < s.width) (hy : py < s.height) : ∃ c, s.color? px py = some c := by
  have line : py < s.lines.size := by rw [s.size_lines]; exact hy
  have pixel : px < s.lines[py].size := by rw [s.size_line _ (Array.getElem_mem line)]; exact hx
  refine ⟨s.lines[py][px], ?_⟩
  rw [color?, Array.getElem?_eq_getElem line, Option.bind_some, Array.getElem?_eq_getElem pixel]

theorem color?_filled {width height : Nat} {small : width ≤ 16384 ∧ height ≤ 16384}
    (hx : px < width) (hy : py < height) (c : Color) :
    (filled width height small c).color? px py = some c := by
  simp [filled, color?, hx, hy]

/-- What is as long as a side of a raster is kept as it is. -/
theorem signed_of_le {n : Int} (low : 0 ≤ n) (high : n ≤ 16384) : Number.signed 31 n = n := by
  refine Number.signed_eq_self ?_
  simp only [Number.fits, Nat.pow_eq, Bool.and_eq_true, decide_eq_true_eq]
  omega

/-- A rectangle that lies on a raster sets the pixels in it and leaves the others. -/
theorem color?_rectangle {x y width height : Int} (left : 0 ≤ x) (wide : 0 ≤ width)
    (right : x + width ≤ s.width) (top : 0 ≤ y) (tall : 0 ≤ height)
    (bottom : y + height ≤ s.height) (hx : px < s.width) (hy : py < s.height) (c : Color) :
    (s.rectangle c x y width height).color? px py
      = if (x ≤ px ∧ px < x + width) ∧ y ≤ py ∧ py < y + height then some c
        else s.color? px py := by
  have small := s.small
  have size_x : Number.signed 31 x = x := signed_of_le left (by omega)
  have size_width : Number.signed 31 width = width := signed_of_le wide (by omega)
  have size_y : Number.signed 31 y = y := signed_of_le top (by omega)
  have size_height : Number.signed 31 height = height := signed_of_le tall (by omega)
  obtain ⟨before, there⟩ := exists_color? hx hy
  rw [there]
  unfold color? at there ⊢
  simp only [rectangle, size_x, size_width, size_y, size_height, getElem?_paintLines, clip_iff hy]
  by_cases inLine : y ≤ py ∧ py < y + height
  · obtain ⟨line, found, pixel⟩ := Option.bind_eq_some_iff.mp there
    simp only [inLine, and_self, and_true, if_true, found, Option.map_some, Option.bind_some,
      getElem?_paintLine, clip_iff hx, pixel]
  · rw [if_neg inLine, if_neg fun both => inLine both.2, there]

/-! ## Reading -/

theorem coordinateFault?_of_le (h : px ≤ 16384) : coordinateFault? px = none := by
  have long : Number.fits 63 px = true := Number.fits_natCast (Nat.lt_of_le_of_lt h (by decide))
  have short : Number.fits 31 px = true := Number.fits_natCast (Nat.lt_of_le_of_lt h (by decide))
  simp [coordinateFault?, long, short]

/-- What is read on a raster is the colour there, which nothing shows through. -/
theorem read_eq (hx : px < s.width) (hy : py < s.height) (there : s.color? px py = some c) :
    s.read px py = .ok c.solid := by
  have small := s.small
  have column : coordinateFault? px = none := coordinateFault?_of_le (by omega)
  have line : coordinateFault? py = none := coordinateFault?_of_le (by omega)
  rw [read, column, line, Option.none_or]
  dsimp only
  rw [if_neg (by omega), Int.toNat_natCast, Int.toNat_natCast, there]
  rfl

theorem read_filled {width height : Nat} {small : width ≤ 16384 ∧ height ≤ 16384} (hx : px < width)
    (hy : py < height) (c : Color) : (filled width height small c).read px py = .ok c.solid :=
  read_eq (s := filled width height small c) hx hy (color?_filled hx hy c)

theorem read_rectangle {x y width height : Int} (left : 0 ≤ x) (wide : 0 ≤ width)
    (right : x + width ≤ s.width) (top : 0 ≤ y) (tall : 0 ≤ height)
    (bottom : y + height ≤ s.height) (hx : px < s.width) (hy : py < s.height) (c : Color) :
    (s.rectangle c x y width height).read px py
      = if (x ≤ px ∧ px < x + width) ∧ y ≤ py ∧ py < y + height then .ok c.solid
        else s.read px py := by
  have painted := color?_rectangle left wide right top tall bottom hx hy c
  obtain ⟨before, there⟩ := exists_color? hx hy
  have sameX : px < (s.rectangle c x y width height).width := hx
  have sameY : py < (s.rectangle c x y width height).height := hy
  split
  next inside =>
    rw [if_pos inside] at painted
    exact read_eq sameX sameY painted
  next outside =>
    rw [if_neg outside, there] at painted
    rw [read_eq sameX sameY painted, read_eq hx hy there]

end Raster

/-- **Rasters keep what is promised of a library that paints.** -/
theorem Graphics.paints_raster : Graphics.raster.Paints where
  width_fill _ _ := rfl
  height_fill _ _ := rfl
  width_rectangle _ _ _ _ _ _ := rfl
  height_rectangle _ _ _ _ _ _ := rfl
  read_fill c _ _ _ hx hy := by
    dsimp only [Graphics.raster] at hx hy ⊢
    exact Raster.read_filled hx hy c
  read_rectangle c _ _ _ _ _ _ _ left wide right top tall bottom hx hy := by
    dsimp only [Graphics.raster] at right bottom hx hy ⊢
    exact Raster.read_rectangle left wide right top tall bottom hx hy c

end Chip8Vm
