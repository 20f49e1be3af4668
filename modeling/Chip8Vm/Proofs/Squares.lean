import Mathlib.Data.List.Basic
import Chip8Vm.Window

/-!
# Squares

A window is painted square by square. What comes out is simpler than how it is made:

> **a pixel shows the place of the display that its coordinates fall in when they are divided by the
> scale** (`shows_paint`).

A pixel lies in one square only (`inSquare_iff`), so the order of the squares does not matter, and
nothing that is painted later takes a pixel away again. All of this is said of any library that
paints (`Graphics.Paints`) and of any surface that is as large as the scale asks for (`Exact`).
-/

set_option autoImplicit false

namespace Chip8Vm

namespace Window

variable {g : Graphics} {w : Window g} {d : Display} {scale : Int} {s : g.Surface} {px py : Nat}

/-! ## Places and pixels -/

/-- A pixel lies in the square of the place that division gives. -/
theorem inSquare_iff {place pixel : Int} (h : 0 < scale) :
    (place * scale ≤ pixel ∧ pixel < place * scale + scale) ↔ pixel / scale = place := by
  rw [← Int.le_ediv_iff_mul_le h, show place * scale + scale = (place + 1) * scale by
    rw [Int.add_mul, Int.one_mul], ← Int.ediv_lt_iff_lt_mul h]
  omega

/-- The square of a place ends where the last square ends, or before. -/
theorem square_le (h : 0 ≤ scale) {count : Nat} (place : Fin count) :
    place * scale + scale ≤ count * scale := by
  have next : (place : Int) + 1 ≤ count := by omega
  calc (place : Int) * scale + scale = (place + 1) * scale := by rw [Int.add_mul, Int.one_mul]
    _ ≤ count * scale := Int.mul_le_mul_of_nonneg_right next h

/-- A pixel of the surface belongs to a column and to a row of the display. -/
theorem exists_place (pos : 0 < scale) {count pixel : Nat} (h : pixel < count * scale) :
    ∃ place : Fin count, (pixel : Int) / scale = place := by
  have low : 0 ≤ (pixel : Int) / scale := Int.ediv_nonneg (by omega) (by omega)
  have high : (pixel : Int) / scale < count := (Int.ediv_lt_iff_lt_mul pos).mpr h
  exact ⟨⟨((pixel : Int) / scale).toNat, by omega⟩, (Int.toNat_of_nonneg low).symm⟩

theorem mem_places (place : Fin 64 × Fin 32) : place ∈ places := by
  refine List.mem_flatMap.mpr ⟨place.2, List.mem_finRange _, ?_⟩
  exact List.mem_map.mpr ⟨place.1, List.mem_finRange _, rfl⟩

/-! ## Surfaces of the right size -/

/-- A surface that has a square for each place of the display, and nothing else. -/
structure Exact (scale : Int) (s : g.Surface) : Prop where
  positive : 1 ≤ scale
  width : (g.width s : Int) = displayWidth * scale
  height : (g.height s : Int) = displayHeight * scale

namespace Exact

theorem inside_width (h : Exact scale s) (hx : px < displayWidth * scale) : px < g.width s := by
  have width := h.width
  omega

theorem inside_height (h : Exact scale s) (hy : py < displayHeight * scale) : py < g.height s := by
  have height := h.height
  omega

theorem fill (paints : g.Paints) (h : Exact scale s) (c : Color) : Exact scale (g.fill c s) where
  positive := h.positive
  width := by rw [paints.width_fill, h.width]
  height := by rw [paints.height_fill, h.height]

theorem paintPlace (paints : g.Paints) (h : Exact scale s) (place : Fin 64 × Fin 32) :
    Exact scale (w.paintPlace d s place) := by
  unfold Window.paintPlace
  split
  · exact ⟨h.positive, by rw [paints.width_rectangle, h.width],
      by rw [paints.height_rectangle, h.height]⟩
  · exact h

theorem foldl (paints : g.Paints) (places : List (Fin 64 × Fin 32)) (h : Exact scale s) :
    Exact scale (places.foldl (w.paintPlace d) s) := by
  induction places generalizing s with
  | nil => exact h
  | cons place places ih => exact ih (h.paintPlace paints place)

/-- Painting leaves a surface as large as it is. -/
theorem paint (paints : g.Paints) (h : Exact scale w.surface) (d : Display) :
    Exact scale (w.paint d) :=
  (h.fill paints w.background).foldl paints places

end Exact

/-! ## What is read off the surface -/

/-- The square of one place: the pixels in it get the foreground, and the others stay. -/
theorem read_paintPlace (paints : g.Paints) (exact : Exact w.scale s)
    (hx : px < displayWidth * w.scale) (hy : py < displayHeight * w.scale)
    {column : Fin 64} {row : Fin 32} (hc : (px : Int) / w.scale = column)
    (hr : (py : Int) / w.scale = row) (place : Fin 64 × Fin 32) :
    g.read (w.paintPlace d s place) px py
      = if place = (column, row) ∧ d.lit column row then .ok w.foreground.solid
        else g.read s px py := by
  obtain ⟨c, r⟩ := place
  have pos : 0 < w.scale := exact.positive
  -- a place is known by the quotients of its pixels
  have inside : (c, r) = (column, row) ↔ (px : Int) / w.scale = c ∧ (py : Int) / w.scale = r := by
    rw [Prod.mk.injEq, hc, hr]
    omega
  unfold paintPlace
  by_cases lit : d.lit c r
  · have left : 0 ≤ (c : Int) * w.scale := Int.mul_nonneg (by omega) (by omega)
    have top : 0 ≤ (r : Int) * w.scale := Int.mul_nonneg (by omega) (by omega)
    have right : (c : Int) * w.scale + w.scale ≤ g.width s :=
      exact.width ▸ square_le (by omega) c
    have bottom : (r : Int) * w.scale + w.scale ≤ g.height s :=
      exact.height ▸ square_le (by omega) r
    rw [if_pos lit, paints.read_rectangle _ _ _ _ _ _ _ _ left (by omega) right top (by omega)
      bottom (exact.inside_width hx) (exact.inside_height hy)]
    simp only [inSquare_iff pos, ← inside]
    by_cases here : (c, r) = (column, row)
    · cases here
      rw [if_pos rfl, if_pos ⟨rfl, lit⟩]
    · rw [if_neg here, if_neg fun both => here both.1]
  · rw [if_neg lit, if_neg]
    rintro ⟨here, there⟩
    cases here
    exact lit there

/-- Of many squares only that of its own place decides on a pixel, wherever in the order it is. -/
theorem read_foldl (paints : g.Paints) (exact : Exact w.scale s)
    (hx : px < displayWidth * w.scale) (hy : py < displayHeight * w.scale)
    {column : Fin 64} {row : Fin 32} (hc : (px : Int) / w.scale = column)
    (hr : (py : Int) / w.scale = row) (places : List (Fin 64 × Fin 32)) :
    g.read (places.foldl (w.paintPlace d) s) px py
      = if places.contains (column, row) ∧ d.lit column row then .ok w.foreground.solid
        else g.read s px py := by
  induction places generalizing s with
  | nil => rw [List.foldl_nil, if_neg (by simp)]
  | cons place places ih =>
    rw [List.foldl_cons, ih (exact.paintPlace paints place),
      read_paintPlace paints exact hx hy hc hr]
    by_cases lit : d.lit column row
    · by_cases here : place = (column, row)
      · -- painted once or again, the pixel has the same colour
        simp [here, lit]
      · simp [here, lit, Ne.symm here]
    · simp [lit]

/-- The window shows a display: each pixel has the colour of the place that it belongs to. -/
def Shows (w : Window g) (d : Display) : Prop :=
  ∀ px py : Nat, px < displayWidth * w.scale → py < displayHeight * w.scale →
    ∃ lit, d.pixel (px / w.scale) (py / w.scale) = .ok lit ∧
      g.read w.surface px py = .ok (if lit then w.foreground else w.background).solid

/-- A window shows a display whose places are lit where its pixels have the foreground. -/
theorem shows_of_read (pos : 1 ≤ w.scale)
    (h : ∀ (px py : Nat) (column : Fin 64) (row : Fin 32), px < displayWidth * w.scale →
      py < displayHeight * w.scale → (px : Int) / w.scale = column → (py : Int) / w.scale = row →
      g.read w.surface px py
        = .ok (if d.lit column row then w.foreground else w.background).solid) :
    w.Shows d := by
  intro px py hx hy
  obtain ⟨column, hc⟩ : ∃ column : Fin 64, (px : Int) / w.scale = column := exists_place pos hx
  obtain ⟨row, hr⟩ : ∃ row : Fin 32, (py : Int) / w.scale = row := exists_place pos hy
  refine ⟨d.lit column row, ?_, h px py column row hx hy hc hr⟩
  rw [hc, hr, d.pixel_eq_lit]

/-- **What is painted is the picture of the display.** -/
theorem shows_paint (paints : g.Paints) (exact : Exact w.scale w.surface) (d : Display) :
    Shows { w with surface := w.paint d } d := by
  refine shows_of_read exact.positive fun px py column row hx hy hc hr => ?_
  have filled := exact.fill paints w.background
  dsimp only at hx hy hc hr ⊢
  rw [paint, read_foldl paints filled hx hy hc hr,
    paints.read_fill _ _ _ _ (exact.inside_width hx) (exact.inside_height hy)]
  simp only [List.contains_iff_mem, mem_places, true_and]
  split <;> rfl

/-- Nothing is painted over the background for a dark display. -/
theorem paint_dark (w : Window g) (dark : ∀ column row, d.lit column row = false) :
    w.paint d = g.fill w.background w.surface := by
  refine List.foldl_fixed' (fun place => ?_) places
  rw [paintPlace, if_neg (by simp [dark])]

/-- A window in which nothing was painted yet shows a dark display. -/
theorem shows_fill (paints : g.Paints) (exact : Exact scale s) (background foreground : Color)
    (dark : ∀ column row, d.lit column row = false) :
    Shows ⟨scale, background, foreground, g.fill background s⟩ d := by
  have shows := shows_paint (w := ⟨scale, background, foreground, s⟩) paints exact d
  rwa [paint_dark _ dark] at shows

end Window
end Chip8Vm
