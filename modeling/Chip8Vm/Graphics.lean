import Chip8Vm.Color

/-!
# Graphics

Windows are shown by a library, and it is not this one. A program asks it for the surface of a
window, paints on that, and an onlooker reads colours off it. `Graphics` is what such a library has
to offer; whatever shows a picture here takes one as a parameter.

Two things are promised of a library (`Graphics.Paints`): to fill a surface sets all of its pixels,
and a rectangle on it sets its own pixels and no others. Surfaces of windows are solid, so that what
was painted is read back without its alpha. Which windows there can be, and whether they are as
large as was asked for, is not promised. It is asked for where it is needed.
-/

set_option autoImplicit false

namespace Chip8Vm

/-- A library that shows windows. -/
structure Graphics where
  /-- What is to be seen in a window. -/
  Surface : Type
  width : Surface → Nat
  height : Surface → Nat
  /-- The surface of a window of a size, if there can be one. -/
  grant : (width height : Int) → Except Fault Surface
  /-- A surface with every pixel in one colour. -/
  fill : Color → Surface → Surface
  /-- A surface with a rectangle in one colour, by the column and the line of its corner and by its
  sides. -/
  rectangle : Color → (x y width height : Int) → Surface → Surface
  /-- The colour at a column and a line. -/
  read : Surface → (x y : Int) → Except Fault Color

/-- What is promised of a library that paints. -/
structure Graphics.Paints (g : Graphics) : Prop where
  width_fill : ∀ c s, g.width (g.fill c s) = g.width s
  height_fill : ∀ c s, g.height (g.fill c s) = g.height s
  width_rectangle : ∀ c x y w h s, g.width (g.rectangle c x y w h s) = g.width s
  height_rectangle : ∀ c x y w h s, g.height (g.rectangle c x y w h s) = g.height s
  /-- To fill a surface sets all of its pixels. -/
  read_fill : ∀ c s (px py : Nat), px < g.width s → py < g.height s →
    g.read (g.fill c s) px py = .ok c.solid
  /-- A rectangle on a surface sets its own pixels and no others. -/
  read_rectangle : ∀ c (x y w h : Int) s (px py : Nat), 0 ≤ x → 0 ≤ w → x + w ≤ g.width s →
    0 ≤ y → 0 ≤ h → y + h ≤ g.height s → px < g.width s → py < g.height s →
    g.read (g.rectangle c x y w h s) px py
      = if (x ≤ px ∧ px < x + w) ∧ y ≤ py ∧ py < y + h then .ok c.solid else g.read s px py

end Chip8Vm
