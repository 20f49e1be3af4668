import Chip8Vm.Display
import Chip8Vm.Graphics

/-!
# The window

A window shows a display on a surface, each pixel of the display as a square. The surface is filled
with the background when the window is made, and painted again whenever the display has changed
since it was last shown: it is filled once more, and then every lit pixel of the display gets its
square in the foreground.
-/

set_option autoImplicit false

namespace Chip8Vm

/-- The scale, the two colours, and what is to be seen. -/
structure Window (g : Graphics) where
  scale : Int
  background : Color
  foreground : Color
  surface : g.Surface

namespace Window

/-- Pixels to a side of a display pixel unless another scale is asked for. -/
def defaultScale : Int := 15

/-- The colour of dark pixels unless another is asked for. -/
def defaultBackground : Color := ⟨80, 69, 155, 255⟩

/-- The colour of lit pixels unless another is asked for. -/
def defaultForeground : Color := ⟨136, 126, 203, 255⟩

/-- A window with nothing lit. -/
def make (g : Graphics) (scale : Int) (background foreground : Color) :
    Except Fault (Window g) :=
  (g.grant (displayWidth * scale) (displayHeight * scale)).map fun surface =>
    ⟨scale, background, foreground, g.fill background surface⟩

variable {g : Graphics}

/-- The places of the display, row by row. -/
def places : List (Fin 64 × Fin 32) :=
  (List.finRange 32).flatMap fun row => (List.finRange 64).map fun column => (column, row)

/-- The surface with the square of one place in the foreground, if the place is lit. -/
def paintPlace (w : Window g) (d : Display) (surface : g.Surface) (place : Fin 64 × Fin 32) :
    g.Surface :=
  if d.lit place.1 place.2 then
    g.rectangle w.foreground (place.1 * w.scale) (place.2 * w.scale) w.scale w.scale surface
  else surface

/-- What is to be seen when a display is painted over what was. -/
def paint (w : Window g) (d : Display) : g.Surface :=
  places.foldl (w.paintPlace d) (g.fill w.background w.surface)

/-- Show a display that has changed since it was last shown. -/
def render (w : Window g) (d : Display) : Window g × Display :=
  if d.dirty then ({ w with surface := w.paint d }, { d with dirty := false }) else (w, d)

end Window

end Chip8Vm
