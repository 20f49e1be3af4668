/-!
# Lists of numbers as text

Numbers in decimal, a comma and a blank between two of them, square brackets around all.
-/

set_option autoImplicit false

namespace Chip8Vm.Text

/-- The text of a list of numbers. -/
def listed (items : List Int) : String :=
  "[" ++ ", ".intercalate (items.map fun n => toString n) ++ "]"

end Chip8Vm.Text
