/-!
# Blanks

What may stand around a number. A text of ASCII characters alone knows six blanks; a text that
leaves ASCII knows the wide blanks of Unicode as well. The separators `0x1C` to `0x1F` are no
blanks in either.
-/

set_option autoImplicit false

namespace Chip8Vm.Text

/-- Tab, line feed, vertical tab, form feed, carriage return and the blank itself. -/
def isAsciiBlank (c : Char) : Bool :=
  c == ' ' || (9 ≤ c.toNat && c.toNat ≤ 13)

/-- The blanks above ASCII. -/
def isWideBlank (c : Char) : Bool :=
  let n := c.toNat
  n == 0x85 || n == 0xA0 || n == 0x1680 || (0x2000 ≤ n && n ≤ 0x200A) || n == 0x2028
    || n == 0x2029 || n == 0x202F || n == 0x205F || n == 0x3000

/-- Either kind. -/
def isBlank (c : Char) : Bool := isAsciiBlank c || isWideBlank c

end Chip8Vm.Text
