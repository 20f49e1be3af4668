import Chip8Vm.Text.Printable

/-!
# Quoted text

Messages show a text that the user gave between quotes. The quote is the single one unless the text
has single quotes and no double one. Inside, the chosen quote and the backslash stand behind a
backslash, three controls have letters, and any other character without a form of its own is
written by its number: two, four or eight hexadecimal digits, the fewest of these that hold it.
-/

set_option autoImplicit false

namespace Chip8Vm.Text

/-- A code point as exactly `width` lower case hexadecimal digits, low digits last. -/
def codeDigits : Nat → Nat → List Char
  | 0, _ => []
  | width + 1, n => codeDigits width (n / 16) ++ [Nat.digitChar (n % 16)]

/-- The spelling of one character between quotes of the given kind. -/
def escape (quote c : Char) : List Char :=
  if c = quote ∨ c = '\x5c' then ['\x5c', c]
  else if c = '\t' then ['\x5c', 't']
  else if c = '\n' then ['\x5c', 'n']
  else if c = '\r' then ['\x5c', 'r']
  else if isPrintable c then [c]
  else if c.toNat < 0x100 then '\x5c' :: 'x' :: codeDigits 2 c.toNat
  else if c.toNat < 0x10000 then '\x5c' :: 'u' :: codeDigits 4 c.toNat
  else '\x5c' :: 'U' :: codeDigits 8 c.toNat

/-- The quote that goes around a text. -/
def quoteFor (text : List Char) : Char :=
  if text.contains '\x27' && !text.contains '\x22' then '\x22' else '\x27'

/-- A text between quotes. -/
def quoted (text : String) : String :=
  let quote := quoteFor text.toList
  String.ofList (quote :: text.toList.flatMap (escape quote) ++ [quote])

end Chip8Vm.Text
