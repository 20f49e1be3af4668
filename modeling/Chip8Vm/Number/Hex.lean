/-!
# Hexadecimal text

Addresses, opcodes and key numbers are written in hexadecimal. A padded number counts its sign in
the width, as a field of a fixed width does, so minus one in a field of four is `-001`.
-/

set_option autoImplicit false

namespace Chip8Vm.Number

/-- Digits behind as many zeros as bring them to `width`; longer digits stay as they are. -/
def zeroPad (width : Nat) (digits : List Char) : List Char :=
  List.replicate (width - digits.length) '0' ++ digits

/-- A number in lower case hexadecimal, brought to `width` characters by zeros after the sign. -/
def hex (width : Nat) : Int → String
  | .ofNat a => String.ofList (zeroPad width (Nat.toDigits 16 a))
  | .negSucc a => String.ofList ('-' :: zeroPad (width - 1) (Nat.toDigits 16 (a + 1)))

/-- One of the sixteen digits, the last six in upper case. -/
def upperHexDigit (d : Fin 16) : Char :=
  if d.val < 10 then Char.ofNat (0x30 + d.val) else Char.ofNat (0x37 + d.val)

end Chip8Vm.Number
