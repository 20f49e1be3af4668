import Chip8Vm.Text.Blank

/-!
# Pairs of hexadecimal digits

How bytes are read from a text: two digits a byte, in upper or lower case, with ASCII blanks between
the pairs but never inside one. A text that is none says at which character reading stopped; one
that leaves ASCII is refused at the first character that does, whatever stands before it.
-/

set_option autoImplicit false

namespace Chip8Vm.Text

/-- The value of a hexadecimal digit of either case. -/
def hexDigit? (c : Char) : Option Nat :=
  if '0' ≤ c ∧ c ≤ '9' then some (c.toNat - 0x30)
  else if 'a' ≤ c ∧ c ≤ 'f' then some (c.toNat - 0x57)
  else if 'A' ≤ c ∧ c ≤ 'F' then some (c.toNat - 0x37)
  else none

/-- The byte of two digits. -/
def pairByte (high low : Nat) : UInt8 := UInt8.ofNat (16 * high + low)

/-- The bytes of a text that starts at a place, or the place of the first character that does not
belong there. A pair that is cut off lacks the character behind the end. -/
def readPairs (place : Nat) : List Char → Except Nat (List UInt8)
  | [] => .ok []
  | [c] =>
    if isAsciiBlank c then .ok []
    else if (hexDigit? c).isSome then .error (place + 1)
    else .error place
  | a :: b :: rest =>
    if isAsciiBlank a then readPairs (place + 1) (b :: rest)
    else
      match hexDigit? a, hexDigit? b with
      | some high, some low => (readPairs (place + 2) rest).map (pairByte high low :: ·)
      | some _, none => .error (place + 1)
      | none, _ => .error place

/-- The bytes that a text stands for, or the place of a character that is wrong. -/
def readHex (text : String) : Except Nat (List UInt8) :=
  match text.toList.findIdx? fun c => 128 ≤ c.toNat with
  | some place => .error place
  | none => readPairs 0 text.toList

end Chip8Vm.Text
