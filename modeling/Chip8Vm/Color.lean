import Chip8Vm.Number.Byte
import Chip8Vm.Fault

/-!
# Colours

A colour is four bytes, and it is given as numbers: as one number that holds the four of them, or as
three or four parts. The last of the four says how much of what is under a colour it covers.
-/

set_option autoImplicit false

namespace Chip8Vm

/-- A colour. -/
structure Color where
  red : UInt8
  green : UInt8
  blue : UInt8
  alpha : UInt8
  deriving DecidableEq

namespace Color

/-- The colour as it is where nothing under it shows through. -/
def solid (c : Color) : Color := { c with alpha := 255 }

/-- The colour of one number: its four bytes from the highest are the four parts. -/
def ofNumber? (n : Int) : Option Color :=
  if 0 ≤ n ∧ n < Nat.pow 2 32 then
    let part := fun shift : Nat => UInt8.ofNat (n.toNat >>> shift)
    some ⟨part 24, part 16, part 8, part 0⟩
  else none

/-- The colour of three or four parts. Without the fourth it covers what is under it. -/
def ofParts? (parts : List Int) : Option Color :=
  match parts.mapM byte? with
  | some [red, green, blue] => some ⟨red, green, blue, 255⟩
  | some [red, green, blue, alpha] => some ⟨red, green, blue, alpha⟩
  | _ => none

/-- The colour that some numbers stand for. How many there are is looked at before what they are. -/
def ofNumbers : List Int → Except Fault Color
  | [] => .error .emptyColor
  | [n] => (ofNumber? n).elim (.error .notAColor) .ok
  | parts =>
    if 4 < parts.length then .error (.longColor parts.length)
    else (ofParts? parts).elim (.error .notAColor) .ok

/-- The colour that is asked for, or else the standard one. -/
def asked (standard : Color) : Option (List Int) → Except Fault Color
  | some numbers => ofNumbers numbers
  | none => .ok standard

end Color

end Chip8Vm
