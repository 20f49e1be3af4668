/-!
# Bits of a signed number

A signed number is an endless row of two's complement bits: a number below zero has ones from some
place on. The machine needs the three connectives on such rows, because a register or a random
value need not be a byte before it is cut to one.

One fact is what this file is for: **each connective acts bit by bit** (`bit_land`, `bit_lor`,
`bit_lxor`), and a number is known by its bits on natural numbers by core's own `Nat.testBit`.
-/

set_option autoImplicit false

namespace Chip8Vm.Number

/-- Bit `i` of the two's complement row of a number. -/
def bit : Int → Nat → Bool
  | .ofNat a, i => a.testBit i
  | .negSucc a, i => !a.testBit i

/-- The bits that both numbers have. -/
def land : Int → Int → Int
  | .ofNat a, .ofNat b => .ofNat (a &&& b)
  | .ofNat a, .negSucc b => .ofNat (a ^^^ (a &&& b))
  | .negSucc a, .ofNat b => .ofNat (b ^^^ (b &&& a))
  | .negSucc a, .negSucc b => .negSucc (a ||| b)

/-- The bits that at least one of the numbers has. -/
def lor : Int → Int → Int
  | .ofNat a, .ofNat b => .ofNat (a ||| b)
  | .ofNat a, .negSucc b => .negSucc (b ^^^ (b &&& a))
  | .negSucc a, .ofNat b => .negSucc (a ^^^ (a &&& b))
  | .negSucc a, .negSucc b => .negSucc (a &&& b)

/-- The bits that exactly one of the numbers has. -/
def lxor : Int → Int → Int
  | .ofNat a, .ofNat b => .ofNat (a ^^^ b)
  | .ofNat a, .negSucc b => .negSucc (a ^^^ b)
  | .negSucc a, .ofNat b => .negSucc (a ^^^ b)
  | .negSucc a, .negSucc b => .ofNat (a ^^^ b)

theorem bit_land (m n : Int) (i : Nat) : bit (land m n) i = (bit m i && bit n i) := by
  cases m <;> cases n <;> simp only [land, bit, Nat.testBit_and, Nat.testBit_or, Nat.testBit_xor]
    <;> cases Nat.testBit _ i <;> cases Nat.testBit _ i <;> rfl

theorem bit_lor (m n : Int) (i : Nat) : bit (lor m n) i = (bit m i || bit n i) := by
  cases m <;> cases n <;> simp only [lor, bit, Nat.testBit_and, Nat.testBit_or, Nat.testBit_xor]
    <;> cases Nat.testBit _ i <;> cases Nat.testBit _ i <;> rfl

theorem bit_lxor (m n : Int) (i : Nat) : bit (lxor m n) i = (bit m i ^^ bit n i) := by
  cases m <;> cases n <;> simp only [lxor, bit, Nat.testBit_xor]
    <;> cases Nat.testBit _ i <;> cases Nat.testBit _ i <;> rfl

@[simp] theorem land_natCast (a b : Nat) : land a b = ((a &&& b : Nat) : Int) := rfl
@[simp] theorem lor_natCast (a b : Nat) : lor a b = ((a ||| b : Nat) : Int) := rfl
@[simp] theorem lxor_natCast (a b : Nat) : lxor a b = ((a ^^^ b : Nat) : Int) := rfl

end Chip8Vm.Number
