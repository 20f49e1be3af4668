import Chip8Vm.Instruction.Basic

/-!
# Reading instruction words

A word has sixteen bits: the top four say what it is about, and the rest are operands, by nibble,
byte or address. `Instruction.decode?` reads one; many words mean nothing, and reading says so. Of a
number that is no word the low sixteen bits are read.
-/

set_option autoImplicit false

namespace Chip8Vm

namespace Operation

/-- The operation of a low nibble. -/
def ofCode? : Nat → Option Operation
  | 0x0 => some copy
  | 0x1 => some or
  | 0x2 => some and
  | 0x3 => some xor
  | 0x4 => some add
  | 0x5 => some sub
  | 0x6 => some shiftRight
  | 0x7 => some subFrom
  | 0xE => some shiftLeft
  | _ => none

end Operation

/-! ## Fields of a word -/

namespace Word

/-- The second nibble, the first register of most instructions. -/
def x (w : Nat) : Register := ⟨w / 256 % 16, Nat.mod_lt _ (by decide)⟩

/-- The third nibble, the second register. -/
def y (w : Nat) : Register := ⟨w / 16 % 16, Nat.mod_lt _ (by decide)⟩

/-- The last nibble. -/
def n (w : Nat) : Fin 16 := ⟨w % 16, Nat.mod_lt _ (by decide)⟩

/-- The low byte. -/
def byte (w : Nat) : Fin 256 := ⟨w % 256, Nat.mod_lt _ (by decide)⟩

/-- The low twelve bits. -/
def address (w : Nat) : Fin 4096 := ⟨w % 4096, Nat.mod_lt _ (by decide)⟩

end Word

namespace Instruction

/-- The instruction that a word means, if it means one. -/
def ofWord? (w : Nat) : Option Instruction :=
  match w / 4096 with
  | 0x0 => if w = 0x00E0 then some clear else if w = 0x00EE then some ret else none
  | 0x1 => some (jump (Word.address w))
  | 0x2 => some (call (Word.address w))
  | 0x3 => some (skip (.byte (Word.x w) (Word.byte w)) true)
  | 0x4 => some (skip (.byte (Word.x w) (Word.byte w)) false)
  | 0x5 => if w % 16 = 0 then some (skip (.register (Word.x w) (Word.y w)) true) else none
  | 0x6 => some (assign (Word.x w) (Word.byte w))
  | 0x7 => some (increase (Word.x w) (Word.byte w))
  | 0x8 => (Operation.ofCode? (w % 16)).map fun op => combine op (Word.x w) (Word.y w)
  | 0x9 => if w % 16 = 0 then some (skip (.register (Word.x w) (Word.y w)) false) else none
  | 0xA => some (point (Word.address w))
  | 0xB => some (jumpBy (Word.address w))
  | 0xC => some (random (Word.x w) (Word.byte w))
  | 0xD => some (draw (Word.x w) (Word.y w) (Word.n w))
  | 0xE =>
    match w % 256 with
    | 0x9E => some (skip (.key (Word.x w)) true)
    | 0xA1 => some (skip (.key (Word.x w)) false)
    | _ => none
  | 0xF =>
    match w % 256 with
    | 0x07 => some (readDelay (Word.x w))
    | 0x0A => some (awaitKey (Word.x w))
    | 0x15 => some (startDelay (Word.x w))
    | 0x18 => some (startSound (Word.x w))
    | 0x1E => some (movePointer (Word.x w))
    | 0x29 => some (pointToGlyph (Word.x w))
    | 0x33 => some (writeDecimal (Word.x w))
    | 0x55 => some (save (Word.x w))
    | 0x65 => some (restore (Word.x w))
    | _ => none
  | _ => none

/-- The instruction that the low sixteen bits of a number mean, if they mean one. -/
def decode? (opcode : Int) : Option Instruction := ofWord? (opcode % 65536).toNat

end Instruction

end Chip8Vm
