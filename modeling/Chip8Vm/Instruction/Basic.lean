/-!
# Instructions

What a machine can be told to do. The thirty-four forms of instruction word fall into fewer kinds:
the six skips are one instruction with a test and the answer it waits for, and the nine operations
on two registers are one instruction with an operation. Operands have the width that the word gives
them, so an instruction is exactly what a word can say.
-/

set_option autoImplicit false

namespace Chip8Vm

/-- The name of one of the sixteen registers. -/
abbrev Register := Fin 16

/-- What a skip looks at. -/
inductive SkipTest where
  /-- The register holds the byte. -/
  | byte (x : Register) (value : Fin 256)
  /-- The two registers hold the same. -/
  | register (x y : Register)
  /-- The key that the register names is down. -/
  | key (x : Register)
  deriving DecidableEq

/-- What is done with two registers; the result goes to the first. -/
inductive Operation where
  | copy
  | or
  | and
  | xor
  /-- The sum, and whether it passed a byte. -/
  | add
  /-- The first less the second, and whether nothing was borrowed. -/
  | sub
  /-- Half of the second, and the bit that falls out. -/
  | shiftRight
  /-- The second less the first, and whether nothing was borrowed. -/
  | subFrom
  /-- Twice the second, and the bit that falls out. -/
  | shiftLeft
  deriving DecidableEq

/-- One instruction with its operands. -/
inductive Instruction where
  /-- Make the display dark. -/
  | clear
  /-- Go back to the address on top of the stack. -/
  | ret
  /-- Go to an address. -/
  | jump (target : Fin 4096)
  /-- Go to an address and remember where to go back to. -/
  | call (target : Fin 4096)
  /-- Leave out the next instruction if the test answers as wanted. -/
  | skip (test : SkipTest) (wanted : Bool)
  /-- Put a byte into a register. -/
  | assign (x : Register) (value : Fin 256)
  /-- Add a byte to a register, without a flag. -/
  | increase (x : Register) (value : Fin 256)
  /-- Combine two registers. -/
  | combine (op : Operation) (x y : Register)
  /-- Put an address into the index. -/
  | point (address : Fin 4096)
  /-- Go to an address moved on by register 0. -/
  | jumpBy (base : Fin 4096)
  /-- Put the bits of a mask that a random value has into a register. -/
  | random (x : Register) (mask : Fin 256)
  /-- Draw the rows of a sprite that the index points to at the place two registers say. -/
  | draw (x y : Register) (height : Fin 16)
  /-- Put the delay timer into a register. -/
  | readDelay (x : Register)
  /-- Wait for a key and put it into a register. -/
  | awaitKey (x : Register)
  /-- Start the delay timer from a register. -/
  | startDelay (x : Register)
  /-- Start the sound timer from a register. -/
  | startSound (x : Register)
  /-- Move the index on by a register. -/
  | movePointer (x : Register)
  /-- Point the index to the glyph of a register's low digit. -/
  | pointToGlyph (x : Register)
  /-- Write the three decimal digits of a register to memory. -/
  | writeDecimal (x : Register)
  /-- Write the registers up to one to memory. -/
  | save (last : Register)
  /-- Read the registers up to one from memory. -/
  | restore (last : Register)
  deriving DecidableEq

end Chip8Vm
