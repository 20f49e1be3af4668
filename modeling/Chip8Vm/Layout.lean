/-!
# The address space and the other sizes of the machine

Every number that another module compares with stands here once. Addresses are twelve bits wide,
the first part of memory belongs to the built-in font, and a program image starts at `imageStart`
and may run to the last cell, so `imageLimit` is what is left.
-/

set_option autoImplicit false

namespace Chip8Vm

/-- Cells of a memory that has not been lengthened. -/
def memorySize : Nat := 4096

/-- Where the glyphs of the font begin. -/
def fontStart : Nat := 0x000

/-- Bytes of one glyph, a row each. -/
def glyphSize : Nat := 5

/-- Where a program image begins, and where execution starts. -/
def imageStart : Nat := 0x200

/-- The longest image that fits above `imageStart`. -/
def imageLimit : Nat := memorySize - imageStart

/-- Bytes of one instruction. -/
def instructionSize : Nat := 2

/-- Return addresses that the call stack has room for. -/
def stackDepth : Nat := 16

/-- What both timers start from. -/
def timerStart : Nat := 255

/-- Columns of the display. -/
def displayWidth : Nat := 64

/-- Rows of the display. -/
def displayHeight : Nat := 32

/-- Frames, and so timer ticks, in a second. -/
def frameRate : Nat := 60

end Chip8Vm
