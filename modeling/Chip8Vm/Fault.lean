import Chip8Vm.Layout
import Chip8Vm.Text.Quoted

/-!
# Faults

Everything that can go wrong while a machine is driven, by cause, and the wording of each. A fault
says nothing about the state it leaves: an operation that faults half-way keeps what it had done,
and `Outcome` carries both.
-/

set_option autoImplicit false

namespace Chip8Vm

/-- The cause that cut an operation short. -/
inductive Fault where
  /-- A program image of odd length. -/
  | oddImage (size : Nat)
  /-- A program image that does not fit above its start. -/
  | largeImage (size : Nat)
  /-- A call with every slot of the stack taken. -/
  | stackOverflow
  /-- A return with no address on the stack. -/
  | stackUnderflow
  /-- A value put into one memory cell that is no byte. -/
  | notAByte
  /-- Data for a run of bytes with a value that is no byte. -/
  | notBytes
  /-- A text that is to stand for bytes, with a wrong character at a place. -/
  | notHexadecimal (place : Nat)
  /-- A list of numbers where bytes are needed. -/
  | listOfNumbers
  /-- A run of bytes whose length is too long a number. -/
  | countTooLarge
  /-- A run of bytes that there is no room for. -/
  | noRoom
  /-- A key outside the keypad. -/
  | noSuchKey (key : Int)
  /-- A row outside the display, when it is looked at. -/
  | noSuchRow
  /-- A row or a register that there is not, when it is written to. -/
  | noSuchPlace
  /-- A place that no row of things could have. -/
  | placeTooLarge
  /-- A column to the right of the display. -/
  | columnPastEdge
  /-- A name that leads nowhere. -/
  | noSuchFile (name : String)
  /-- A directory where a file is needed. -/
  | isDirectory (name : String)
  /-- A file where a directory is needed. -/
  | notDirectory (name : String)
  /-- Something of the name of a new directory. -/
  | alreadyThere (name : String)
  /-- A name that is too long or has a part that is. -/
  | nameTooLong (name : String)
  /-- A name or a setting with a NUL in it. -/
  | nul
  /-- No name where a file is to be opened. -/
  | noName
  /-- No number where one is to be compared. -/
  | noNumber
  /-- A place outside a surface. -/
  | noSuchPixel
  /-- A coordinate above those that the screen keeps. -/
  | coordinateAbove
  /-- A coordinate below those that the screen keeps. -/
  | coordinateBelow
  /-- A coordinate that is too long a number. -/
  | coordinateTooLong
  /-- Numbers that are no colour. -/
  | notAColor
  /-- A colour of no numbers. -/
  | emptyColor
  /-- A colour of more numbers than it has parts. -/
  | longColor (count : Nat)
  /-- A window of a size that is too long a number. -/
  | noWindowSize
  /-- A window of negative size. -/
  | negativeWindow
  /-- A window with a side that is too long. -/
  | windowTooLarge
  deriving DecidableEq

namespace Fault

/-- The wording of a fault. -/
def message : Fault → String
  | oddImage size => s!"ROM of {size} bytes ends in the middle of an instruction"
  | largeImage size => s!"ROM of {size} bytes does not fit in memory (max {imageLimit} bytes)"
  | stackOverflow =>
    s!"The CHIP-8 stack can contain at most {stackDepth} addresses. Limit exceeded"
  | stackUnderflow => "Return from subroutine with an empty CHIP-8 stack"
  | notAByte => "byte must be in range(0, 256)"
  | notBytes => "bytes must be in range(0, 256)"
  | notHexadecimal place =>
    s!"non-hexadecimal number found in fromhex() arg at position {place}"
  | listOfNumbers => "a bytes-like object is required, not 'list'"
  | countTooLarge => "cannot fit 'int' into an index-sized integer"
  | noRoom => ""
  | noSuchKey key => s!"The CHIP-8 keypad has keys 0x0 to 0xF, got {key}"
  | noSuchRow => "list index out of range"
  | noSuchPlace => "list assignment index out of range"
  | placeTooLarge => "cannot fit 'int' into an index-sized integer"
  | columnPastEdge => "negative shift count"
  | noSuchFile name => "[Errno 2] No such file or directory: " ++ Text.quoted name
  | isDirectory name => "[Errno 21] Is a directory: " ++ Text.quoted name
  | notDirectory name => "[Errno 20] Not a directory: " ++ Text.quoted name
  | alreadyThere name => "[Errno 17] File exists: " ++ Text.quoted name
  | nameTooLong name => "[Errno 36] File name too long: " ++ Text.quoted name
  | nul => "embedded null byte"
  | noName => "expected str, bytes or os.PathLike object, not list"
  | noNumber => "'<' not supported between instances of 'list' and 'int'"
  | noSuchPixel => "pixel index out of range"
  | coordinateAbove => "signed integer is greater than maximum"
  | coordinateBelow => "signed integer is less than minimum"
  | coordinateTooLong => "Python int too large to convert to C long"
  | notAColor => "invalid color argument"
  | emptyColor => "function takes at least 1 argument (0 given)"
  | longColor count => s!"function takes at most 4 arguments ({count} given)"
  | noWindowSize => "size must be two numbers"
  | negativeWindow => "Cannot set negative sized display mode"
  | windowTooLarge => "Window is too large."

end Fault

end Chip8Vm
