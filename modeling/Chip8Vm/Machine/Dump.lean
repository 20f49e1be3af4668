import Chip8Vm.Machine.Basic

/-!
# The dump

A machine as text: registers, timers and stack on three lines, then the display, a line to a row,
then the keys that are down. Memory is not in it.
-/

set_option autoImplicit false

namespace Chip8Vm.Machine

/-- The text of the registers. -/
def registerLine (m : Machine) : String :=
  "PC_REGISTER:0x" ++ Number.hex 4 m.pc ++ " | IDX_REGISTER:0x" ++ Number.hex 4 m.index
    ++ " | VARIABLE_REGISTERS:" ++ Text.listed m.registers.toList

/-- The text of the timers. -/
def timerLine (m : Machine) : String :=
  "DELAY_TIMER:" ++ toString m.delay ++ " | SOUND_TIMER:" ++ toString m.sound

/-- The text of the stack. -/
def stackLine (m : Machine) : String :=
  "STACK:" ++ m.stack.text ++ " | SP:" ++ toString m.stack.pointer.val

/-- The text of a machine. -/
def dump (m : Machine) : String :=
  "\n".intercalate
    [ m.registerLine, m.timerLine, m.stackLine, "SCREEN:", m.display.text,
      "KEYPAD:" ++ m.keypad.text ]

end Chip8Vm.Machine
