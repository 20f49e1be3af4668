import Chip8Vm.Instruction.Basic
import Chip8Vm.Number.Hex

/-!
# Instructions as assembly text

The usual mnemonics. Registers and bytes are in decimal, addresses in four hexadecimal digits and
the mask of a random value in two. The text is a matter of the instruction alone, not of the machine
that executes it.
-/

set_option autoImplicit false

namespace Chip8Vm

namespace Operation

/-- The mnemonic of an operation on two registers. -/
def mnemonic : Operation → String
  | copy => "LD"
  | or => "OR"
  | and => "AND"
  | xor => "XOR"
  | add => "ADD"
  | sub => "SUB"
  | shiftRight => "SHR"
  | subFrom => "SUBN"
  | shiftLeft => "SHL"

end Operation

namespace Instruction

/-- The operand of a register. -/
def registerText (x : Register) : String := "V" ++ toString x.val

/-- The operand of an address. -/
def addressText (a : Fin 4096) : String := "0x" ++ Number.hex 4 a.val

/-- The assembly text of an instruction. -/
def text : Instruction → String
  | clear => "CLS"
  | ret => "RET"
  | jump target => "JP " ++ addressText target
  | call target => "CALL " ++ addressText target
  | skip (.byte x value) wanted =>
    (if wanted then "SE " else "SNE ") ++ registerText x ++ ", " ++ toString value.val
  | skip (.register x y) wanted =>
    (if wanted then "SE " else "SNE ") ++ registerText x ++ ", " ++ registerText y
  | skip (.key x) wanted => (if wanted then "SKP " else "SKNP ") ++ registerText x
  | assign x value => "LD " ++ registerText x ++ ", " ++ toString value.val
  | increase x value => "ADD " ++ registerText x ++ ", " ++ toString value.val
  | combine op x y => op.mnemonic ++ " " ++ registerText x ++ ", " ++ registerText y
  | point address => "LD I, " ++ addressText address
  | jumpBy base => "JP V0, " ++ addressText base
  | random x mask => "RND " ++ registerText x ++ ", 0x" ++ Number.hex 2 mask.val
  | draw x y height =>
    "DRW " ++ registerText x ++ ", " ++ registerText y ++ ", " ++ toString height.val
  | readDelay x => "LD " ++ registerText x ++ ", DT"
  | awaitKey x => "LD " ++ registerText x ++ ", K"
  | startDelay x => "LD DT, " ++ registerText x
  | startSound x => "LD ST, " ++ registerText x
  | movePointer x => "ADD I, " ++ registerText x
  | pointToGlyph x => "LD F, " ++ registerText x
  | writeDecimal x => "LD B, " ++ registerText x
  | save last => "LD [I], " ++ registerText last
  | restore last => "LD " ++ registerText last ++ ", [I]"

end Instruction

end Chip8Vm
