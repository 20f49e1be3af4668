import Chip8Vm.Machine.Basic
import Chip8Vm.Number.Bitwise

/-!
# What instructions do

`Machine.execute` is the effect of one instruction on a machine whose program counter already stands
behind it. Three kinds can fault: a call, a return, and a write to memory of a register that holds
no byte.

The order of two writes matters where a register is both result and flag. The sums and differences
write the flag last, so that in register 15 the flag is left; the shifts write it first, so that
there the result is.
-/

set_option autoImplicit false

namespace Chip8Vm.Machine

/-- The register of flags. -/
def flagRegister : Register := 15

/-- A flag as a register value. -/
def flagValue (flag : Bool) : Int := if flag then 1 else 0

/-- Whether a test answers yes. -/
def holds (m : Machine) : SkipTest → Bool
  | .byte x value => m.register x == (value.val : Int)
  | .register x y => m.register x == m.register y
  | .key x => m.keypad.isDown (m.register x)

/-- The machine with a result and then a flag written. -/
def setThenFlag (m : Machine) (x : Register) (value : Int) (flag : Bool) : Machine :=
  (m.setRegister x value).setRegister flagRegister (flagValue flag)

/-- The machine with a bit written as flag and then a result. -/
def flagThenSet (m : Machine) (x : Register) (value bit : Int) : Machine :=
  (m.setRegister flagRegister bit).setRegister x value

/-- The effect of an operation on two registers. -/
def combine (m : Machine) (op : Operation) (x y : Register) : Machine :=
  let a := m.register x
  let b := m.register y
  match op with
  | .copy => m.setRegister x b
  | .or => m.setRegister x (Number.lor a b)
  | .and => m.setRegister x (Number.land a b)
  | .xor => m.setRegister x (Number.lxor a b)
  | .add => m.setThenFlag x ((a + b) % 256) (255 < a + b)
  | .sub => m.setThenFlag x ((a - b) % 256) (b ≤ a)
  | .shiftRight => m.flagThenSet x (b / 2) (b % 2)
  | .subFrom => m.setThenFlag x ((b - a) % 256) (a ≤ b)
  | .shiftLeft => m.flagThenSet x (b * 2 % 256) (b / 128)

/-- The bytes that the index points to, as numbers. -/
def bytesAtIndex (m : Machine) (count : Nat) : List Int :=
  (m.memory.readBlock m.index count).map fun b => (b.toNat : Int)

/-- The values of the registers up to one. -/
def registersUpTo (m : Machine) (last : Register) : List Int :=
  m.registers.toList.take (last.val + 1)

/-- The machine with its index moved past a block of registers. -/
def skipBlock (m : Machine) (last : Register) : Machine :=
  { m with index := (m.index + last.val + 1) % 65536 }

/-- The machine after values are written where the index points, up to the first that is no byte. -/
def writeAtIndex (m : Machine) (values : List Int) : Outcome Machine :=
  (Memory.writeBlock m.index values m.memory).map fun memory => { m with memory }

/-- The hundreds, tens and units of a value. -/
def decimalDigits (value : Int) : List Int := [value / 100, value / 10 % 10, value % 10]

/-- The effect of an instruction, the program counter being past it. -/
def execute (m : Machine) : Instruction → Outcome Machine
  | .clear => .done { m with display := m.display.clear }
  | .ret =>
    match m.stack.pop? with
    | some (address, stack) => .done { m with pc := address, stack }
    | none => .cut m .stackUnderflow
  | .jump target => .done { m with pc := target.val }
  | .call target =>
    match m.stack.push m.pc with
    | ⟨stack, none⟩ => .done { m with pc := target.val, stack }
    | ⟨_, some fault⟩ => .cut m fault
  | .skip test wanted => .done (if m.holds test = wanted then m.advance else m)
  | .assign x value => .done (m.setRegister x value.val)
  | .increase x value => .done (m.setRegister x ((m.register x + value.val) % 256))
  | .combine op x y => .done (m.combine op x y)
  | .point address => .done { m with index := address.val }
  | .jumpBy base => .done { m with pc := (base.val + m.register 0) % 4096 }
  | .random x mask =>
    .done { m.setRegister x (Number.land m.random.next mask.val) with random := m.random.advance }
  | .draw x y height =>
    let sprite := m.bytesAtIndex height
    let hit := m.display.collides (m.register x) (m.register y) sprite
    .done { m.setRegister flagRegister (flagValue hit) with
      display := m.display.draw (m.register x) (m.register y) sprite }
  | .readDelay x => .done (m.setRegister x m.delay)
  | .awaitKey x =>
    match m.keypad.first? with
    | some key => .done { m.setRegister x key.val with waiting := none }
    | none => .done { m with pc := m.previousAddress, waiting := some x }
  | .startDelay x => .done { m with delay := m.register x }
  | .startSound x => .done { m with sound := m.register x }
  | .movePointer x => .done { m with index := (m.index + m.register x) % 65536 }
  | .pointToGlyph x => .done { m with index := fontStart + m.register x % 16 * glyphSize }
  | .writeDecimal x => m.writeAtIndex (decimalDigits (m.register x))
  | .save last =>
    (m.writeAtIndex (m.registersUpTo last)).andThen fun m => .done (m.skipBlock last)
  | .restore last =>
    .done (skipBlock
      { m with registers := Vector.ofFn fun i =>
          if i ≤ last then ((m.memory.read (m.index + i.val)).toNat : Int) else m.register i }
      last)

end Chip8Vm.Machine
