import Chip8Vm.CallStack
import Chip8Vm.Display
import Chip8Vm.Keypad
import Chip8Vm.Log
import Chip8Vm.Memory
import Chip8Vm.RandomSource

/-!
# The machine

Memory, registers, the index and the program counter, two timers, the call stack, the register that
waits for a key, and the devices. The numbers are kept as numbers: nothing in the type keeps a
register to a byte or the program counter to twelve bits, for whoever holds a machine may set them
to anything. That instructions keep them in range is `WellFormed`, a property and no part of the
type.
-/

set_option autoImplicit false

namespace Chip8Vm

/-- The state of a machine. -/
structure Machine where
  memory : Memory
  registers : Vector Int 16
  /-- Where the next sprite or block is. -/
  index : Int
  /-- Where the next instruction is. -/
  pc : Int
  delay : Int
  sound : Int
  stack : CallStack
  /-- The register that a key is awaited for. -/
  waiting : Option Register
  display : Display
  keypad : Keypad
  random : RandomSource

namespace Machine

/-- The state of a machine that has just been made, with a source of random values that may have
been used. -/
def initial (random : RandomSource) : Machine where
  memory := .blank
  registers := Vector.replicate 16 0
  index := 0
  pc := imageStart
  delay := timerStart
  sound := timerStart
  stack := .empty
  waiting := none
  display := .blank
  keypad := .released
  random := random

/-- Every part of the machine back to what it is when the machine has just been made; random values
stay drawn. -/
def reset (m : Machine) : Machine :=
  { m with
    memory := m.memory.reset
    stack := m.stack.reset
    registers := Vector.replicate 16 0
    pc := imageStart
    index := 0
    delay := timerStart
    sound := timerStart
    waiting := none
    display := m.display.clear
    keypad := m.keypad.releaseAll }

/-- Make a machine on devices that are there: its own parts are made with the timers at rest, and
then all of it is reset. -/
def make (display : Display) (keypad : Keypad) (random : RandomSource) : Machine :=
  reset
    { memory := .make
      stack := .empty
      registers := Vector.replicate 16 0
      pc := imageStart
      index := 0
      delay := 0
      sound := 0
      waiting := none
      display, keypad, random }

/-- What a register holds. -/
def register (m : Machine) (x : Register) : Int := m.registers[x]

/-- The machine with a value in a register. -/
def setRegister (m : Machine) (x : Register) (value : Int) : Machine :=
  { m with registers := m.registers.set x value }

/-- The machine with its program counter one instruction on. -/
def advance (m : Machine) : Machine := { m with pc := (m.pc + instructionSize) % 4096 }

/-- The address one instruction before the program counter. -/
def previousAddress (m : Machine) : Int := (m.pc - instructionSize) % 4096

/-- A timer one tick on; it stops at zero. -/
def countDown (timer : Int) : Int := if 0 < timer then timer - 1 else timer

/-- Both timers one tick on. -/
def tick (m : Machine) : Machine :=
  { m with delay := countDown m.delay, sound := countDown m.sound }

/-- What is wrong with the size of a program image, if something is. -/
def imageFault? (size : Nat) : Option Fault :=
  if size % instructionSize ≠ 0 then some (.oddImage size)
  else if imageLimit < size then some (.largeImage size)
  else none

/-- Load a program image, or leave the machine as it is. The length is looked at before the
values. -/
def loadImage (image : List Int) (m : Machine) : Outcome Machine :=
  match imageFault? image.length with
  | some fault => .cut m fault
  | none => (m.memory.load imageStart image).map fun memory => { m with memory }

/-- A machine whose numbers are all in range. -/
structure WellFormed (m : Machine) : Prop where
  memory : m.memory.bytes.size = 4096
  registers : ∀ x : Register, 0 ≤ m.register x ∧ m.register x < 256
  index : 0 ≤ m.index ∧ m.index < 65536
  pc : 0 ≤ m.pc ∧ m.pc < 4096
  delay : 0 ≤ m.delay ∧ m.delay < 256
  sound : 0 ≤ m.sound ∧ m.sound < 256
  stack : ∀ i : Fin 16, 0 ≤ m.stack.slots[i] ∧ m.stack.slots[i] < 4096

@[simp] theorem register_setRegister (m : Machine) (x y : Register) (v : Int) :
    (m.setRegister x v).register y = if x = y then v else m.register y := by
  simp only [register, setRegister, Fin.getElem_fin, Vector.getElem_set, Fin.ext_iff]

/-- **A reset brings every part back**, so that nothing of the machine is left but its source of
random values. -/
theorem reset_eq_initial (m : Machine) : m.reset = initial m.random := by
  unfold reset initial
  rw [Memory.reset_eq_blank]
  rfl

/-- A machine that is made on some devices is as any that is made, whatever their state was. -/
theorem make_eq_initial (display : Display) (keypad : Keypad) (random : RandomSource) :
    make display keypad random = initial random := reset_eq_initial _

theorem wellFormed_initial (random : RandomSource) : (initial random).WellFormed where
  memory := by
    simp only [initial, Memory.blank, List.size_toArray, List.length_append, List.length_replicate,
      length_font, memorySize]
  registers x := by simp [initial, register]
  index := by simp [initial]
  pc := by simp [initial, imageStart]
  delay := by simp [initial, timerStart]
  sound := by simp [initial, timerStart]
  stack i := by simp [initial, CallStack.empty]

theorem wellFormed_reset (m : Machine) : m.reset.WellFormed :=
  m.reset_eq_initial ▸ wellFormed_initial m.random

end Machine

end Chip8Vm
