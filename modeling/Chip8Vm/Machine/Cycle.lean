import Chip8Vm.Machine.Execute
import Chip8Vm.Instruction.Decode

/-!
# Machine cycles

A cycle fetches the word at the program counter, moves the counter on and carries the word out. What
was done goes to the log: an instruction that ran to its end, or a word without a meaning, which is
passed over. A fault leaves no entry, and the counter stays moved on.

Everything that both changes a machine and is told about works on a machine together with its log,
`Traced`.
-/

set_option autoImplicit false

namespace Chip8Vm

/-- A machine and the log of what happened to it. -/
structure Traced where
  machine : Machine
  log : Log

namespace Machine

/-- The word at the program counter, high byte first. -/
def fetch (m : Machine) : Int :=
  (m.memory.read m.pc).toNat * 256 + (m.memory.read (m.pc + 1)).toNat

end Machine

namespace Traced

/-- Carry out a word, whatever the memory holds. -/
def process (opcode : Int) (t : Traced) : Outcome Traced :=
  let m := t.machine.advance
  let address := m.previousAddress
  match Instruction.decode? opcode with
  | none => .done ⟨m, t.log.add (.passedOver address opcode)⟩
  | some instruction =>
    match m.execute instruction with
    | ⟨m', none⟩ => .done ⟨m', t.log.add (.executed address instruction)⟩
    | ⟨m', some fault⟩ => .cut ⟨m', t.log⟩ fault

/-- Fetch a word and carry it out. -/
def cycle (t : Traced) : Outcome Traced := t.process t.machine.fetch

/-- Both timers one tick on. -/
def tick (t : Traced) : Traced := { t with machine := t.machine.tick }

/-- Press a key, if there is such a key. -/
def press (k : Int) (t : Traced) : Outcome Traced :=
  match Keypad.key? k with
  | some key =>
    .done ⟨{ t.machine with keypad := t.machine.keypad.press key }, t.log.add (.pressed key)⟩
  | none => .cut t (.noSuchKey k)

/-- Release a key, if there is such a key. -/
def release (k : Int) (t : Traced) : Outcome Traced :=
  match Keypad.key? k with
  | some key =>
    .done ⟨{ t.machine with keypad := t.machine.keypad.release key }, t.log.add (.released key)⟩
  | none => .cut t (.noSuchKey k)

/-- Release every key. -/
def releaseAll (t : Traced) : Traced :=
  { t with machine := { t.machine with keypad := t.machine.keypad.releaseAll } }

end Traced

end Chip8Vm
