import Chip8Vm.Instruction.Encode
import Chip8Vm.Machine.Cycle
import Chip8Vm.Proofs.Outcome

/-!
# Carrying out words, without the log

What a word does to a machine does not depend on what has been logged. `Machine.process` is
`Traced.process` with the log left out, and `map_process` says that it is the same machine and the
same fault; everything about machines alone is then said of `Machine.process`.

The second part is about the word that is fetched: it has sixteen bits, so it means an instruction
exactly when it is the word of it (`decode?_fetch`).
-/

set_option autoImplicit false

namespace Chip8Vm

namespace Machine

/-- Carry out a word on a machine that nobody watches. -/
def process (opcode : Int) (m : Machine) : Outcome Machine :=
  match Instruction.decode? opcode with
  | none => .done m.advance
  | some instruction => m.advance.execute instruction

/-- Fetch a word and carry it out. -/
def cycle (m : Machine) : Outcome Machine := m.process m.fetch

theorem process_of_decode {opcode : Int} {i : Instruction} (h : Instruction.decode? opcode = some i)
    (m : Machine) : m.process opcode = m.advance.execute i := by
  unfold process
  rw [h]

/-! ## The program counter, moved on and back -/

@[simp] theorem pc_advance (m : Machine) : m.advance.pc = (m.pc + 2) % 4096 := rfl

@[simp] theorem register_advance (m : Machine) (x : Register) :
    m.advance.register x = m.register x := rfl

@[simp] theorem waiting_advance (m : Machine) : m.advance.waiting = m.waiting := rfl

@[simp] theorem keypad_advance (m : Machine) : m.advance.keypad = m.keypad := rfl

@[simp] theorem stack_advance (m : Machine) : m.advance.stack = m.stack := rfl

/-- Moving on and back is no move, from an address of twelve bits. -/
theorem previousAddress_advance {m : Machine} (h : 0 ≤ m.pc ∧ m.pc < 4096) :
    m.advance.previousAddress = m.pc := by
  show ((m.pc + 2) % 4096 - 2) % 4096 = m.pc
  omega

/-! ## The word fetched -/

theorem fetch_range (m : Machine) : 0 ≤ m.fetch ∧ m.fetch < 65536 := by
  have high := (m.memory.read m.pc).toNat_lt
  have low := (m.memory.read (m.pc + 1)).toNat_lt
  unfold fetch
  omega

theorem decode?_fetch {m : Machine} {i : Instruction} :
    Instruction.decode? m.fetch = some i ↔ m.fetch = i.encode := by
  have range := m.fetch_range
  rw [Instruction.decode?_eq_some_iff, Int.emod_eq_of_lt range.1 range.2]

end Machine

namespace Traced

/-- The log has no part in what a word does to a machine. -/
theorem map_process (opcode : Int) (t : Traced) :
    (t.process opcode).map machine = t.machine.process opcode := by
  unfold process Machine.process
  cases Instruction.decode? opcode with
  | none => rfl
  | some i =>
    dsimp only
    obtain ⟨m, fault⟩ := t.machine.advance.execute i
    cases fault with
    | none => rfl
    | some f => rfl

/-- The word of an instruction carries it out. -/
theorem map_process_encode {opcode : Int} {i : Instruction} (h : opcode = i.encode) (t : Traced) :
    (t.process opcode).map machine = t.machine.advance.execute i := by
  have short := i.encode_lt
  have word : opcode % 65536 = i.encode := by omega
  rw [map_process, Machine.process_of_decode (Instruction.decode?_eq_some_iff.mpr word)]

theorem map_cycle (t : Traced) : t.cycle.map machine = t.machine.cycle := map_process _ t

/-- A word carried out to its end is told of, with the address that the counter stood at. -/
theorem process_of_done {t : Traced} {opcode : Int} {i : Instruction} {m : Machine}
    (pc : 0 ≤ t.machine.pc ∧ t.machine.pc < 4096) (hd : Instruction.decode? opcode = some i)
    (h : t.machine.process opcode = .done m) :
    t.process opcode = .done ⟨m, t.log.add (.executed t.machine.pc i)⟩ := by
  have he : t.machine.advance.execute i = ⟨m, none⟩ := (Machine.process_of_decode hd _).symm.trans h
  unfold process
  rw [hd]
  dsimp only
  rw [he, Machine.previousAddress_advance pc]

/-- So is one that is fetched. -/
theorem cycle_of_done {t : Traced} {i : Instruction} {m : Machine}
    (pc : 0 ≤ t.machine.pc ∧ t.machine.pc < 4096) (hf : t.machine.fetch = i.encode)
    (h : t.machine.cycle = .done m) :
    t.cycle = .done ⟨m, t.log.add (.executed t.machine.pc i)⟩ :=
  process_of_done pc (Machine.decode?_fetch.mpr hf) h

/-- A word without a meaning is passed over, and that is told of. -/
theorem process_of_none {t : Traced} {opcode : Int}
    (pc : 0 ≤ t.machine.pc ∧ t.machine.pc < 4096) (hd : Instruction.decode? opcode = none) :
    t.process opcode
      = .done ⟨t.machine.advance, t.log.add (.passedOver t.machine.pc opcode)⟩ := by
  unfold process
  rw [hd]
  dsimp only
  rw [Machine.previousAddress_advance pc]

/-- A word cut short leaves no entry. -/
theorem log_process_of_fault {opcode : Int} {t : Traced} {f : Fault}
    (h : (t.process opcode).fault = some f) : (t.process opcode).state.log = t.log := by
  unfold process at h ⊢
  cases hd : Instruction.decode? opcode with
  | none =>
    rw [hd] at h
    exact absurd h (by simp)
  | some i =>
    rw [hd] at h
    dsimp only at h ⊢
    cases he : t.machine.advance.execute i with
    | mk m fault =>
      rw [he] at h
      cases fault with
      | none => exact absurd h (by simp)
      | some g => rfl

end Traced
end Chip8Vm
