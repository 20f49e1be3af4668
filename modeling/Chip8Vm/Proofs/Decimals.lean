import Chip8Vm.Proofs.Blocks

/-!
# Decimal digits through memory

A register is written to memory as three decimal digits, and the first three registers can be read
from there. Done one after the other, the two words take a register apart:

> **the first three registers spell in decimal what the register held** (`process_decimal`),

whichever register it was. It may be one of the three; its value is in memory by then. The cells are
three also where they go over the last one, and no other cell is touched.
-/

set_option autoImplicit false

namespace Chip8Vm

/-- Three decimal digits spell a value. -/
structure Spells (hundreds tens units value : Int) : Prop where
  high : 0 ≤ hundreds ∧ hundreds ≤ 9
  middle : 0 ≤ tens ∧ tens ≤ 9
  low : 0 ≤ units ∧ units ≤ 9
  sum : 100 * hundreds + 10 * tens + units = value

/-- Three digits are enough for a byte. -/
theorem spells_digits {value : Int} (h : 0 ≤ value ∧ value < 256) :
    Spells (value / 100) (value / 10 % 10) (value % 10) value := by
  constructor <;> omega

namespace Machine

variable {m : Machine} {x : Register}

/-- What writing a register in decimal has done to a machine. -/
structure Spelt (m : Machine) (x : Register) (o : Outcome Machine) : Prop where
  spells : ∃ hundreds tens units, m.HoldsAt o.state.memory 0 hundreds ∧
    m.HoldsAt o.state.memory 1 tens ∧ m.HoldsAt o.state.memory 2 units ∧
    Spells hundreds tens units (m.register x)
  outside : ∀ place : Nat, (∀ i < 3, place ≠ (Number.land (m.index + (i : Nat)) 0xFFF).toNat) →
    o.state.memory.bytes[place]? = m.memory.bytes[place]?
  rest : o = .done { m with pc := (m.pc + 2) % 4096, memory := o.state.memory }

theorem spelt_execute (h : m.WellFormed) (x : Register) :
    m.Spelt x (m.advance.execute (.writeDecimal x)) := by
  have value := h.registers x
  have bytes := decimalDigits_range value
  have three : (decimalDigits (m.register x)).length = 3 := rfl
  have written : ∀ (i : Nat) (hi : i < 3),
      m.HoldsAt (m.advance.execute (.writeDecimal x)).state.memory i
        (decimalDigits (m.register x))[i] :=
    fun i hi => holdsAt_iff.mpr (Memory.read_writeBlock bytes (by omega) m.index m.memory hi)
  constructor
  · exact ⟨_, _, _, written 0 (by decide), written 1 (by decide), written 2 (by decide),
      spells_digits value⟩
  · intro place apart
    simp only [Memory.toNat_land] at apart
    exact Memory.getElem?_writeBlock apart
  · have unfaulted : (m.advance.writeAtIndex (decimalDigits (m.register x))).fault = none :=
      Memory.fault_writeBlock bytes m.index m.memory
    exact congrArg (Outcome.mk _) unfaulted

/-- Restoring the first three registers reads the digits that were written. -/
theorem Spelt.restored {o o' : Outcome Machine} (h : m.Spelt x o) (h' : o.state.Restored 2 o') :
    Spells (o'.state.register 0) (o'.state.register 1) (o'.state.register 2) (m.register x) := by
  have index : o.state.index = m.index := congrArg (fun o => o.state.index) h.rest
  -- what a cell holds is what a register has read from it
  have read : ∀ (i : Register) (value : Int), i ≤ 2 → m.HoldsAt o.state.memory i.val value →
      o'.state.register i = value := by
    intro i value hi held
    rw [← holdsAt_iff.mp (h'.inside i hi), index]
    exact holdsAt_iff.mp held
  obtain ⟨hundreds, tens, units, first, second, third, spells⟩ := h.spells
  rw [read 0 hundreds (by decide) first, read 1 tens (by decide) second,
    read 2 units (by decide) third]
  exact spells

end Machine

namespace Traced

/-- **A register written in decimal and read back.** The first word writes the three digits and
nothing else; the second, whatever register the first one named, leaves them in the first three
registers and moves the index past them. -/
theorem process_decimal (t : Traced) (h : t.machine.WellFormed) (x : Register) :
    let m := t.machine
    let written := t.process (0xF033 + x.val * 256)
    let read := written.state.process 0xF265
    let m' := read.state.machine
    m.Spelt x (written.map machine) ∧ read.fault = none ∧
    Spells (m'.register 0) (m'.register 1) (m'.register 2) (m.register x) ∧
    (∀ z > 2, m'.register z = m.register z) ∧
    m'.index = (m.index + 3) % 65536 := by
  intro m written read m'
  have encoded : (0xF033 + x.val * 256 : Int) = (Instruction.writeDecimal x).encode := by
    rw [Instruction.encode, Instruction.withByte]
    omega
  have spelt : m.Spelt x (written.map machine) := by
    rw [map_process_encode encoded]
    exact Machine.spelt_execute h x
  have restored : written.state.machine.Restored 2 (read.map machine) :=
    written.state.restored_restore 2
  -- what the words are made of no longer matters
  clear_value read written
  have registers : written.state.machine.registers = m.registers :=
    congrArg (fun o => o.state.registers) spelt.rest
  have index : written.state.machine.index = m.index :=
    congrArg (fun o => o.state.index) spelt.rest
  refine ⟨spelt, congrArg Outcome.fault restored.rest, spelt.restored restored, ?_, ?_⟩
  · intro z hz
    refine (restored.outside z hz).trans ?_
    rw [Machine.register, registers]
    rfl
  · have moved : m'.index = (written.state.machine.index + 2 + 1) % 65536 :=
      congrArg (fun o => o.state.index) restored.rest
    rw [moved, index, Int.add_assoc]
    rfl

/-- Register 1 written in decimal over the last cell, by an index that goes round when it is moved:
the digits come to stand in register 1 itself and the two beside it. -/
theorem process_decimal_round :
    let m : Machine := { (Machine.initial ⟨fun _ => 0, 0⟩).setRegister 1 207 with index := 0xFFFE }
    let read := (Traced.process 0xF133 ⟨m, .empty .debug⟩).state.process 0xF265
    m.WellFormed ∧ read.state.machine.register 0 = 2 ∧ read.state.machine.register 1 = 0
      ∧ read.state.machine.register 2 = 7 ∧ read.state.machine.index = 1 := by
  intro m read
  have initial := Machine.wellFormed_initial ⟨fun _ => 0, 0⟩
  have h : m.WellFormed := (initial.setRegister 1 (by decide)).withIndex (by decide)
  obtain ⟨-, -, spells, -, index⟩ := process_decimal ⟨m, .empty .debug⟩ h 1
  have spells : Spells (read.state.machine.register 0) (read.state.machine.register 1)
      (read.state.machine.register 2) 207 := spells
  obtain ⟨hundreds, tens, units, sum⟩ := spells
  refine ⟨h, ?_, ?_, ?_, index⟩
  all_goals omega

end Traced
end Chip8Vm
