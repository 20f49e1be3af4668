import Chip8Vm.Proofs.Ownership
import Chip8Vm.Proofs.StackFaults

/-!
# Blocks of registers

The registers up to one can be saved to the memory at the index and restored from there. The block
may run over the last cell into the first, but it has no more than sixteen cells and so comes to
none of them twice (`read_writeBlock`).

Saving and restoring bring about the same thing from two sides: the memory at the index holds what
the registers hold (`Mirrors`). Where that is so already, neither has anything left to change
(`Saved.memory_eq`, `Restored.registers_eq`).

> **So each undoes the other, the index being put back between them** (`process_blocks`).
-/

set_option autoImplicit false

namespace Chip8Vm

/-! ## Writing a block and reading it -/

namespace Memory

theorem read_congr {m m' : Memory} {a : Int} (h : m'.bytes[cell a]? = m.bytes[cell a]?) :
    m'.read a = m.read a := by
  rw [getElem?_cell, getElem?_cell] at h
  exact Option.some.inj h

/-- A block that does not go all the way round the memory is read as it was written. The induction
is on the values: the first is put before the others are written, and these do not come back to its
cell. -/
theorem read_writeBlock {vs : List Int} (bytes : ∀ v ∈ vs, 0 ≤ v ∧ v < 256)
    (short : vs.length ≤ 4096) (a : Int) (m : Memory) {i : Nat} (hi : i < vs.length) :
    (((writeBlock a vs m).state.read (a + i)).toNat : Int) = vs[i] := by
  induction vs generalizing a m i with
  | nil => exact absurd hi (Nat.not_lt_zero i)
  | cons v vs ih =>
    have byte := byte?_of_range (bytes v (by simp))
    have rest : (writeBlock a (v :: vs) m).state
        = (writeBlock (a + 1) vs (m.put a (UInt8.ofNat v.toNat))).state := by
      rw [writeBlock, write, byte]
      rfl
    rw [rest]
    rw [List.length_cons] at short hi
    cases i with
    | zero =>
      have kept : (writeBlock (a + 1) vs (m.put a (UInt8.ofNat v.toNat))).state.read (a + (0 : Nat))
          = (m.put a (UInt8.ofNat v.toNat)).read (a + (0 : Nat)) := by
        apply read_congr
        apply getElem?_writeBlock
        intro j hj
        unfold cell
        omega
      rw [kept, read_put, if_pos (by simp), toNat_of_byte? byte]
      rfl
    | succ i =>
      have next : a + ((i + 1 : Nat) : Int) = a + 1 + (i : Nat) := by omega
      rw [next]
      exact ih (fun w hw => bytes w (by simp [hw])) (by omega) (a + 1) _ (by omega)

end Memory

namespace Machine

variable {m : Machine} {last : Register} {o : Outcome Machine}

theorem length_registersUpTo (m : Machine) (last : Register) :
    (m.registersUpTo last).length = last.val + 1 := by
  rw [registersUpTo, List.length_take, Vector.length_toList]
  omega

theorem getElem_registersUpTo (m : Machine) (last i : Register)
    (hi : i.val < (m.registersUpTo last).length) :
    (m.registersUpTo last)[i.val] = m.register i := by
  simp only [registersUpTo, List.getElem_take, Vector.getElem_toList]
  rfl

/-! ## What saving and restoring do -/

/-- A memory holds a value so far behind the index, in the cell that a mask of twelve bits leaves of
the address. -/
def HoldsAt (m : Machine) (memory : Memory) (i : Nat) (value : Int) : Prop :=
  ∃ b, memory.bytes[(Number.land (m.index + i) 0xFFF).toNat]? = some b ∧ (b.toNat : Int) = value

theorem holdsAt_iff {memory : Memory} {i : Nat} {value : Int} :
    m.HoldsAt memory i value ↔ ((memory.read (m.index + i)).toNat : Int) = value := by
  unfold HoldsAt
  simp only [(memory.getElem?_land (m.index + i)).2, Option.some_inj, exists_eq_left']

/-- The memory at the index holds what the registers up to one hold. -/
def Mirrors (m : Machine) (last : Register) : Prop :=
  ∀ i ≤ last, m.HoldsAt m.memory i.val (m.register i)

/-- What saving the registers up to one has done to a machine. -/
structure Saved (m : Machine) (last : Register) (o : Outcome Machine) : Prop where
  inside : ∀ i ≤ last, m.HoldsAt o.state.memory i.val (m.register i)
  outside : ∀ place : Nat, (∀ i ≤ last, place ≠ (Number.land (m.index + i.val) 0xFFF).toNat) →
    o.state.memory.bytes[place]? = m.memory.bytes[place]?
  rest : o = .done { m with
    pc := (m.pc + 2) % 4096
    memory := o.state.memory
    index := (m.index + last.val + 1) % 65536 }

/-- What restoring the registers up to one has done to a machine. -/
structure Restored (m : Machine) (last : Register) (o : Outcome Machine) : Prop where
  inside : ∀ i ≤ last, m.HoldsAt m.memory i.val (o.state.register i)
  outside : ∀ i > last, o.state.register i = m.register i
  rest : o = .done { m with
    pc := (m.pc + 2) % 4096
    registers := o.state.registers
    index := (m.index + last.val + 1) % 65536 }

theorem saved_execute (h : m.WellFormed) (last : Register) :
    m.Saved last (m.advance.execute (.save last)) := by
  have bytes := h.registersUpTo_range last
  have length := m.length_registersUpTo last
  have unfaulted : (m.advance.writeAtIndex (m.registersUpTo last)).fault = none :=
    Memory.fault_writeBlock bytes m.index m.memory
  -- a block that is written to its end is one that the index is moved past
  have done : m.advance.execute (.save last)
      = .done ((m.advance.writeAtIndex (m.registersUpTo last)).state.skipBlock last) := by
    show (m.advance.writeAtIndex (m.registersUpTo last)).andThen _ = _
    cases hw : m.advance.writeAtIndex (m.registersUpTo last) with
    | mk m' fault =>
      rw [hw] at unfaulted
      cases unfaulted
      rfl
  have memory : (m.advance.execute (.save last)).state.memory
      = (Memory.writeBlock m.index (m.registersUpTo last) m.memory).state := by
    rw [done]
    rfl
  constructor
  · intro i hi
    have upTo : i.val ≤ last.val := hi
    have inside : i.val < (m.registersUpTo last).length := by omega
    rw [holdsAt_iff, memory, Memory.read_writeBlock bytes (by omega) m.index m.memory inside]
    exact m.getElem_registersUpTo last i inside
  · intro place apart
    rw [memory]
    apply Memory.getElem?_writeBlock
    intro i hi
    have away := apart ⟨i, by omega⟩ (Fin.le_def.mpr (by dsimp only; omega))
    rwa [Memory.toNat_land] at away
  · rw [done]
    rfl

theorem restored_execute (m : Machine) (last : Register) :
    m.Restored last (m.advance.execute (.restore last)) := by
  have register : ∀ i : Register, (m.advance.execute (.restore last)).state.register i
      = if i ≤ last then ((m.memory.read (m.index + i.val)).toNat : Int) else m.register i :=
    fun i => Vector.getElem_ofFn i.isLt
  constructor
  · intro i hi
    rw [holdsAt_iff, register, if_pos hi]
  · intro i hi
    rw [register, if_neg (Fin.not_le.mpr hi)]
  · rfl

/-! ## Each after the other -/

theorem Saved.mirrors (h : m.Saved last o) : { o.state with index := m.index }.Mirrors last := by
  intro i hi
  have kept : o.state.register i = m.register i := by
    rw [h.rest]
    rfl
  have held := h.inside i hi
  rw [← kept] at held
  exact held

theorem Restored.mirrors (h : m.Restored last o) :
    { o.state with index := m.index }.Mirrors last := by
  intro i hi
  have kept : o.state.memory = m.memory := by
    rw [h.rest]
    rfl
  have held := h.inside i hi
  rw [← kept] at held
  exact held

/-- Saving what the memory holds already changes no byte of it. -/
theorem Saved.memory_eq (h : m.Saved last o) (held : m.Mirrors last) :
    o.state.memory = m.memory := by
  apply Memory.ext
  apply Array.ext_getElem?
  intro place
  by_cases within : ∃ i ≤ last, place = (Number.land (m.index + i.val) 0xFFF).toNat
  · obtain ⟨i, hi, rfl⟩ := within
    obtain ⟨saved, there, value⟩ := h.inside i hi
    obtain ⟨before, here, value'⟩ := held i hi
    have same : saved.toNat = before.toNat := Int.ofNat_inj.mp (value.trans value'.symm)
    rw [there, here, UInt8.toNat_inj.mp same]
  · apply h.outside
    intro i hi here
    exact within ⟨i, hi, here⟩

/-- Restoring what the registers hold already changes no register. -/
theorem Restored.registers_eq (h : m.Restored last o) (held : m.Mirrors last) :
    o.state.registers = m.registers := by
  apply Vector.ext
  intro i hi
  show o.state.register ⟨i, hi⟩ = m.register ⟨i, hi⟩
  by_cases inside : (⟨i, hi⟩ : Register) ≤ last
  · rw [← holdsAt_iff.mp (h.inside _ inside), ← holdsAt_iff.mp (held _ inside)]
  · exact h.outside _ (Fin.not_le.mp inside)

end Machine

/-! ## Words -/

namespace Traced

/-- The index set from outside. -/
def pointTo (a : Int) (t : Traced) : Traced := { t with machine := { t.machine with index := a } }

/-- The words that save and restore the registers up to one. -/
def save (last : Register) (t : Traced) : Outcome Traced := t.process (0xF055 + last.val * 256)

def restore (last : Register) (t : Traced) : Outcome Traced := t.process (0xF065 + last.val * 256)

theorem saved_save {t : Traced} (h : t.machine.WellFormed) (last : Register) :
    t.machine.Saved last ((t.save last).map machine) := by
  have encoded : (0xF055 + last.val * 256 : Int) = (Instruction.save last).encode := by
    rw [Instruction.encode, Instruction.withByte]
    omega
  rw [save, map_process_encode encoded]
  exact Machine.saved_execute h last

theorem restored_restore (t : Traced) (last : Register) :
    t.machine.Restored last ((t.restore last).map machine) := by
  have encoded : (0xF065 + last.val * 256 : Int) = (Instruction.restore last).encode := by
    rw [Instruction.encode, Instruction.withByte]
    omega
  rw [restore, map_process_encode encoded]
  exact t.machine.restored_execute last

/-- Saving goes through, and where the memory holds the registers already it leaves it alone. -/
theorem save_of_mirrors {t : Traced} {last : Register} (h : t.machine.WellFormed)
    (held : t.machine.Mirrors last) :
    (t.save last).fault = none ∧ (t.save last).state.machine.memory = t.machine.memory := by
  have saved := saved_save h last
  exact ⟨congrArg Outcome.fault saved.rest, saved.memory_eq held⟩

/-- So does restoring, which leaves the memory alone in any case. -/
theorem restore_of_mirrors {t : Traced} {last : Register} (held : t.machine.Mirrors last) :
    (t.restore last).fault = none
      ∧ (t.restore last).state.machine.registers = t.machine.registers
      ∧ (t.restore last).state.machine.memory = t.machine.memory := by
  have restored := t.restored_restore last
  have memory := congrArg (fun o => o.state.memory) restored.rest
  exact ⟨congrArg Outcome.fault restored.rest, restored.registers_eq held, memory⟩

theorem wellFormed_pointTo {t : Traced} (h : t.machine.WellFormed) (word : Int) {a : Int}
    (ha : 0 ≤ a ∧ a < 65536) : ((t.process word).state.pointTo a).machine.WellFormed := by
  have processed := h.process word
  rw [← map_process] at processed
  exact processed.withIndex ha

/-- **Saving and restoring a block.** What each of them does, and what is left of both: after
saving, restoring changes no register and saving again no byte of memory, and after restoring,
saving changes no byte of memory. All of it holds wherever the index is, so also for a block that
goes over the last cell, and for one behind which the index itself goes round. -/
theorem process_blocks (t : Traced) (h : t.machine.WellFormed) (last : Register) :
    let m := t.machine
    let saved := t.save last
    let reloaded := (saved.state.pointTo m.index).restore last
    let restored := t.restore last
    let stored := (restored.state.pointTo m.index).save last
    m.Saved last (saved.map machine) ∧ m.Restored last (restored.map machine) ∧
    (reloaded.fault = none ∧ reloaded.state.machine.registers = m.registers
      ∧ reloaded.state.machine.memory = saved.state.machine.memory) ∧
    (∀ s ∈ [saved.state, reloaded.state], ((s.pointTo m.index).save last).fault = none
      ∧ ((s.pointTo m.index).save last).state.machine.memory = saved.state.machine.memory) ∧
    (stored.fault = none ∧ stored.state.machine.memory = m.memory) := by
  intro m saved reloaded restored stored
  have hsaved : m.Saved last (saved.map machine) := saved_save h last
  have hrestored : m.Restored last (restored.map machine) := t.restored_restore last
  have wfSaved := wellFormed_pointTo h (0xF055 + last.val * 256) h.index
  have wfRestored := wellFormed_pointTo h (0xF065 + last.val * 256) h.index
  have wfReloaded := wellFormed_pointTo wfSaved (0xF065 + last.val * 256) h.index
  have mirrors : (saved.state.pointTo m.index).machine.Mirrors last := hsaved.mirrors
  obtain ⟨unfaulted, registers, memory⟩ := restore_of_mirrors mirrors
  have saved_registers : saved.state.machine.registers = m.registers :=
    congrArg (fun o => o.state.registers) hsaved.rest
  have restored_memory : restored.state.machine.memory = m.memory :=
    congrArg (fun o => o.state.memory) hrestored.rest
  refine ⟨hsaved, hrestored, ⟨unfaulted, registers.trans saved_registers, memory⟩, ?_, ?_⟩
  · intro s hs
    rw [List.mem_cons, List.mem_singleton] at hs
    rcases hs with rfl | rfl
    · exact save_of_mirrors wfSaved mirrors
    · -- what has been reloaded is held by both sides again
      have held := ((saved.state.pointTo m.index).restored_restore last).mirrors
      obtain ⟨done, again⟩ := save_of_mirrors wfReloaded held
      exact ⟨done, again.trans memory⟩
  · obtain ⟨done, again⟩ := save_of_mirrors wfRestored hrestored.mirrors
    exact ⟨done, again.trans restored_memory⟩

/-- All sixteen registers, saved and restored where the index stands at the last number it can hold:
the block goes round after its first cell, and so does the index. -/
theorem process_blocks_round :
    let m : Machine := { (Machine.initial ⟨fun _ => 0, 0⟩).setRegister 15 7 with index := 0xFFFF }
    let t : Traced := ⟨m, .empty .debug⟩
    let reloaded := ((t.save 15).state.pointTo 0xFFFF).restore 15
    m.WellFormed ∧ reloaded.state.machine.registers = m.registers
      ∧ reloaded.state.machine.memory.read 14 = 7 ∧ reloaded.state.machine.index = 15 := by
  intro m t reloaded
  have initial := Machine.wellFormed_initial ⟨fun _ => 0, 0⟩
  have h : m.WellFormed := (initial.setRegister 15 (by decide)).withIndex (by decide)
  obtain ⟨saved, -, ⟨-, registers, memory⟩, -, -⟩ := process_blocks t h 15
  have index := congrArg (fun o => o.state.index)
    (((t.save 15).state.pointTo 0xFFFF).restored_restore 15).rest
  have held := Machine.holdsAt_iff.mp (saved.inside 15 (by decide))
  have last : (((t.save 15).state.machine.memory.read (0xFFFF + 15)).toNat : Int) = 7 := held
  refine ⟨h, registers, ?_, index⟩
  have cell : Memory.cell (0xFFFF + 15) = Memory.cell 14 := by decide
  rw [memory]
  apply UInt8.toNat_inj.mp
  apply Int.ofNat_inj.mp
  refine Eq.trans ?_ last
  simp only [Memory.read, cell]

end Traced
end Chip8Vm
