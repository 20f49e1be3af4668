import Chip8Vm.Proofs.Keys
import Chip8Vm.Proofs.Masks
import Chip8Vm.Proofs.Range

/-!
# What an instruction may change

A machine has parts: its cells, its registers, and nine more. An instruction owns few of them
(`Instruction.Owns`), and which cells it owns depends on the index.

> **a part that no instruction of a word owns is as it was** after the word (`same_process`),
> whether it was carried out to its end or cut short.

The program counter is no part. Every word moves it, so that where it goes is said outright
(`Machine.destination`). Nothing else is left over: two machines with the same parts differ in the
program counter alone (`eq_of_same`).
-/

set_option autoImplicit false

namespace Chip8Vm

/-- A part of a machine; cells go by their place in the array. -/
inductive Part where
  | cell (place : Nat)
  | register (x : Register)
  | index
  | delay
  | sound
  | stack
  | waiting
  | display
  | keypad
  | random
  deriving DecidableEq

/-- The second machine holds in a part what the first one held. -/
def Part.Same : Part → Machine → Machine → Prop
  | cell place, m, m' => m'.memory.bytes[place]? = m.memory.bytes[place]?
  | register x, m, m' => m'.register x = m.register x
  | index, m, m' => m'.index = m.index
  | delay, m, m' => m'.delay = m.delay
  | sound, m, m' => m'.sound = m.sound
  | stack, m, m' => m'.stack = m.stack
  | waiting, m, m' => m'.waiting = m.waiting
  | display, m, m' => m'.display = m.display
  | keypad, m, m' => m'.keypad = m.keypad
  | random, m, m' => m'.random = m.random

/-- Whether an operation writes the register of flags besides its result. -/
def Operation.setsFlag : Operation → Bool
  | copy | or | and | xor => false
  | add | sub | shiftRight | subFrom | shiftLeft => true

/-- The parts that an instruction may change, the index being where it is. The cells are those that
a mask of twelve bits leaves of their addresses. -/
def Instruction.Owns (index : Int) : Instruction → Part → Prop
  | clear, part => part = .display
  | ret, part | call _, part => part = .stack
  | jump _, _ | jumpBy _, _ | skip .., _ => False
  | assign x _, part | increase x _, part | readDelay x, part => part = .register x
  | combine op x _, part =>
    part = .register x ∨ (op.setsFlag ∧ part = .register Machine.flagRegister)
  | point _, part | movePointer _, part | pointToGlyph _, part => part = .index
  | random x _, part => part = .register x ∨ part = .random
  | draw .., part => part = .register Machine.flagRegister ∨ part = .display
  | awaitKey x, part => part = .register x ∨ part = .waiting
  | startDelay _, part => part = .delay
  | startSound _, part => part = .sound
  | writeDecimal _, part => ∃ i < 3, part = .cell (Number.land (index + (i : Nat)) 0xFFF).toNat
  | save last, part =>
    part = .index ∨ ∃ i < last.val + 1, part = .cell (Number.land (index + (i : Nat)) 0xFFF).toNat
  | restore last, part => part = .index ∨ ∃ x ≤ last, part = .register x

theorem Part.Same.trans {part : Part} {m m' m'' : Machine} (h : part.Same m m')
    (h' : part.Same m' m'') : part.Same m m'' := by
  cases part <;> exact Eq.trans h' h

/-! ## Cells -/

namespace Memory

theorem getElem?_put {m : Memory} {a : Int} {b : UInt8} {place : Nat} (h : place ≠ cell a) :
    (m.put a b).bytes[place]? = m.bytes[place]? := by
  rw [put, Array.getElem?_set_ne (m.cell_lt_size a) h.symm]

/-- Writing a block leaves the cells outside it alone, however far it comes. -/
theorem getElem?_writeBlock {vs : List Int} {a : Int} {m : Memory} {place : Nat}
    (h : ∀ i < vs.length, place ≠ cell (a + (i : Nat))) :
    (writeBlock a vs m).state.bytes[place]? = m.bytes[place]? := by
  induction vs generalizing a m with
  | nil => rfl
  | cons v vs ih =>
    have first : place ≠ cell a := by simpa using h 0
    rw [writeBlock, write]
    cases byte? v with
    | none => rfl
    | some b =>
      refine (ih fun i hi => ?_).trans (getElem?_put first)
      have next := h (i + 1) (by simpa using hi)
      rwa [show a + ((i + 1 : Nat) : Int) = a + 1 + (i : Nat) by omega] at next

end Memory

namespace Machine

variable {m m' : Machine} {part : Part}

/-- Where an instruction that is carried out to its end takes the program counter. -/
def destination (m : Machine) : Instruction → Int
  | .jump target | .call target => target.val
  | .jumpBy base => (base.val + m.register ⟨0, by decide⟩) % 4096
  | .ret => m.stack.live.getLastD ((m.pc + 2) % 4096)
  | .skip test wanted => if m.holds test = wanted then (m.pc + 4) % 4096 else (m.pc + 2) % 4096
  | .awaitKey _ =>
    if ∀ k : Fin 16, m.keypad.isDown k = false then m.pc else (m.pc + 2) % 4096
  | _ => (m.pc + 2) % 4096

theorem eq_of_same (h : ∀ part : Part, part.Same m m') : m' = { m with pc := m'.pc } := by
  have memory : m'.memory = m.memory :=
    Memory.ext (Array.ext_getElem? fun place => h (.cell place))
  have registers : m'.registers = m.registers :=
    Vector.ext fun x hx => h (.register ⟨x, hx⟩)
  obtain ⟨_, _, _, _, _, _, _, _, _, _, _⟩ := m'
  have := h .index
  have := h .delay
  have := h .sound
  have := h .stack
  have := h .waiting
  have := h .display
  have := h .keypad
  have := h .random
  simp_all [Part.Same]

/-! ## One instruction -/

theorem same_advance (part : Part) : part.Same m m.advance := by
  cases part <;> rfl

theorem same_setRegister {x : Register} (v : Int) (h : part ≠ .register x) :
    part.Same m (m.setRegister x v) := by
  cases part with
  | register y =>
    refine (register_setRegister m x y v).trans (if_neg fun hxy => h ?_)
    rw [hxy]
  | _ => rfl

theorem same_combine {op : Operation} {x y : Register} {index : Int}
    (h : ¬ (Instruction.combine op x y).Owns index part) : part.Same m (m.combine op x y) := by
  obtain ⟨result, flag⟩ := not_or.mp h
  have both : op.setsFlag = true → part ≠ .register flagRegister := fun hs hp => flag ⟨hs, hp⟩
  cases op with
  | copy | or | and | xor => exact same_setRegister _ result
  | add | sub | subFrom => exact (same_setRegister _ result).trans (same_setRegister _ (both rfl))
  | shiftRight | shiftLeft =>
    exact (same_setRegister _ (both rfl)).trans (same_setRegister _ result)

theorem same_writeAtIndex {vs : List Int}
    (h : ∀ i < vs.length, part ≠ .cell (Number.land (m.index + (i : Nat)) 0xFFF).toNat) :
    part.Same m (m.writeAtIndex vs).state := by
  cases part with
  | cell place =>
    refine Memory.getElem?_writeBlock fun i hi hp => h i hi ?_
    rw [hp, Memory.toNat_land]
  | _ => rfl

/-- **An instruction changes only what it owns**, the program counter apart. -/
theorem same_execute {i : Instruction} (h : ¬ i.Owns m.index part) :
    part.Same m (m.execute i).state := by
  cases i with
  | clear =>
    cases part with
    | display => exact absurd rfl h
    | _ => rfl
  | ret =>
    simp only [execute]
    cases m.stack.pop? with
    | none => cases part <;> rfl
    | some top =>
      cases part with
      | stack => exact absurd rfl h
      | _ => rfl
  | jump target => cases part <;> rfl
  | call target =>
    simp only [execute]
    obtain ⟨stack, fault⟩ := m.stack.push m.pc
    cases fault with
    | some f => cases part <;> rfl
    | none =>
      cases part with
      | stack => exact absurd rfl h
      | _ => rfl
  | skip test wanted =>
    simp only [execute, Outcome.state_done]
    split
    · exact same_advance part
    · cases part <;> rfl
  | assign x value => exact same_setRegister _ h
  | increase x value => exact same_setRegister _ h
  | combine op x y => exact same_combine h
  | point address =>
    cases part with
    | index => exact absurd rfl h
    | _ => rfl
  | jumpBy base => cases part <;> rfl
  | random x mask =>
    obtain ⟨result, source⟩ := not_or.mp h
    have kept : part.Same m (m.setRegister x (Number.land m.random.next mask.val)) :=
      same_setRegister _ result
    cases part with
    | random => exact absurd rfl source
    | register y => exact kept
    | _ => rfl
  | draw x y height =>
    obtain ⟨result, display⟩ := not_or.mp h
    simp only [execute]
    generalize flagValue _ = hit
    have kept : part.Same m (m.setRegister flagRegister hit) := same_setRegister _ result
    cases part with
    | display => exact absurd rfl display
    | register y => exact kept
    | _ => rfl
  | readDelay x => exact same_setRegister _ h
  | awaitKey x =>
    obtain ⟨result, wait⟩ := not_or.mp h
    simp only [execute]
    cases m.keypad.first? with
    | none =>
      cases part with
      | waiting => exact absurd rfl wait
      | _ => rfl
    | some key =>
      have kept : part.Same m (m.setRegister x key.val) := same_setRegister _ result
      cases part with
      | waiting => exact absurd rfl wait
      | register y => exact kept
      | _ => rfl
  | startDelay x =>
    cases part with
    | delay => exact absurd rfl h
    | _ => rfl
  | startSound x =>
    cases part with
    | sound => exact absurd rfl h
    | _ => rfl
  | movePointer x =>
    cases part with
    | index => exact absurd rfl h
    | _ => rfl
  | pointToGlyph x =>
    cases part with
    | index => exact absurd rfl h
    | _ => rfl
  | writeDecimal x => exact same_writeAtIndex fun i hi hp => h ⟨i, hi, hp⟩
  | save last =>
    obtain ⟨index, cells⟩ := not_or.mp h
    have written : part.Same m (m.writeAtIndex (m.registersUpTo last)).state := by
      refine same_writeAtIndex fun i hi hp => cells ⟨i, ?_, hp⟩
      exact Nat.lt_of_lt_of_le hi (List.length_take_le _ _)
    -- the index moves only if the block was written to its end
    refine Outcome.andThen_keeps (P := part.Same m) written fun _ hm => hm.trans ?_
    cases part with
    | index => exact absurd rfl index
    | _ => rfl
  | restore last =>
    obtain ⟨index, registers⟩ := not_or.mp h
    simp only [execute, skipBlock, Outcome.state_done]
    cases part with
    | index => exact absurd rfl index
    | register y =>
      refine (Vector.getElem_ofFn _).trans (if_neg fun hy => registers ⟨y, hy, rfl⟩)
    | _ => rfl

/-- **A word changes only what its instruction owns**, and a word without a meaning nothing. -/
theorem same_process {opcode : Int}
    (h : ∀ i, Instruction.decode? opcode = some i → ¬ i.Owns m.index part) :
    part.Same m (m.process opcode).state := by
  unfold process
  cases hd : Instruction.decode? opcode with
  | none => exact same_advance part
  | some i => exact (same_advance part).trans (same_execute (h i hd))

/-! ## The program counter -/

/-- An instruction that is cut short has moved the program counter on like any other. -/
theorem pc_execute (pc : 0 ≤ m.pc ∧ m.pc < 4096) (i : Instruction) :
    (m.advance.execute i).state.pc
      = (m.advance.execute i).fault.elim (m.destination i) fun _ => (m.pc + 2) % 4096 := by
  have written : ∀ values, (m.advance.writeAtIndex values).state.pc = (m.pc + 2) % 4096 :=
    fun _ => rfl
  have either : ∀ fault : Option Fault,
      (m.pc + 2) % 4096 = fault.elim ((m.pc + 2) % 4096) fun _ => (m.pc + 2) % 4096 := by
    intro fault
    cases fault <;> rfl
  cases i with
  | ret =>
    simp only [execute, stack_advance]
    cases hp : m.stack.pop? with
    | none => rfl
    | some top =>
      obtain ⟨address, stack⟩ := top
      show address = m.stack.live.getLastD ((m.pc + 2) % 4096)
      rw [CallStack.live_pop hp, List.getLastD_concat]
  | call target =>
    simp only [execute, stack_advance]
    obtain ⟨stack, fault⟩ := m.stack.push m.advance.pc
    cases fault with
    | none => rfl
    | some f => rfl
  | skip test wanted =>
    have same : m.advance.holds test = m.holds test := by cases test <;> rfl
    have goal : m.destination (.skip test wanted)
        = if m.holds test = wanted then (m.pc + 4) % 4096 else (m.pc + 2) % 4096 := rfl
    rw [execute, same, goal]
    split
    · show ((m.pc + 2) % 4096 + 2) % 4096 = (m.pc + 4) % 4096
      omega
    · rfl
  | awaitKey x =>
    have goal : m.destination (.awaitKey x)
        = if ∀ k : Fin 16, m.keypad.isDown k = false then m.pc else (m.pc + 2) % 4096 := rfl
    simp only [execute, keypad_advance, goal, ← Keypad.first?_eq_none_iff]
    cases m.keypad.first? with
    | none => exact previousAddress_advance pc
    | some key => rfl
  | combine op x y => cases op <;> rfl
  | writeDecimal x => exact (written _).trans (either _)
  | save last =>
    refine Eq.trans ?_ (either _)
    exact Outcome.andThen_keeps (P := fun m' : Machine => m'.pc = (m.pc + 2) % 4096) (written _)
      fun _ h => h
  | _ => rfl

/-! ## Words -/

/-- What a word may have done to a machine. A word without a meaning is no word of an instruction,
so that no part is owned then. -/
structure Effect (m : Machine) (opcode : Int) (o : Outcome Machine) : Prop where
  same : ∀ part : Part, (∀ i : Instruction, opcode % 65536 = i.encode → ¬ i.Owns m.index part) →
    part.Same m o.state
  /-- A word that draws a random value draws one. -/
  random : ∀ x mask, opcode % 65536 = (Instruction.random x mask).encode →
    o.state.random = m.random.advance
  pc : ∀ i : Instruction, opcode % 65536 = i.encode →
    o.state.pc = o.fault.elim (m.destination i) fun _ => (m.pc + 2) % 4096
  passedOver : (∀ i : Instruction, opcode % 65536 ≠ i.encode) →
    o = .done { m with pc := (m.pc + 2) % 4096 }

theorem effect_process (pc : 0 ≤ m.pc ∧ m.pc < 4096) (opcode : Int) :
    m.Effect opcode (m.process opcode) where
  same part h := same_process fun i hd => h i (Instruction.decode?_eq_some_iff.mp hd)
  random x mask hw := by
    rw [process_of_decode (Instruction.decode?_eq_some_iff.mpr hw)]
    rfl
  pc i hw := by
    rw [process_of_decode (Instruction.decode?_eq_some_iff.mpr hw)]
    exact pc_execute pc i
  passedOver h := by
    have unread : Instruction.decode? opcode = none := by
      refine Option.eq_none_iff_forall_ne_some.mpr fun i hd => h i ?_
      exact Instruction.decode?_eq_some_iff.mp hd
    rw [process, unread]
    rfl

end Machine

/-- **Every word leaves alone what it does not own**: all parts of a machine but those that the
table gives to its instruction, and the program counter goes where the instruction takes it. -/
theorem Traced.process_effect (t : Traced) (h : t.machine.WellFormed) (opcode : Int) :
    t.machine.Effect opcode ((t.process opcode).map Traced.machine) := by
  rw [map_process]
  exact t.machine.effect_process h.pc opcode

/-- Three registers saved across the last cell, by a word below zero at the last address but one:
the cell behind the block and the registers are as they were, and the program counter is at zero. -/
theorem Traced.process_effect_wrapped :
    let m : Machine := { Machine.initial ⟨fun _ => 0, 0⟩ with pc := 0xFFE, index := 0xFFE }
    let t : Traced := ⟨m, .empty .debug⟩
    m.WellFormed
      ∧ (t.process (0xF255 - 0x10000)).state.machine.memory.bytes[1]? = m.memory.bytes[1]?
      ∧ (t.process (0xF255 - 0x10000)).state.machine.registers = m.registers
      ∧ (t.process (0xF255 - 0x10000)).state.machine.pc = 0 := by
  intro m t
  have initial := Machine.wellFormed_initial ⟨fun _ => 0, 0⟩
  have h : m.WellFormed :=
    (initial.withPc (a := 0xFFE) (by decide)).withIndex (a := 0xFFE) (by decide)
  have effect := process_effect t h (0xF255 - 0x10000)
  have word : ∀ i : Instruction, (0xF255 - 0x10000 : Int) % 65536 = i.encode → i = .save 2 := by
    intro i hw
    have hd : Instruction.decode? (0xF255 - 0x10000) = some i :=
      Instruction.decode?_eq_some_iff.mpr hw
    exact (Option.some.inj hd).symm
  refine ⟨h, ?_, ?_, ?_⟩
  · refine effect.same (.cell 1) fun i hw => ?_
    rw [word i hw]
    rintro (hp | ⟨k, hk, hp⟩)
    · cases hp
    · -- the places are 4094, 4095 and zero
      have place : 1 = (Number.land (0xFFE + (k : Nat)) 0xFFF).toNat := Part.cell.inj hp
      have : k < 3 := hk
      rw [Memory.toNat_land, Memory.cell] at place
      omega
  · refine Vector.ext fun x hx => effect.same (.register ⟨x, hx⟩) fun i hw => ?_
    rw [word i hw]
    rintro (hp | ⟨i, hi, hp⟩) <;> cases hp
  · exact (effect.pc (.save 2) (by decide)).trans rfl

end Chip8Vm
