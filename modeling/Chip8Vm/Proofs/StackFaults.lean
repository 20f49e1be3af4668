import Chip8Vm.Proofs.Range

/-!
# The faults of a running machine

An instruction can fault in three ways: a call with a full stack, a return with an empty one, and a
write to memory of a value that is no byte. In a well-formed machine the third cannot happen, since
what is written are registers and decimal digits. That leaves the stack, and there the fault is
found before anything is changed.

> **a word faults exactly when it is a call on a full stack or a return on an empty one, and then
> it has moved the program counter on and done nothing else** (`process_stackFaults`).
-/

set_option autoImplicit false

namespace Chip8Vm

/-! ## Writing bytes does not fault -/

namespace Memory

theorem fault_writeBlock {vs : List Int} (h : ∀ v ∈ vs, 0 ≤ v ∧ v < 256) (a : Int) (m : Memory) :
    (writeBlock a vs m).fault = none := by
  induction vs generalizing a m with
  | nil => rfl
  | cons v vs ih =>
    rw [writeBlock, write, byte?_of_range (h v (by simp))]
    exact ih (fun w hw => h w (by simp [hw])) _ _

end Memory

namespace Machine

variable {m : Machine}

theorem decimalDigits_range {v : Int} (h : 0 ≤ v ∧ v < 256) :
    ∀ d ∈ decimalDigits v, 0 ≤ d ∧ d < 256 := by
  intro d hd
  simp only [decimalDigits, List.mem_cons, List.not_mem_nil, or_false] at hd
  rcases hd with rfl | rfl | rfl <;> omega

namespace WellFormed

theorem registersUpTo_range (h : m.WellFormed) (last : Register) :
    ∀ v ∈ m.registersUpTo last, 0 ≤ v ∧ v < 256 := by
  intro v hv
  obtain ⟨i, hi, rfl⟩ := List.mem_iff_getElem.mp (List.mem_of_mem_take hv)
  rw [Vector.length_toList] at hi
  exact h.registers ⟨i, hi⟩

end WellFormed

/-! ## One instruction -/

/-- An instruction that the stack has a fault for, and the fault. -/
inductive StackFault (m : Machine) : Instruction → Fault → Prop
  | overflow (target : Fin 4096) (full : m.stack.pointer = 16) :
      StackFault m (.call target) .stackOverflow
  | underflow (empty : m.stack.pointer = 0) : StackFault m .ret .stackUnderflow

/-- A fault of the stack is found before anything is changed. -/
theorem execute_of_stackFault {i : Instruction} {f : Fault} (h : m.StackFault i f) :
    m.execute i = .cut m f := by
  cases h with
  | overflow target full =>
    have pushed : m.stack.push m.pc = .cut m.stack .stackOverflow :=
      dif_neg (by rw [full]; decide)
    simp only [execute, pushed]
    rfl
  | underflow empty =>
    have popped : m.stack.pop? = none := dif_pos (by rw [empty]; rfl)
    simp only [execute, popped]

/-- The stack is the only thing that an instruction of a well-formed machine faults on. -/
theorem stackFault_of_fault (h : m.WellFormed) {i : Instruction} {f : Fault}
    (hf : (m.execute i).fault = some f) : m.StackFault i f := by
  cases i with
  | ret =>
    by_cases hp : m.stack.pointer = 0
    · rw [execute_of_stackFault (.underflow hp)] at hf
      cases hf
      exact .underflow hp
    · have taken : m.stack.pop? ≠ none := by
        rw [ne_eq, CallStack.pop?_eq_none_iff, ← List.length_eq_zero_iff, CallStack.length_live]
        exact fun hz => hp (Fin.ext hz)
      obtain ⟨top, ht⟩ := Option.ne_none_iff_exists'.mp taken
      simp only [execute, ht, Outcome.fault_done] at hf
      exact absurd hf (by simp)
  | call target =>
    by_cases hp : m.stack.pointer = 16
    · rw [execute_of_stackFault (.overflow target hp)] at hf
      cases hf
      exact .overflow target hp
    · have room : m.stack.pointer.val < 16 := by
        have := m.stack.pointer.isLt
        have : m.stack.pointer.val ≠ 16 := fun hs => hp (Fin.ext hs)
        omega
      -- a push with room has no fault to hand on
      have pushed := (CallStack.live_push (a := m.pc) room).1
      simp only [execute] at hf
      cases hs : m.stack.push m.pc with
      | mk stack fault =>
        rw [hs] at pushed hf
        cases pushed
        exact absurd hf (by simp)
  | awaitKey x =>
    simp only [execute] at hf
    cases hk : m.keypad.first? with
    | none =>
      rw [hk] at hf
      exact absurd hf (by simp)
    | some key =>
      rw [hk] at hf
      exact absurd hf (by simp)
  | writeDecimal x =>
    have written := Memory.fault_writeBlock (decimalDigits_range (h.registers x)) m.index m.memory
    exact absurd (written.symm.trans hf) (by simp)
  | save last =>
    have written : (m.writeAtIndex (m.registersUpTo last)).fault = none :=
      Memory.fault_writeBlock (h.registersUpTo_range last) _ _
    simp only [execute] at hf
    cases hw : m.writeAtIndex (m.registersUpTo last) with
    | mk m' fault =>
      rw [hw] at written hf
      cases written
      cases hf
  -- the others neither use the stack nor write to the memory
  | _ => exact absurd hf (by simp [execute])

end Machine

/-! ## One word -/

/-- What can go wrong when a word is carried out on a machine that is watched: a call on a full
stack or a return on an empty one, and then the program counter has moved on and nothing else has
happened, nor been told of. -/
structure OnlyStackFaults (t : Traced) (word : Int) (o : Outcome Traced) : Prop where
  fault_iff : ∀ f : Fault, o.fault = some f ↔
    (word % 65536 / 4096 = 2 ∧ t.machine.stack.pointer = 16 ∧ f = .stackOverflow) ∨
    (word % 65536 = 0x00EE ∧ t.machine.stack.pointer = 0 ∧ f = .stackUnderflow)
  state_eq : ∀ f : Fault, o.fault = some f →
    o.state = ⟨{ t.machine with pc := (t.machine.pc + 2) % 4096 }, t.log⟩

namespace Instruction

theorem decode?_call_iff {opcode : Int} :
    (∃ target, decode? opcode = some (call target)) ↔ opcode % 65536 / 4096 = 2 := by
  simp only [decode?_eq_some_iff, encode, withAddress]
  constructor
  · rintro ⟨target, h⟩
    omega
  · intro h
    exact ⟨⟨(opcode % 4096).toNat, by omega⟩, by dsimp only; omega⟩

theorem decode?_ret_iff {opcode : Int} : decode? opcode = some ret ↔ opcode % 65536 = 0x00EE :=
  decode?_eq_some_iff

end Instruction

namespace Machine

variable {m : Machine}

theorem fault_process_iff (h : m.WellFormed) {opcode : Int} {f : Fault} :
    (m.process opcode).fault = some f ↔
      ∃ i, Instruction.decode? opcode = some i ∧ m.advance.StackFault i f := by
  constructor
  · intro hf
    unfold process at hf
    cases hd : Instruction.decode? opcode with
    | none =>
      rw [hd] at hf
      exact absurd hf (by simp)
    | some i =>
      rw [hd] at hf
      exact ⟨i, rfl, stackFault_of_fault h.advance hf⟩
  · rintro ⟨i, hd, hs⟩
    rw [process_of_decode hd, execute_of_stackFault hs]
    rfl

end Machine

namespace Traced

theorem onlyStackFaults {t : Traced} (h : t.machine.WellFormed) (word : Int) :
    OnlyStackFaults t word (t.process word) := by
  have fault_eq : (t.process word).fault = (t.machine.process word).fault :=
    congrArg Outcome.fault (map_process word t)
  refine ⟨fun f => ?_, fun f hf => ?_⟩
  · rw [fault_eq, Machine.fault_process_iff h]
    constructor
    · rintro ⟨i, hd, hs⟩
      cases hs with
      | overflow target full => exact Or.inl ⟨Instruction.decode?_call_iff.mp ⟨_, hd⟩, full, rfl⟩
      | underflow empty => exact Or.inr ⟨Instruction.decode?_ret_iff.mp hd, empty, rfl⟩
    · rintro (⟨hw, full, rfl⟩ | ⟨hw, empty, rfl⟩)
      · obtain ⟨target, hd⟩ := Instruction.decode?_call_iff.mpr hw
        exact ⟨_, hd, .overflow target full⟩
      · exact ⟨_, Instruction.decode?_ret_iff.mpr hw, .underflow empty⟩
  · have log_eq := log_process_of_fault hf
    have machine_eq : (t.process word).state.machine = (t.machine.process word).state :=
      congrArg Outcome.state (map_process word t)
    rw [fault_eq, Machine.fault_process_iff h] at hf
    obtain ⟨i, hd, hs⟩ := hf
    rw [Machine.process_of_decode hd, Machine.execute_of_stackFault hs] at machine_eq
    exact congr (congrArg Traced.mk machine_eq) log_eq

/-- **The faults of a word**, whatever the word and whatever the machine holds; and those of a cycle
are the faults of the word that is fetched. -/
theorem process_stackFaults (t : Traced) (h : t.machine.WellFormed) (opcode : Int) :
    OnlyStackFaults t opcode (t.process opcode) ∧ OnlyStackFaults t t.machine.fetch t.cycle :=
  ⟨onlyStackFaults h opcode, onlyStackFaults h t.machine.fetch⟩

/-- A return on an empty stack from the last address, by a word with more than sixteen bits: the
program counter goes round, and no entry is added although the log would keep it. -/
theorem process_stackFaults_underflow :
    let m : Machine := { Machine.initial ⟨fun _ => 0, 0⟩ with pc := 0xFFF }
    let t : Traced := ⟨m, .empty .debug⟩
    m.WellFormed ∧ (t.process 0x100EE).fault = some .stackUnderflow
      ∧ (t.process 0x100EE).state = ⟨{ m with pc := 1 }, .empty .debug⟩ := by
  intro m t
  have h : m.WellFormed := (Machine.wellFormed_initial _).withPc (by decide)
  have faults := (process_stackFaults t h 0x100EE).1
  have hf : (t.process 0x100EE).fault = some .stackUnderflow :=
    (faults.fault_iff _).mpr (Or.inr ⟨by decide, rfl, rfl⟩)
  exact ⟨h, hf, faults.state_eq _ hf⟩

end Traced
end Chip8Vm
