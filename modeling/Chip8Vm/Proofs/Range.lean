import Chip8Vm.Proofs.Bytes
import Chip8Vm.Proofs.Loading
import Chip8Vm.Proofs.Moves

/-!
# Instructions keep the numbers of a machine in range

`Machine.WellFormed` is a property and no part of the type, so it has to be carried through every
instruction. Each number is held in range by something else: registers by the remainder that the
sums leave or by the bits of a mask, the index and the program counter by remainders too, and three
of them only by one another. A return address is in range because every slot of the stack is, a
register that is read from memory because memory holds bytes, and what is pushed because the program
counter was in range.

> **whatever the word, a well-formed machine is left well-formed** (`WellFormed.process`), whether
> it faults or not.
-/

set_option autoImplicit false

namespace Chip8Vm

/-! ## What the parts of a machine keep -/

namespace Memory

theorem read_range (m : Memory) (a : Int) :
    0 ≤ ((m.read a).toNat : Int) ∧ ((m.read a).toNat : Int) < 256 := by
  have := (m.read a).toNat_lt
  omega

theorem size_write (m : Memory) (a v : Int) : (m.write a v).state.bytes.size = m.bytes.size := by
  unfold write
  cases byte? v with
  | none => rfl
  | some b => exact size_put m a b

/-- Writing a block does not change the size, however far it comes. -/
theorem size_writeBlock (a : Int) (vs : List Int) (m : Memory) :
    (writeBlock a vs m).state.bytes.size = m.bytes.size := by
  induction vs generalizing a m with
  | nil => rfl
  | cons v vs ih =>
    rw [writeBlock]
    exact Outcome.andThen_keeps (P := fun m' => m'.bytes.size = m.bytes.size) (size_write m a v)
      fun m' hm' => (ih (a + 1) m').trans hm'

end Memory

namespace CallStack

/-- After a push every slot holds what it held, or the address. -/
theorem slots_push (a : Int) (s : CallStack) (i : Fin 16) :
    (s.push a).state.slots.get i = s.slots.get i ∨ (s.push a).state.slots.get i = a := by
  show (s.push a).state.slots[i] = s.slots[i] ∨ (s.push a).state.slots[i] = a
  unfold push
  by_cases h : s.pointer.val < 16
  · rw [dif_pos h, Outcome.state_done]
    simp only [Fin.getElem_fin, Vector.getElem_set]
    split
    · exact Or.inr rfl
    · exact Or.inl rfl
  · rw [dif_neg h]
    exact Or.inl rfl

/-- A pop takes its address from a slot and leaves the slots alone. -/
theorem slots_pop {s s' : CallStack} {a : Int} (h : s.pop? = some (a, s')) :
    s'.slots = s.slots ∧ ∃ i, s.slots.get i = a := by
  unfold pop? at h
  split at h
  · exact absurd h (by simp)
  · cases h
    exact ⟨rfl, ⟨s.pointer.val - 1, by omega⟩, rfl⟩

end CallStack

namespace Machine

theorem flagValue_range (flag : Bool) : 0 ≤ flagValue flag ∧ flagValue flag < 256 := by
  cases flag <;> decide

/-! ## Instructions -/

namespace WellFormed

variable {m : Machine}

theorem setRegister (h : m.WellFormed) (x : Register) {v : Int} (hv : 0 ≤ v ∧ v < 256) :
    (m.setRegister x v).WellFormed :=
  { h with
    registers := fun y => by
      rw [register_setRegister]
      split
      · exact hv
      · exact h.registers y }

theorem withPc (h : m.WellFormed) {a : Int} (ha : 0 ≤ a ∧ a < 4096) :
    { m with pc := a }.WellFormed :=
  { h with pc := ha }

theorem withIndex (h : m.WellFormed) {a : Int} (ha : 0 ≤ a ∧ a < 65536) :
    { m with index := a }.WellFormed :=
  { h with index := ha }

theorem withRegisters (h : m.WellFormed) {f : Register → Int} (hf : ∀ x, 0 ≤ f x ∧ f x < 256) :
    { m with registers := Vector.ofFn f }.WellFormed :=
  { h with
    registers := fun x => by
      rw [register, Fin.getElem_fin, Vector.getElem_ofFn]
      exact hf x }

theorem advance (h : m.WellFormed) : m.advance.WellFormed :=
  h.withPc (by omega)

theorem skipBlock (h : m.WellFormed) (last : Register) : (m.skipBlock last).WellFormed :=
  h.withIndex (by omega)

theorem writeAtIndex (h : m.WellFormed) (vs : List Int) :
    (m.writeAtIndex vs).state.WellFormed :=
  { h with memory := (Memory.size_writeBlock m.index vs m.memory).trans h.memory }

theorem setThenFlag (h : m.WellFormed) (x : Register) {v : Int} (hv : 0 ≤ v ∧ v < 256)
    (flag : Bool) : (m.setThenFlag x v flag).WellFormed :=
  (h.setRegister x hv).setRegister flagRegister (flagValue_range flag)

theorem flagThenSet (h : m.WellFormed) (x : Register) {v bit : Int} (hv : 0 ≤ v ∧ v < 256)
    (hb : 0 ≤ bit ∧ bit < 256) : (m.flagThenSet x v bit).WellFormed :=
  (h.setRegister flagRegister hb).setRegister x hv

theorem combine (h : m.WellFormed) (op : Operation) (x y : Register) :
    (m.combine op x y).WellFormed := by
  have hx := h.registers x
  have hy := h.registers y
  cases op with
  | copy => exact h.setRegister x hy
  | or => exact h.setRegister x (Number.lor_range hx hy)
  | and => exact h.setRegister x (Number.land_range _ hy)
  | xor => exact h.setRegister x (Number.lxor_range hx hy)
  | add => exact h.setThenFlag x (by omega) _
  | sub => exact h.setThenFlag x (by omega) _
  | shiftRight => exact h.flagThenSet x (by omega) (by omega)
  | subFrom => exact h.setThenFlag x (by omega) _
  | shiftLeft => exact h.flagThenSet x (by omega) (by omega)

/-- The stack after a call, whether there was room for the address or not. -/
theorem push (h : m.WellFormed) (i : Fin 16) :
    0 ≤ (m.stack.push m.pc).state.slots.get i ∧ (m.stack.push m.pc).state.slots.get i < 4096 := by
  rcases CallStack.slots_push m.pc m.stack i with hs | hs
  · rw [hs]
    exact h.stack i
  · rw [hs]
    exact h.pc

/-- **Every instruction keeps a machine well-formed**, and a fault leaves it so too. -/
theorem execute (h : m.WellFormed) (i : Instruction) : (m.execute i).state.WellFormed := by
  cases i with
  | clear => exact { h with }
  | ret =>
    cases hp : m.stack.pop? with
    | none =>
      simp only [Machine.execute, hp]
      exact h
    | some top =>
      -- the address is what some slot holds, and the slots stay
      obtain ⟨same, i, hi⟩ := CallStack.slots_pop hp
      simp only [Machine.execute, hp]
      refine { h.withPc (a := top.1) (hi ▸ h.stack i) with stack := fun j => ?_ }
      rw [Outcome.state_done, same]
      exact h.stack j
  | jump target => exact h.withPc (by omega)
  | call target =>
    have pushed := h.push
    cases hp : m.stack.push m.pc with
    | mk stack fault =>
      rw [hp] at pushed
      simp only [Machine.execute, hp]
      cases fault with
      | none => exact { h.withPc (a := target.val) (by omega) with stack := pushed }
      | some f => exact h
  | skip test wanted =>
    simp only [Machine.execute, Outcome.state_done]
    split
    · exact h.advance
    · exact h
  | assign x value => exact h.setRegister x (by omega)
  | increase x value => exact h.setRegister x (by omega)
  | combine op x y => exact h.combine op x y
  | point address => exact h.withIndex (by omega)
  | jumpBy base => exact h.withPc (by omega)
  | random x mask =>
    exact { h.setRegister x (Number.land_range m.random.next (m := mask.val) (by omega)) with }
  | draw x y height =>
    exact { h.setRegister flagRegister (flagValue_range _) with }
  | readDelay x => exact h.setRegister x h.delay
  | awaitKey x =>
    simp only [Machine.execute]
    cases m.keypad.first? with
    | none => exact { h.withPc (a := m.previousAddress) (by unfold previousAddress; omega) with }
    | some key => exact { h.setRegister x (v := key.val) (by omega) with }
  | startDelay x => exact { h with delay := h.registers x }
  | startSound x => exact { h with sound := h.registers x }
  | movePointer x => exact h.withIndex (by omega)
  | pointToGlyph x => exact h.withIndex (by unfold fontStart glyphSize; omega)
  | writeDecimal x => exact h.writeAtIndex _
  | save last =>
    exact Outcome.andThen_keeps (P := WellFormed) (h.writeAtIndex _) fun _ hm => hm.skipBlock last
  | restore last =>
    -- a register holds a byte from the memory, or what it held before
    refine (h.withRegisters fun x => ?_).skipBlock last
    split
    · exact Memory.read_range m.memory _
    · exact h.registers x

theorem process (h : m.WellFormed) (opcode : Int) : (m.process opcode).state.WellFormed := by
  unfold Machine.process
  cases Instruction.decode? opcode with
  | none => exact h.advance
  | some i => exact h.advance.execute i

/-! ## Moves and images -/

theorem tick (h : m.WellFormed) : m.tick.WellFormed := by
  have down : ∀ timer : Int, 0 ≤ timer ∧ timer < 256 →
      0 ≤ countDown timer ∧ countDown timer < 256 := by
    intro timer ht
    unfold countDown
    split <;> omega
  exact { h with delay := down m.delay h.delay, sound := down m.sound h.sound }

theorem move (h : m.WellFormed) (move : Move) : (move.run m).state.WellFormed := by
  cases move with
  | cycle => exact h.process _
  | tick => exact h.tick
  | press k =>
    simp only [Move.run]
    cases Keypad.key? k with
    | none => exact h
    | some key => exact { h with }
  | release k =>
    simp only [Move.run]
    cases Keypad.key? k with
    | none => exact h
    | some key => exact { h with }
  | releaseAll => exact { h with }

theorem moves (h : m.WellFormed) (moves : List Move) :
    (Outcome.each Move.run moves m).state.WellFormed :=
  Outcome.each_keeps (fun move _ hm => hm.move move) h

/-- An image that is loaded lies above its start and inside the memory, so that it lengthens
nothing; one that is refused changes nothing. -/
theorem loadImage (h : m.WellFormed) (image : List Int) :
    (m.loadImage image).state.WellFormed := by
  unfold Machine.loadImage
  cases hi : imageFault? image.length with
  | some fault => exact h
  | none =>
    have fits : image.length ≤ 3584 := (imageFault?_eq_none_iff.mp hi).2
    dsimp only
    rw [Outcome.state_map, Memory.load]
    cases hb : image.mapM byte? with
    | none => exact h
    | some run =>
      have length : run.length = image.length := by
        rw [eq_of_mapM_byte? hb, List.length_map]
      refine { h with memory := ?_ }
      rw [← h.memory]
      exact Memory.size_splice (by decide) (by rw [h.memory, length, imageStart]; omega)

end WellFormed

end Machine
end Chip8Vm
