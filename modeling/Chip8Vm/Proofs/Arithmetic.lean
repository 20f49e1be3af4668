import Chip8Vm.Proofs.Ownership

/-!
# Sums, differences and shifts

An operation whose result does not fit into a byte leaves the rest in the register of flags, and the
two together say what the exact result was (`Operation.Accounts`): nothing is lost. That can only be
said while they are in two registers. Where the result belongs into the register of flags itself,
the later write wins, and which one is later is not the same for all of them: sums and differences
leave the flag there, shifts the result (`Operation.Leaves`).

> **This covers all the ways in which the registers of a word may coincide** (`process_exact`). The
> operands are those from before, although one of them may be where the flag goes.
-/

set_option autoImplicit false

namespace Chip8Vm

namespace Machine

theorem flagValue_decide (p : Prop) [Decidable p] : flagValue (decide p) = if p then 1 else 0 := by
  by_cases hp : p
  · rw [if_pos hp, decide_eq_true hp]
    rfl
  · rw [if_neg hp, decide_eq_false hp]
    rfl

theorem flagValue_cases (flag : Bool) : flagValue flag = 0 ∨ flagValue flag = 1 := by
  cases flag with
  | false => exact Or.inl rfl
  | true => exact Or.inr rfl

end Machine

/-! ## Numbers -/

namespace Operation

open Machine (flagValue flagValue_decide)

/-- What the result and the flag of an operation say of its operands. -/
def Accounts (op : Operation) (a b result flag : Int) : Prop :=
  match op with
  | copy => result = b
  | or => result = (a.toNat ||| b.toNat : Nat)
  | and => result = (a.toNat &&& b.toNat : Nat)
  | xor => result = (a.toNat ^^^ b.toNat : Nat)
  | add => 256 * flag + result = a + b
  | sub => result = a - b + 256 * (1 - flag)
  | shiftRight => 2 * result + flag = b
  | subFrom => result = b - a + 256 * (1 - flag)
  | shiftLeft => 256 * flag + result = 2 * b

/-- What an operation leaves in the register of flags if its result belongs there. -/
def Leaves (op : Operation) (a b value : Int) : Prop :=
  match op with
  | copy => value = b
  | or => value = (a.toNat ||| b.toNat : Nat)
  | and => value = (a.toNat &&& b.toNat : Nat)
  | xor => value = (a.toNat ^^^ b.toNat : Nat)
  | add => value = if 255 < a + b then 1 else 0
  | sub => value = if b ≤ a then 1 else 0
  | shiftRight => value = b / 2
  | subFrom => value = if a ≤ b then 1 else 0
  | shiftLeft => value = 2 * b % 256

variable {a b : Int}

theorem accounts_add (ha : 0 ≤ a ∧ a < 256) (hb : 0 ≤ b ∧ b < 256) :
    add.Accounts a b ((a + b) % 256) (flagValue (255 < a + b)) := by
  show 256 * flagValue _ + _ = _
  rw [flagValue_decide]
  split <;> omega

theorem accounts_sub (ha : 0 ≤ a ∧ a < 256) (hb : 0 ≤ b ∧ b < 256) :
    sub.Accounts a b ((a - b) % 256) (flagValue (b ≤ a)) := by
  show _ = a - b + 256 * (1 - flagValue _)
  rw [flagValue_decide]
  split <;> omega

theorem accounts_shiftRight (a b : Int) : shiftRight.Accounts a b (b / 2) (b % 2) := by
  show 2 * _ + _ = _
  omega

theorem accounts_shiftLeft (a b : Int) : shiftLeft.Accounts a b (b * 2 % 256) (b / 128) := by
  show 256 * _ + _ = _
  omega

theorem leaves_shiftLeft (a b : Int) : shiftLeft.Leaves a b (b * 2 % 256) := by
  show _ = 2 * b % 256
  rw [Int.mul_comm]

theorem connectives_of_bytes (ha : 0 ≤ a ∧ a < 256) (hb : 0 ≤ b ∧ b < 256) :
    Number.lor a b = (a.toNat ||| b.toNat : Nat) ∧ Number.land a b = (a.toNat &&& b.toNat : Nat)
      ∧ Number.lxor a b = (a.toNat ^^^ b.toNat : Nat) := by
  obtain ⟨i, rfl⟩ := Int.eq_ofNat_of_zero_le ha.1
  obtain ⟨j, rfl⟩ := Int.eq_ofNat_of_zero_le hb.1
  exact ⟨rfl, rfl, rfl⟩

end Operation

namespace Machine

variable {m : Machine} {op : Operation} {x y : Register}

/-! ## Two registers written -/

theorem register_setThenFlag (m : Machine) (x z : Register) (v : Int) (flag : Bool) :
    (m.setThenFlag x v flag).register z
      = if flagRegister = z then flagValue flag else if x = z then v else m.register z := by
  rw [setThenFlag, register_setRegister, register_setRegister]

theorem register_flagThenSet (m : Machine) (x z : Register) (v bit : Int) :
    (m.flagThenSet x v bit).register z
      = if x = z then v else if flagRegister = z then bit else m.register z := by
  rw [flagThenSet, register_setRegister, register_setRegister]

/-! ## What an operation does -/

/-- What combining two registers has done to a machine. -/
structure Combined (m : Machine) (op : Operation) (x y : Register) (o : Outcome Machine) :
    Prop where
  /-- Result and flag, where they are apart. -/
  accounts : x ≠ flagRegister → op.Accounts (m.register x) (m.register y)
    (o.state.register x) (o.state.register flagRegister)
  flag : x ≠ flagRegister → op.setsFlag = true →
    o.state.register flagRegister = 0 ∨ o.state.register flagRegister = 1
  /-- What is left of them, where they are not. -/
  leaves : x = flagRegister →
    op.Leaves (m.register x) (m.register y) (o.state.register flagRegister)
  others : ∀ z ≠ x, (z = flagRegister → op.setsFlag = false) → o.state.register z = m.register z
  range : ∀ z, 0 ≤ o.state.register z ∧ o.state.register z < 256
  rest : o = .done { m with pc := (m.pc + 2) % 4096, registers := o.state.registers }

/-- What adding a byte to a register has done to a machine. -/
structure Increased (m : Machine) (x : Register) (byte : Fin 256) (o : Outcome Machine) : Prop where
  sum : o.state.register x = (m.register x + byte.val) % 256
  others : ∀ z ≠ x, o.state.register z = m.register z
  range : ∀ z, 0 ≤ o.state.register z ∧ o.state.register z < 256
  rest : o = .done { m with pc := (m.pc + 2) % 4096, registers := o.state.registers }

/-- An operation that writes its result and no flag. -/
theorem combined_of_setRegister (h : m.WellFormed) {v : Int} (hv : 0 ≤ v ∧ v < 256)
    (silent : op.setsFlag = false)
    (accounts : ∀ flag, op.Accounts (m.register x) (m.register y) v flag)
    (leaves : op.Leaves (m.register x) (m.register y) v) :
    m.Combined op x y (.done (m.advance.setRegister x v)) := by
  have register : ∀ z, (m.advance.setRegister x v).register z = if x = z then v else m.register z :=
    fun z => register_setRegister m.advance x z v
  constructor
  · intro _
    rw [Outcome.state_done, register x, if_pos rfl]
    exact accounts _
  · intro _ sets
    rw [silent] at sets
    cases sets
  · rintro rfl
    rw [Outcome.state_done, register, if_pos rfl]
    exact leaves
  · intro z hz _
    rw [Outcome.state_done, register, if_neg hz.symm]
  · exact (h.advance.setRegister x hv).registers
  · rfl

/-- An operation that writes its result and then the flag. -/
theorem combined_of_setThenFlag (h : m.WellFormed) {v : Int} {flag : Bool} (hv : 0 ≤ v ∧ v < 256)
    (sets : op.setsFlag = true)
    (accounts : op.Accounts (m.register x) (m.register y) v (flagValue flag))
    (leaves : op.Leaves (m.register x) (m.register y) (flagValue flag)) :
    m.Combined op x y (.done (m.advance.setThenFlag x v flag)) := by
  have register := fun z => register_setThenFlag m.advance x z v flag
  constructor
  · intro apart
    rw [Outcome.state_done, register x, register flagRegister, if_neg apart.symm, if_pos rfl,
      if_pos rfl]
    exact accounts
  · intro _ _
    rw [Outcome.state_done, register, if_pos rfl]
    exact flagValue_cases flag
  · intro _
    rw [Outcome.state_done, register, if_pos rfl]
    exact leaves
  · intro z hz silent
    have notFlag : flagRegister ≠ z := by
      intro hf
      rw [silent hf.symm] at sets
      cases sets
    rw [Outcome.state_done, register, if_neg notFlag, if_neg hz.symm, register_advance]
  · exact (h.advance.setThenFlag x hv flag).registers
  · rfl

/-- An operation that writes the bit it has shifted out and then its result. -/
theorem combined_of_flagThenSet (h : m.WellFormed) {v bit : Int} (hv : 0 ≤ v ∧ v < 256)
    (hbit : bit = 0 ∨ bit = 1) (sets : op.setsFlag = true)
    (accounts : op.Accounts (m.register x) (m.register y) v bit)
    (leaves : op.Leaves (m.register x) (m.register y) v) :
    m.Combined op x y (.done (m.advance.flagThenSet x v bit)) := by
  have register := fun z => register_flagThenSet m.advance x z v bit
  constructor
  · intro apart
    rw [Outcome.state_done, register x, register flagRegister, if_pos rfl, if_neg apart, if_pos rfl]
    exact accounts
  · intro apart _
    rw [Outcome.state_done, register, if_neg apart, if_pos rfl]
    exact hbit
  · rintro rfl
    rw [Outcome.state_done, register, if_pos rfl]
    exact leaves
  · intro z hz silent
    have notFlag : flagRegister ≠ z := by
      intro hf
      rw [silent hf.symm] at sets
      cases sets
    rw [Outcome.state_done, register, if_neg hz.symm, if_neg notFlag, register_advance]
  · exact (h.advance.flagThenSet x hv (by omega)).registers
  · rfl

/-- **Every operation is exact.** That the operands are bytes is needed: only of such is a borrow or
a bit that falls out never more than one. -/
theorem combined_execute (h : m.WellFormed) (op : Operation) (x y : Register) :
    m.Combined op x y (m.advance.execute (.combine op x y)) := by
  have hx := h.advance.registers x
  have hy := h.advance.registers y
  obtain ⟨or, and, xor⟩ := Operation.connectives_of_bytes hx hy
  cases op with
  | copy => exact combined_of_setRegister h hy rfl (fun _ => rfl) rfl
  | or => exact combined_of_setRegister h (Number.lor_range hx hy) rfl (fun _ => or) or
  | and => exact combined_of_setRegister h (Number.land_range _ hy) rfl (fun _ => and) and
  | xor => exact combined_of_setRegister h (Number.lxor_range hx hy) rfl (fun _ => xor) xor
  | add =>
    apply combined_of_setThenFlag h (by omega) rfl
    · exact Operation.accounts_add hx hy
    · exact flagValue_decide _
  | sub =>
    apply combined_of_setThenFlag h (by omega) rfl
    · exact Operation.accounts_sub hx hy
    · exact flagValue_decide _
  | subFrom =>
    apply combined_of_setThenFlag h (by omega) rfl
    · exact Operation.accounts_sub hy hx
    · exact flagValue_decide _
  | shiftRight =>
    apply combined_of_flagThenSet h (by omega) (by omega) rfl
    · exact Operation.accounts_shiftRight _ _
    · rfl
  | shiftLeft =>
    apply combined_of_flagThenSet h (by omega) (by omega) rfl
    · exact Operation.accounts_shiftLeft _ _
    · exact Operation.leaves_shiftLeft (m.register x) _

theorem increased_execute (h : m.WellFormed) (x : Register) (byte : Fin 256) :
    m.Increased x byte (m.advance.execute (.increase x byte)) := by
  have register : ∀ z, (m.advance.execute (.increase x byte)).state.register z
      = if x = z then (m.register x + byte.val) % 256 else m.register z :=
    fun z => register_setRegister m.advance x z _
  constructor
  · rw [register, if_pos rfl]
  · intro z hz
    rw [register, if_neg hz.symm]
  · exact (h.advance.execute (.increase x byte)).registers
  · rfl

end Machine

/-! ## Words -/

namespace Traced

/-- **A word of arithmetic**, whichever registers it names: what the nine operations on two
registers leave, and what adding a byte leaves. Nothing else of the machine changes. -/
theorem process_exact (t : Traced) (h : t.machine.WellFormed) (x : Register) :
    (∀ (op : Operation) (y : Register), t.machine.Combined op x y
      ((t.process (0x8000 + x.val * 256 + y.val * 16 + op.code)).map machine)) ∧
    ∀ byte : Fin 256, t.machine.Increased x byte
      ((t.process (0x7000 + x.val * 256 + byte.val)).map machine) := by
  constructor
  · intro op y
    have encoded : (0x8000 + x.val * 256 + y.val * 16 + op.code : Int)
        = (Instruction.combine op x y).encode := by
      rw [Instruction.encode, Instruction.nibbles]
      omega
    rw [map_process_encode encoded]
    exact Machine.combined_execute h op x y
  · intro byte
    have encoded : (0x7000 + x.val * 256 + byte.val : Int)
        = (Instruction.increase x byte).encode := by
      rw [Instruction.encode, Instruction.withByte]
      omega
    rw [map_process_encode encoded]
    exact Machine.increased_execute h x byte

/-- Words with the register of flags on both sides: a sum leaves the carry there and a shift the
result. A difference that only reads it takes the value from before. -/
theorem process_exact_aliased :
    let m : Machine := ((Machine.initial ⟨fun _ => 0, 0⟩).setRegister 15 200).setRegister 3 100
    let t : Traced := ⟨m, .empty .debug⟩
    m.WellFormed ∧ (t.process 0x8FF4).state.machine.register 15 = 1
      ∧ (t.process 0x8FFE).state.machine.register 15 = 144
      ∧ (t.process 0x83F5).state.machine.register 3 = 156
      ∧ (t.process 0x7F64).state.machine.register 15 = 44 := by
  intro m t
  have initial := Machine.wellFormed_initial ⟨fun _ => 0, 0⟩
  have h : m.WellFormed := (initial.setRegister 15 (by decide)).setRegister 3 (by decide)
  obtain ⟨combined, increased⟩ := process_exact t h 15
  have difference := (process_exact t h 3).1 .sub 15
  refine ⟨h, (combined .add 15).leaves rfl, (combined .shiftLeft 15).leaves rfl, ?_,
    (increased 0x64).sum⟩
  have accounts : (t.process 0x83F5).state.machine.register 3
      = 100 - 200 + 256 * (1 - (t.process 0x83F5).state.machine.register 15) :=
    difference.accounts (by decide)
  have flag : (t.process 0x83F5).state.machine.register 15 = 0
      ∨ (t.process 0x83F5).state.machine.register 15 = 1 := difference.flag (by decide) rfl
  have range : 0 ≤ (t.process 0x83F5).state.machine.register 3 := (difference.range 3).1
  omega

end Traced
end Chip8Vm
