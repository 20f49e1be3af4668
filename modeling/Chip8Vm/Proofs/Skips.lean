import Chip8Vm.Proofs.Process

/-!
# Skips

The six words that skip come in pairs. The two of a pair ask the same of the machine, and one of
them leaves out the next instruction if the answer is yes, the other if it is no.

> **So from any state exactly one of the two skips, and neither does anything else**
> (`process_skips`).

What is asked is said here without the machine's own way of finding out (`SkipTest.Asks`): it is a
matter of numbers, and of the one key that a register means, whatever the register holds.
-/

set_option autoImplicit false

namespace Chip8Vm

namespace SkipTest

/-- What a test asks of a machine. -/
def Asks (m : Machine) : SkipTest → Prop
  | byte x value => m.register x = value.val
  | register x y => m.register x = m.register y
  | key x => ∃ k : Fin 16, k.val = m.register x % 16 ∧ k ∈ m.keypad.keysDown

/-- The word that skips if the answer to a test is the one that is wanted. -/
def word : (wanted : Bool) → SkipTest → Int
  | true, byte x value => 0x3000 + x.val * 256 + value.val
  | false, byte x value => 0x4000 + x.val * 256 + value.val
  | true, register x y => 0x5000 + x.val * 256 + y.val * 16
  | false, register x y => 0x9000 + x.val * 256 + y.val * 16
  | true, key x => 0xE09E + x.val * 256
  | false, key x => 0xE0A1 + x.val * 256

theorem word_eq_encode (wanted : Bool) (test : SkipTest) :
    test.word wanted = (Instruction.skip test wanted).encode := by
  cases test with
  | byte x value =>
    cases wanted <;> simp only [word, Instruction.encode, Instruction.withByte] <;> omega
  | register x y =>
    cases wanted <;> simp only [word, Instruction.encode, Instruction.nibbles] <;> omega
  | key x =>
    cases wanted <;> simp only [word, Instruction.encode, Instruction.withByte] <;> omega

end SkipTest

namespace Machine

theorem holds_iff (m : Machine) (test : SkipTest) : m.holds test = true ↔ test.Asks m := by
  cases test with
  | byte x value => exact beq_iff_eq
  | register x y => exact beq_iff_eq
  | key x =>
    have meant : ((Keypad.keyOf (m.register x)).val : Int) = m.register x % 16 := by
      show (((m.register x % 16).toNat : Nat) : Int) = _
      omega
    have listed : Keypad.keyOf (m.register x) ∈ m.keypad.keysDown ↔
        m.keypad.isDown (m.register x) = true :=
      List.mem_filter.trans (and_iff_right (List.mem_finRange _))
    constructor
    · intro down
      exact ⟨Keypad.keyOf (m.register x), meant, listed.mpr down⟩
    · rintro ⟨k, same, down⟩
      obtain rfl : Keypad.keyOf (m.register x) = k := by omega
      exact listed.mp down

/-- A skip moves the program counter on by one instruction, or by two if the answer is the one that
is wanted. The counter goes round twice at most, and that is as good as once. -/
theorem execute_skip (m : Machine) (test : SkipTest) (wanted : Bool) :
    m.advance.execute (.skip test wanted)
      = .done { m with pc := (m.pc + if m.holds test = wanted then 4 else 2) % 4096 } := by
  have same : m.advance.holds test = m.holds test := by
    cases test <;> rfl
  rw [execute, same]
  by_cases answered : m.holds test = wanted
  · have twice : ((m.pc + 2) % 4096 + 2) % 4096 = (m.pc + 4) % 4096 := by omega
    rw [if_pos answered, if_pos answered, ← twice]
    rfl
  · rw [if_neg answered, if_neg answered]
    rfl

end Machine

/-- **Of the two words of a pair one skips and the other does not**, in whatever state the machine
is: the first skips if what is asked is so, and the second if it is not. Nothing but the program
counter changes. -/
theorem Traced.process_skips (t : Traced) (test : SkipTest) :
    let m := t.machine
    let ifSo := (t.process (test.word true)).map machine
    let ifNot := (t.process (test.word false)).map machine
    (test.Asks m →
      ifSo = .done { m with pc := (m.pc + 4) % 4096 } ∧
      ifNot = .done { m with pc := (m.pc + 2) % 4096 }) ∧
    (¬test.Asks m →
      ifSo = .done { m with pc := (m.pc + 2) % 4096 } ∧
      ifNot = .done { m with pc := (m.pc + 4) % 4096 }) := by
  intro m ifSo ifNot
  have skips : ∀ wanted, (t.process (test.word wanted)).map machine
      = .done { m with pc := (m.pc + if m.holds test = wanted then 4 else 2) % 4096 } := by
    intro wanted
    rw [map_process_encode (test.word_eq_encode wanted)]
    exact m.execute_skip test wanted
  constructor
  · intro asked
    have yes : m.holds test = true := (m.holds_iff test).mpr asked
    constructor
    · exact (skips true).trans (by rw [yes, if_pos rfl])
    · exact (skips false).trans (by rw [yes, if_neg (by decide)])
  · intro refuted
    have no : m.holds test = false := Bool.eq_false_iff.mpr (mt (m.holds_iff test).mp refuted)
    constructor
    · exact (skips true).trans (by rw [no, if_neg (by decide)])
    · exact (skips false).trans (by rw [no, if_pos rfl])

/-- A register that means the highest key, which is down, and a skip over the last cell. -/
theorem Traced.process_skips_round :
    let m : Machine := { (Machine.initial ⟨fun _ => 0, 0⟩).setRegister 3 0xFF with
      pc := 0xFFE, keypad := Keypad.released.press 15 }
    let t : Traced := ⟨m, .empty .debug⟩
    (t.process 0xE39E).state.machine.pc = 2 ∧ (t.process 0xE3A1).state.machine.pc = 0 := by
  intro m t
  have asked : SkipTest.Asks m (.key 3) := ⟨15, by decide, by decide⟩
  obtain ⟨ifSo, ifNot⟩ := (process_skips t (.key 3)).1 asked
  exact ⟨congrArg (fun o => o.state.pc) ifSo, congrArg (fun o => o.state.pc) ifNot⟩

end Chip8Vm
