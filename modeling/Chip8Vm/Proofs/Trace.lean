import Chip8Vm.Log
import Chip8Vm.Proofs.Assembly
import Chip8Vm.Proofs.Range

/-!
# The trace

A log that keeps everything has one line for each word that was carried out to its end. The line
says where the word was fetched from and what the instruction is, and it says so whatever the
instruction did to the program counter, for the address is taken before the instruction is executed.

> **a line tells the address and the word** (`process_traced`): no two addresses and no two words
> that mean something have the same line.
-/

set_option autoImplicit false

namespace Chip8Vm

namespace Entry

theorem line_executed (address : Int) (i : Instruction) : (executed address i).line
    = "DEBUG chip8: mem_addr: 0x" ++ Number.hex 4 address ++ "    instruction: " ++ i.text := by
  have front : "DEBUG" ++ " " ++ "chip8" ++ ": " ++ "mem_addr: 0x"
      = "DEBUG chip8: mem_addr: 0x" := by simp
  show "DEBUG" ++ " " ++ "chip8" ++ ": "
    ++ ("mem_addr: 0x" ++ Number.hex 4 address ++ "    instruction: " ++ i.text) = _
  rw [← front]
  simp only [String.append_assoc]

theorem line_passedOver (address opcode : Int) : (passedOver address opcode).line
    = "WARNING chip8: mem_addr: 0x" ++ Number.hex 4 address ++ "    unknown instruction: 0x"
      ++ Number.hex 4 opcode ++ ", skipped" := by
  have front : "WARNING" ++ " " ++ "chip8" ++ ": " ++ "mem_addr: 0x"
      = "WARNING chip8: mem_addr: 0x" := by simp
  show "WARNING" ++ " " ++ "chip8" ++ ": " ++ ("mem_addr: 0x" ++ Number.hex 4 address
    ++ "    unknown instruction: 0x" ++ Number.hex 4 opcode ++ ", skipped") = _
  rw [← front]
  simp only [String.append_assoc]

/-- A line says what was executed and where. -/
theorem executed_inj_of_line {address address' : Int} {i i' : Instruction}
    (range : 0 ≤ address ∧ address < 4096) (range' : 0 ≤ address' ∧ address' < 4096)
    (h : (executed address i).line = (executed address' i').line) :
    address = address' ∧ i = i' := by
  obtain ⟨a, rfl⟩ := Int.eq_ofNat_of_zero_le range.1
  obtain ⟨a', rfl⟩ := Int.eq_ofNat_of_zero_le range'.1
  have chars := congrArg String.toList h
  simp only [line_executed, String.toList_append, Number.toList_hex, List.append_assoc] at chars
  -- in front of the address there is always the same, and the address has four digits
  have tail := List.append_cancel_left chars
  have digits : (Number.hexDigits 4 a).length = (Number.hexDigits 4 a').length := by
    rw [Number.length_hexDigits (by decide) (by omega),
      Number.length_hexDigits (by decide) (by omega)]
  obtain ⟨address, rest⟩ := List.append_inj tail digits
  have text := String.toList_inj.mp (List.append_cancel_left rest)
  have same : a = a' := by rw [← Number.value_hexDigits 4 a, address, Number.value_hexDigits]
  exact ⟨congrArg Nat.cast same, Instruction.text_injective text⟩

end Entry

namespace Log

/-- A log of everything gets a line for every entry. -/
theorem lines_add_of_debug {log : Log} (on : log.threshold = .debug) (e : Entry) :
    (log.add e).lines = log.lines ++ [e.line] := by
  have kept : log.keeps e.level = true := by
    unfold keeps
    rw [on]
    exact decide_eq_true (Nat.zero_le _)
  rw [lines_add, if_pos kept]

end Log

namespace Instruction

/-- Two words that mean something have the same text exactly when they are the same word. -/
theorem text_eq_iff {c d : Int} {i j : Instruction} (hi : decode? c = some i)
    (hj : decode? d = some j) : i.text = j.text ↔ c % 65536 = d % 65536 := by
  have word := decode?_eq_some_iff.mp hi
  constructor
  · intro same
    rw [word, decode?_eq_some_iff.mp hj, text_injective same]
  · intro same
    have again : decode? d = some i := decode?_eq_some_iff.mpr (same ▸ word)
    rw [Option.some_inj.mp (again.symm.trans hj)]

end Instruction

namespace Traced

/-- **The trace is a faithful disassembly.** With a log that keeps everything, a word that is cut
short leaves no line, and any other leaves one: of the instruction that it means, or of a word
without a meaning. The address in the line is that from which the word was fetched, wherever the
program counter is now. The text of an instruction tells the low sixteen bits of the word and
nothing of the machine, and a line tells the address too. -/
theorem process_traced (t : Traced) (h : t.machine.WellFormed) (on : t.log.threshold = .debug)
    (opcode : Int) :
    let told := (t.process opcode).state.log.lines
    ((t.process opcode).fault ≠ none → told = t.log.lines) ∧
    (∀ i, Instruction.decode? opcode = some i → (t.process opcode).fault = none →
      told = t.log.lines ++ ["DEBUG chip8: mem_addr: 0x" ++ Number.hex 4 t.machine.pc
        ++ "    instruction: " ++ i.text]) ∧
    (Instruction.decode? opcode = none → (t.process opcode).fault = none ∧
      told = t.log.lines ++ ["WARNING chip8: mem_addr: 0x" ++ Number.hex 4 t.machine.pc
        ++ "    unknown instruction: 0x" ++ Number.hex 4 opcode ++ ", skipped"]) ∧
    ∀ c d i j, Instruction.decode? c = some i → Instruction.decode? d = some j →
      (i.text = j.text ↔ c % 65536 = d % 65536) ∧
      ∀ m : Machine, m.WellFormed →
        "DEBUG chip8: mem_addr: 0x" ++ Number.hex 4 t.machine.pc ++ "    instruction: " ++ i.text
          = "DEBUG chip8: mem_addr: 0x" ++ Number.hex 4 m.pc ++ "    instruction: " ++ j.text →
        t.machine.pc = m.pc ∧ c % 65536 = d % 65536 := by
  intro told
  refine ⟨fun hf => ?_, fun i hd hf => ?_, fun hd => ?_, fun c d i j hi hj => ?_⟩
  · obtain ⟨f, hf⟩ := Option.ne_none_iff_exists'.mp hf
    exact congrArg Log.lines (log_process_of_fault hf)
  · have done : t.machine.process opcode = .done (t.machine.process opcode).state := by
      rw [← map_process]
      exact congrArg (Outcome.mk _) hf
    rw [← Entry.line_executed, ← Log.lines_add_of_debug on]
    exact congrArg (·.state.log.lines) (process_of_done h.pc hd done)
  · rw [← Entry.line_passedOver, ← Log.lines_add_of_debug on]
    have passed := process_of_none h.pc hd
    exact ⟨congrArg Outcome.fault passed, congrArg (·.state.log.lines) passed⟩
  · refine ⟨Instruction.text_eq_iff hi hj, fun m hm same => ?_⟩
    rw [← Entry.line_executed, ← Entry.line_executed] at same
    obtain ⟨address, rfl⟩ := Entry.executed_inj_of_line h.pc hm.pc same
    exact ⟨address, (Instruction.text_eq_iff hi hj).mp rfl⟩

/-- A jump from the last address but one, whose text is not that of a jump past a register, a return
that finds nothing to return to, and a word without a meaning. -/
theorem process_traced_jump :
    let m : Machine := { Machine.initial ⟨fun _ => 0, 0⟩ with pc := 0xFFE }
    let t : Traced := ⟨m, .empty .debug⟩
    m.WellFormed
      ∧ (t.process 0x1ABC).state.log.lines
        = ["DEBUG chip8: mem_addr: 0x0ffe    instruction: JP 0x0abc"]
      ∧ (Instruction.jump 0xABC).text ≠ (Instruction.jumpBy 0xABC).text
      ∧ (t.process 0x00EE).state.log.lines = []
      ∧ (t.process 0x0ABC).state.log.lines
        = ["WARNING chip8: mem_addr: 0x0ffe    unknown instruction: 0x0abc, skipped"] := by
  intro m t
  have h : m.WellFormed :=
    (Machine.wellFormed_initial ⟨fun _ => 0, 0⟩).withPc (a := 0xFFE) (by decide)
  have jump : Instruction.decode? 0x1ABC = some (.jump 0xABC) := by decide
  have plus : Instruction.decode? (0xBABC - 0x10000) = some (.jumpBy 0xABC) := by decide
  obtain ⟨-, executed, -, texts⟩ := process_traced t h rfl 0x1ABC
  obtain ⟨faulted, -⟩ := process_traced t h rfl 0x00EE
  obtain ⟨-, -, passed, -⟩ := process_traced t h rfl 0x0ABC
  have apart : (Instruction.jump 0xABC).text ≠ (Instruction.jumpBy 0xABC).text := fun same =>
    absurd ((texts _ _ _ _ jump plus).1.mp same) (by decide)
  refine ⟨h, (executed _ jump rfl).trans ?_, apart, faulted (by decide),
    (passed (by decide)).2.trans ?_⟩
  · decide +kernel
  · decide +kernel

end Traced
end Chip8Vm
