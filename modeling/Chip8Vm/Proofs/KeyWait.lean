import Chip8Vm.Proofs.History
import Chip8Vm.Proofs.Ownership

/-!
# Waiting for a key

A machine that awaits a key does not stand still: every cycle moves on, carries out the same
instruction once more and moves back. `waiting` is what remembers it, and nothing in the step
function makes the two agree. That they do is an invariant of runs:

> **a register waits exactly when the latest cycle carried out an `awaitKey` with no key down**, and
> **then the word at the program counter is still that instruction** (`Awaiting`).

It is kept because the other moves touch neither the memory nor the program counter, and because no
other instruction is carried out in between that could write over the word.
-/

set_option autoImplicit false

namespace Chip8Vm

/-- The word of the instruction, with its register in the third digit. -/
theorem Instruction.encode_awaitKey (x : Register) :
    (awaitKey x).encode = 0xF00A ||| x.val <<< 8 := by
  revert x
  decide

namespace Machine

variable {m : Machine}

/-! ## What a cycle does to a wait -/

/-- No other instruction begins a wait or ends one. -/
theorem waiting_execute {i : Instruction} (hi : ∀ x, i ≠ .awaitKey x) :
    (m.execute i).state.waiting = m.waiting := by
  have unowned : ¬ i.Owns m.index .waiting := by
    cases i with
    | awaitKey x => exact absurd rfl (hi x)
    | _ => simp [Instruction.Owns]
  exact same_execute unowned

/-- A word that awaits no key leaves the wait as it was. -/
theorem waiting_cycle (hf : ∀ x : Register, m.fetch ≠ (Instruction.awaitKey x).encode) :
    m.cycle.state.waiting = m.waiting := by
  unfold cycle process
  cases hd : Instruction.decode? m.fetch with
  | none => rfl
  | some i =>
    refine waiting_execute fun x hx => hf x ?_
    rw [← hx]
    exact decode?_fetch.mp hd

/-- An `awaitKey` with no key down changes nothing but the wait. -/
theorem cycle_no_key (pc : 0 ≤ m.pc ∧ m.pc < 4096) {x : Register}
    (hf : m.fetch = (Instruction.awaitKey x).encode) (hk : m.keypad.first? = none) :
    m.cycle = .done { m with waiting := some x } := by
  have back : m.advance.previousAddress = m.pc := previousAddress_advance pc
  unfold cycle
  rw [process_of_decode (decode?_fetch.mpr hf)]
  simp only [execute, keypad_advance, hk, back]
  rfl

/-- An `awaitKey` with a key down takes the lowest and goes on. -/
theorem cycle_key {x : Register} {k : Fin 16} (hf : m.fetch = (Instruction.awaitKey x).encode)
    (hk : m.keypad.first? = some k) :
    m.cycle = .done { m.setRegister x k.val with pc := (m.pc + 2) % 4096, waiting := none } := by
  unfold cycle
  rw [process_of_decode (decode?_fetch.mpr hf)]
  simp only [execute, keypad_advance, hk]
  rfl

/-! ## The invariant -/

/-- What a wait has to do with the latest cycle, and with the word at the program counter. -/
structure Awaiting (m : Machine) (past : Past) : Prop where
  wellFormed : m.WellFormed
  waiting : ∀ x, m.waiting = some x ↔ ∃ before, past.lastCycle = some before ∧
    before.fetch = (Instruction.awaitKey x).encode ∧ before.keypad.first? = none
  fetch : ∀ x, m.waiting = some x → m.fetch = (Instruction.awaitKey x).encode

namespace Awaiting

/-- A machine that has not run waits for nothing. -/
theorem start (h : m.WellFormed) (hw : m.waiting = none) : m.Awaiting [] where
  wellFormed := h
  waiting x := by simp [hw]
  fetch x hx := absurd (hw.symm.trans hx) (by simp)

/-- Any other move leaves the wait, its word and the latest cycle as they were. -/
theorem idle {past : Past} {move : Move} (h : m.Awaiting past) (hm : move ≠ .cycle) :
    (move.run m).state.Awaiting (past ++ [(move, m)]) := by
  have hw : (move.run m).state.waiting = m.waiting := by
    rw [Move.run_idle hm]
    rfl
  have hf : (move.run m).state.fetch = m.fetch := by
    rw [Move.run_idle hm]
    rfl
  refine ⟨h.wellFormed.move move, fun x => ?_, fun x hx => ?_⟩
  · rw [Past.lastCycle_append, if_neg hm, hw]
    exact h.waiting x
  · rw [hf]
    exact h.fetch x (hw.symm.trans hx)

/-- After a cycle its own word decides, and the keys that were down. Where the word awaits no key
the machine was not waiting before: its word would be another. -/
theorem cycle {past : Past} (h : m.Awaiting past) :
    m.cycle.state.Awaiting (past ++ [(.cycle, m)]) := by
  have latest : Past.lastCycle (past ++ [(.cycle, m)]) = some m := by
    rw [Past.lastCycle_append, if_pos rfl]
  have settled : ∀ x, (m.cycle.state.waiting = some x ↔
      m.fetch = (Instruction.awaitKey x).encode ∧ m.keypad.first? = none) ∧
      (m.cycle.state.waiting = some x →
        m.cycle.state.fetch = (Instruction.awaitKey x).encode) := by
    intro x
    by_cases awaits : ∃ y : Register, m.fetch = (Instruction.awaitKey y).encode
    · obtain ⟨y, hy⟩ := awaits
      cases hk : m.keypad.first? with
      | none =>
        rw [cycle_no_key h.wellFormed.pc hy hk]
        -- a word is the word of one instruction only
        have same : some y = some x ↔ m.fetch = (Instruction.awaitKey x).encode := by
          rw [← decode?_fetch, decode?_fetch.mpr hy]
          simp
        exact ⟨same.trans (and_iff_left rfl).symm, same.mp⟩
      | some k =>
        rw [cycle_key hy hk]
        simp
    · have still : m.waiting = none := by
        cases hw : m.waiting with
        | none => rfl
        | some y => exact absurd ⟨y, h.fetch y hw⟩ awaits
      rw [waiting_cycle fun y hy => awaits ⟨y, hy⟩, still]
      refine ⟨⟨fun hx => absurd hx (by simp), fun hx => absurd ⟨x, hx.1⟩ awaits⟩, fun hx => ?_⟩
      exact absurd hx (by simp)
  refine ⟨h.wellFormed.process m.fetch, fun x => ?_, fun x => (settled x).2⟩
  rw [latest, (settled x).1]
  simp

/-- **One move** keeps the wait faithful. -/
theorem move {past : Past} (h : m.Awaiting past) (move : Move) :
    (move.run m).state.Awaiting (past ++ [(move, m)]) := by
  by_cases hm : move = .cycle
  · subst hm
    exact h.cycle
  · exact h.idle hm

/-- A wait goes on as long as no key is down. -/
theorem stays {past : Past} (h : m.Awaiting past) {x : Register} (hx : m.waiting = some x)
    (up : m.keypad.first? = none) : m.cycle = .done m := by
  have still : { m with waiting := some x } = m := by rw [← hx]
  rw [cycle_no_key h.wellFormed.pc (h.fetch x hx) up, still]

/-- The lowest key that is down ends it. -/
theorem ends {past : Past} (h : m.Awaiting past) {x : Register} (hx : m.waiting = some x)
    {k : Fin 16} (down : m.keypad.first? = some k) :
    m.cycle = .done { m.setRegister x k.val with pc := (m.pc + 2) % 4096, waiting := none } :=
  cycle_key (h.fetch x hx) down

end Awaiting

end Machine

namespace Monitor

variable {g : Graphics} {b : Monitor g}

/-- A run from a machine that is new or was reset and got an image, whatever image it was. -/
theorem awaiting_run (fresh : b.machine = .initial b.machine.random) (driven : b.retired = none)
    (image : Data) {commands : List Command} (playing : ∀ c ∈ commands, c.plays = true) :
    ((b.perform (.loadImage image)).state.run commands).machine.Awaiting
      ((b.perform (.loadImage image)).state.history commands) := by
  have bench : b.WellFormed := by
    refine ⟨fresh ▸ Machine.wellFormed_initial b.machine.random, fun m hm => ?_⟩
    exact absurd (driven.symm.trans hm) (by simp)
  have wellFormed : (b.perform (.loadImage image)).state.machine.WellFormed :=
    (bench.loadImage image).machine
  obtain ⟨memory, loaded⟩ := state_loadImage b image
  rw [loaded] at wellFormed ⊢
  have idle : b.machine.waiting = none := by
    rw [fresh]
    rfl
  have start : { b.machine with memory }.Awaiting [] := Machine.Awaiting.start wellFormed idle
  exact history_keeps (b := { b with machine := { b.machine with memory } })
    (P := fun past m => m.Awaiting past) (fun _ move _ hm => hm.move move) playing driven start

/-- A cycle that carries out an instruction to its end, seen on the bench. -/
theorem perform_cycle {i : Instruction} {m : Machine}
    (pc : 0 ≤ b.machine.pc ∧ b.machine.pc < 4096) (hf : b.machine.fetch = i.encode)
    (h : b.machine.cycle = .done m) :
    b.perform .cycle
      = .done { b with machine := m, log := b.log.add (.executed b.machine.pc i) } := by
  simp only [perform, onTraced]
  rw [Traced.cycle_of_done (t := ⟨b.machine, b.log⟩) pc hf h]
  rfl

/-- **A wait is a faithful state.** A machine that is new or was reset, and that the host drives if
there is one, gets an image, taken or not, and is then played on in any order. In every state
reached, a register waits exactly when there was a cycle and the latest one carried out its
`awaitKey` with no key down; the program counter then stands on that word. A cycle with no key down
changes nothing but the log, and one with keys down takes the lowest of them and goes on. -/
theorem awaiting_faithful {b : Monitor g} (fresh : b.machine = .initial b.machine.random)
    (driven : b.retired = none) (image : Data) {commands : List Command}
    (playing : ∀ c ∈ commands, c.plays = true) :
    let loaded := (b.perform (.loadImage image)).state
    let reached := loaded.run commands
    let m := reached.machine
    (∀ x : Register, m.waiting = some x ↔
      ∃ before, Past.lastCycle (loaded.history commands) = some before
        ∧ before.fetch = (0xF00A ||| x.val <<< 8 : Nat)
        ∧ ∀ k : Fin 16, before.keypad.isDown k = false) ∧
    ∀ x : Register, m.waiting = some x →
      m.fetch = (0xF00A ||| x.val <<< 8 : Nat) ∧
      ((∀ k : Fin 16, m.keypad.isDown k = false) →
        reached.perform .cycle
          = .done { reached with log := reached.log.add (.executed m.pc (.awaitKey x)) }) ∧
      ∀ k : Fin 16, m.keypad.isDown k = true → (∀ j < k, m.keypad.isDown j = false) →
        reached.perform .cycle = .done { reached with
          machine := { m.setRegister x k.val with pc := (m.pc + 2) % 4096, waiting := none }
          log := reached.log.add (.executed m.pc (.awaitKey x)) } := by
  intro loaded reached m
  have faithful : m.Awaiting (loaded.history commands) := awaiting_run fresh driven image playing
  simp only [← Instruction.encode_awaitKey, ← Keypad.first?_eq_none_iff]
  refine ⟨faithful.waiting, fun x hx => ?_⟩
  have pc := faithful.wellFormed.pc
  have word := faithful.fetch x hx
  refine ⟨word, fun up => ?_, fun k down lowest => ?_⟩
  · exact perform_cycle pc word (faithful.stays hx up)
  · have first : m.keypad.first? = some k := Keypad.first?_eq_some_iff.mpr ⟨down, lowest⟩
    exact perform_cycle pc word (faithful.ends hx first)

/-- A run that comes to a wait step by step, with a key that came and went before. -/
def waitingCommands : List Command :=
  [ .attachHost 60 true, .press 7, .event (.keyUp (.character 'a')), .tick,
    .event (.keyDown (.character 'n')) ]

theorem awaiting_faithful_waitingCommands :
    let b : Monitor .raster := start ⟨fun _ => 0, 0⟩ .debug
    let reached := (b.perform (.loadImage (.numbers [0xF3, 0x0A]))).state.run waitingCommands
    (∀ c ∈ waitingCommands, c.plays = true) ∧ reached.machine.waiting = some 3
      ∧ reached.machine.fetch = 0xF30A := by
  intro b reached
  have playing : ∀ c ∈ waitingCommands, c.plays = true := by decide
  have faithful := awaiting_faithful (b := b) rfl rfl (.numbers [0xF3, 0x0A]) playing
  let before (memory : Memory) : Machine := { b.machine with
    memory, delay := 254, sound := 254, keypad := (Keypad.released.press 7).release 7 }
  -- with a variable for the memory the history comes out without a look into it
  have latest : ∀ memory, Past.lastCycle
      (history { b with machine := { b.machine with memory } } waitingCommands)
        = some (before memory) := by
    intro memory
    have told : history { b with machine := { b.machine with memory } } waitingCommands
        = _ ++ (_ ++ (_ ++ (_ ++ (Outcome.visits Move.run [.cycle] (before memory) ++ [])))) := rfl
    rw [told, Outcome.visits_singleton, List.append_nil]
    simp only [← List.append_assoc, Past.lastCycle_append, if_true]
  have word : (before (Memory.blank.splice imageStart [0xF3, 0x0A])).fetch = 0xF30A := by
    have laid : (before (Memory.blank.splice imageStart [0xF3, 0x0A])).memory
        = Memory.blank.splice imageStart [0xF3, 0x0A] := rfl
    rw [Machine.fetch_of_splice (i := 0) laid (by decide) (by decide) (by decide) rfl]
    decide
  have waits : reached.machine.waiting = some 3 :=
    (faithful.1 3).mpr ⟨_, latest _, word, by decide⟩
  exact ⟨playing, waits, (faithful.2 3 waits).1⟩

end Monitor
end Chip8Vm
