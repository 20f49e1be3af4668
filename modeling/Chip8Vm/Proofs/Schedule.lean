import Chip8Vm.Proofs.Bench
import Chip8Vm.Proofs.Ownership

/-!
# Schedules

Cycles, ticks and keys come on clocks of their own, and nothing says which comes first. A schedule
is one order of them. What a tick or a key changes are the controls of a machine, its two timers
and its keypad, and a program that does not look at them cannot tell the orders apart:

> **moves in another order execute the same words at the same addresses and leave the same bench**
> (`run_reordered`), as long as the keys keep their order among themselves and no word that was
> executed uses a timer or a key.

The proof compares a schedule with its cycles alone. Machines that differ in their controls go in
lockstep (`executed_cycles`), and the controls are what the ticks and the keys make of them,
however many cycles there are in between (`controls_run`).
-/

set_option autoImplicit false

namespace Chip8Vm

/-- Whether an instruction has to do with a timer or a key. -/
def Instruction.usesControls : Instruction → Bool
  | readDelay _ | startDelay _ | startSound _ | awaitKey _ | skip (.key _) _ => true
  | _ => false

namespace Move

/-- Whether a move is one of the keys. -/
def onKeys : Move → Bool
  | press _ | release _ | releaseAll => true
  | cycle | tick => false

def command : Move → Command
  | cycle => .cycle
  | tick => .tick
  | press k => .press k
  | release k => .release k
  | releaseAll => .releaseAll

/-- What a move makes of the keypad. -/
def keypad (p : Keypad) : Move → Keypad
  | press k => (Keypad.key? k).elim p p.press
  | release k => (Keypad.key? k).elim p p.release
  | releaseAll => .released
  | cycle | tick => p

end Move

namespace Controls

/-- What moves make of the controls, if the program leaves them alone. -/
def after (c : Controls) (moves : List Move) : Controls where
  delay := Machine.countDown^[moves.count .tick] c.delay
  sound := Machine.countDown^[moves.count .tick] c.sound
  keypad := (moves.filter Move.onKeys).foldl Move.keypad c.keypad

theorem after_cons (c : Controls) (move : Move) (moves : List Move) :
    c.after (move :: moves) = (c.after [move]).after moves := by
  cases move with
  | tick => simp [after, Move.onKeys]
  | cycle | press | release | releaseAll => rfl

/-- Only the number of the ticks and the order of the keys count. -/
theorem after_perm {moves moves' : List Move} (same : moves'.Perm moves)
    (keys : moves'.filter Move.onKeys = moves.filter Move.onKeys) (c : Controls) :
    c.after moves' = c.after moves := by
  rw [after, after, same.count_eq, keys]

end Controls

namespace Machine

variable {m m' : Machine} {i : Instruction}

/-- An instruction that does not use the controls does not see them. -/
theorem execute_withControls (hi : i.usesControls = false) (m : Machine) (c : Controls) :
    (m.withControls c).execute i = (m.execute i).map (withControls · c) := by
  cases i with
  | ret =>
    have same : (m.withControls c).stack = m.stack := rfl
    simp only [execute, same]
    cases m.stack.pop? with
    | none => rfl
    | some top => rfl
  | call target =>
    have same : (m.withControls c).stack = m.stack := rfl
    have pc : (m.withControls c).pc = m.pc := rfl
    simp only [execute, same, pc]
    obtain ⟨stack, fault⟩ := m.stack.push m.pc
    cases fault with
    | none => rfl
    | some f => rfl
  | skip test wanted =>
    have same : (m.withControls c).holds test = m.holds test := by
      cases test with
      | key => cases hi
      | byte | register => rfl
    simp only [execute, same, Outcome.map_done]
    split
    · rfl
    · rfl
  | combine op x y => cases op <;> rfl
  | save last =>
    simp only [execute]
    rw [Outcome.map_andThen (k := fun m => .done (m.skipBlock last)) fun _ => rfl]
    rfl
  | readDelay | startDelay | startSound | awaitKey => cases hi
  | clear | jump | assign | increase | point | jumpBy | random | draw => rfl
  | movePointer | pointToGlyph | writeDecimal | restore => rfl

theorem controls_execute (hi : i.usesControls = false) :
    (m.execute i).state.controls = m.controls := by
  have kept : ∀ part ∈ [Part.delay, .sound, .keypad], part.Same m (m.execute i).state := by
    intro part hp
    refine same_execute fun owned => ?_
    simp only [List.mem_cons, List.not_mem_nil, or_false] at hp
    rcases hp with rfl | rfl | rfl <;> cases i <;>
      simp_all [Instruction.Owns, Instruction.usesControls]
  simp only [List.forall_mem_cons] at kept
  obtain ⟨delay, sound, keypad, -⟩ := kept
  exact Controls.ext delay sound keypad

theorem process_withControls {opcode : Int}
    (h : ∀ i, Instruction.decode? opcode = some i → i.usesControls = false) (m : Machine)
    (c : Controls) : (m.withControls c).process opcode = (m.process opcode).map (withControls · c)
      ∧ (m.process opcode).state.controls = m.controls := by
  unfold process
  cases hd : Instruction.decode? opcode with
  | none => exact ⟨rfl, rfl⟩
  | some i => exact ⟨execute_withControls (h i hd) m.advance c, controls_execute (h i hd)⟩

/-- The two machines differ in their controls at most. -/
def Alike (m m' : Machine) : Prop := m = m'.withControls m.controls

namespace Alike

theorem of_eq {c : Controls} (h : m = m'.withControls c) : m.Alike m' := by
  rw [h]
  rfl

theorem refl (m : Machine) : m.Alike m := rfl

theorem trans {m m' m'' : Machine} (h : m.Alike m') (h' : m'.Alike m'') : m.Alike m'' := by
  unfold Alike at h h'
  refine of_eq (c := m.controls) ?_
  rw [h, h']
  rfl

theorem symm (h : m.Alike m') : m'.Alike m := by
  unfold Alike at h
  refine of_eq (c := m'.controls) ?_
  rw [h]
  rfl

theorem pc (h : m.Alike m') : m.pc = m'.pc := by
  rw [h]
  rfl

theorem fetch (h : m.Alike m') : m.fetch = m'.fetch := by
  rw [h]
  rfl

theorem random (h : m.Alike m') : m.random = m'.random := by
  rw [h]
  rfl

theorem eq (h : m.Alike m') (controls : m.controls = m'.controls) : m = m' := by
  unfold Alike at h
  rw [h, controls]
  rfl

end Alike

/-- What a move between the cycles makes of the controls does not depend on anything else. -/
theorem controls_run_idle {move : Move} (hm : move ≠ .cycle) (m : Machine) :
    (move.run m).state.controls = m.controls.after [move] := by
  cases move with
  | cycle => exact absurd rfl hm
  | tick | releaseAll => rfl
  | press k =>
    show _ = Controls.mk m.delay m.sound ((Keypad.key? k).elim m.keypad m.keypad.press)
    simp only [Move.run]
    cases Keypad.key? k <;> rfl
  | release k =>
    show _ = Controls.mk m.delay m.sound ((Keypad.key? k).elim m.keypad m.keypad.release)
    simp only [Move.run]
    cases Keypad.key? k <;> rfl

end Machine

/-! ## Schedules on the bench -/

/-- The values that were drawn from a source since an earlier state of it. -/
def RandomSource.since (s earlier : RandomSource) : List Int :=
  (List.range' earlier.drawn (s.drawn - earlier.drawn)).map s.value

/-- A word that a cycle carried out, what cut it short, and the random values that it drew. -/
@[ext] structure Executed where
  address : Int
  opcode : Int
  fault : Option Fault
  drawn : List Int

/-- The word is of no instruction that has to do with a timer or a key. -/
def Executed.Unrelated (e : Executed) : Prop :=
  ∀ i : Instruction, e.opcode = i.encode → i.usesControls = false

theorem Executed.Unrelated.of_word {e : Executed} {w : Nat} {i : Instruction}
    (hw : Instruction.ofWord? w = some i) (hi : i.usesControls = false) (he : e.opcode = w) :
    e.Unrelated := by
  intro j hj
  have word : j.encode = w := by omega
  have read := Instruction.ofWord?_encode j
  rw [word, hw] at read
  cases read
  exact hi

namespace Monitor

variable {g : Graphics}

/-- The word that the next cycle carries out. -/
def toExecute (b : Monitor g) : Executed where
  address := b.machine.pc
  opcode := b.machine.fetch
  fault := (b.perform .cycle).fault
  drawn := (b.perform .cycle).state.machine.random.since b.machine.random

/-- The words that the cycles of a schedule carry out. A fault ends its move and not the schedule. -/
def executed (b : Monitor g) : List Move → List Executed
  | [] => []
  | .cycle :: moves => b.toExecute :: (b.perform .cycle).state.executed moves
  | move :: moves => (b.perform move.command).state.executed moves

variable {b b' : Monitor g}

theorem executed_idle {move : Move} (hm : move ≠ .cycle) (moves : List Move) :
    b.executed (move :: moves) = (b.perform move.command).state.executed moves := by
  cases move with
  | cycle => exact absurd rfl hm
  | tick | press | release | releaseAll => rfl

theorem map_perform_command (b : Monitor g) (move : Move) :
    (b.perform move.command).map machine = move.run b.machine := by
  cases move with
  | cycle => exact Traced.map_cycle _
  | press k => exact Traced.map_press k _
  | release k => exact Traced.map_release k _
  | tick | releaseAll => rfl

theorem machine_perform_idle {move : Move} (hm : move ≠ .cycle) (b : Monitor g) :
    (b.perform move.command).state.machine
      = b.machine.withControls (b.machine.controls.after [move]) := by
  rw [← Machine.controls_run_idle hm, ← Move.run_idle hm]
  exact congrArg Outcome.state (b.map_perform_command move)

/-- A word that does not use the controls does the same where they are others. -/
theorem perform_cycle_alike (alike : b.machine.Alike b'.machine)
    (unrelated : b'.toExecute.Unrelated) :
    b.toExecute = b'.toExecute
      ∧ (b.perform .cycle).state.machine.Alike (b'.perform .cycle).state.machine
      ∧ (b'.perform .cycle).state.machine.controls = b'.machine.controls := by
  have here : (b.perform .cycle).map machine = b.machine.cycle := b.map_perform_command .cycle
  have there : (b'.perform .cycle).map machine = b'.machine.cycle := b'.map_perform_command .cycle
  obtain ⟨same, kept⟩ := Machine.process_withControls
    (fun i hi => unrelated i (Machine.decode?_fetch.mp hi)) b'.machine b.machine.controls
  have both : b.machine.cycle
      = b'.machine.cycle.map (Machine.withControls · b.machine.controls) := by
    rw [alike]
    exact same
  rw [← here, ← there] at both
  have left : (b.perform .cycle).state.machine
      = (b'.perform .cycle).state.machine.withControls b.machine.controls :=
    congrArg Outcome.state both
  refine ⟨Executed.ext ?_ ?_ ?_ ?_, .of_eq left, ?_⟩
  · exact alike.pc
  · exact alike.fetch
  · exact (congrArg Outcome.fault both :)
  · show RandomSource.since _ _ = RandomSource.since _ _
    rw [left, alike.random]
    rfl
  · exact (congrArg (·.state.controls) there).trans kept

/-- **Machines that differ in their controls go in lockstep**, the one with ticks and keys between
its cycles and the other without, as long as either executes nothing that uses the controls. -/
theorem executed_cycles (b b' : Monitor g) {moves : List Move} (alike : b.machine.Alike b'.machine)
    (unrelated : (∀ e ∈ b.executed moves, e.Unrelated)
      ∨ ∀ e ∈ b'.executed (moves.filter (· == .cycle)), e.Unrelated) :
    b.executed moves = b'.executed (moves.filter (· == .cycle))
      ∧ (b.run (moves.map Move.command)).machine.Alike
        (b'.run ((moves.filter (· == .cycle)).map Move.command)).machine := by
  induction moves generalizing b b' with
  | nil => exact ⟨rfl, alike⟩
  | cons move moves ih =>
    by_cases hm : move = .cycle
    · subst hm
      rw [List.filter_cons_of_pos (by rfl)] at unrelated ⊢
      simp only [executed, List.forall_mem_cons] at unrelated ⊢
      -- both sides have the same word here, so it is enough to know it of one
      have word : b'.toExecute.Unrelated := by
        rcases unrelated with h | h
        · have same : b.toExecute.opcode = b'.toExecute.opcode := alike.fetch
          exact fun i hi => h.1 i (same.trans hi)
        · exact h.1
      obtain ⟨same, next, -⟩ := perform_cycle_alike alike word
      obtain ⟨rest, ends⟩ := ih _ _ next (unrelated.imp And.right And.right)
      exact ⟨by rw [same, rest], ends⟩
    · rw [List.filter_cons_of_neg (by simpa using hm)] at unrelated ⊢
      rw [executed_idle hm] at unrelated ⊢
      exact ih _ _ ((Machine.Alike.of_eq (b.machine_perform_idle hm)).trans alike) unrelated

/-- **The ticks and the keys alone make the controls.** -/
theorem controls_run {moves : List Move} (unrelated : ∀ e ∈ b.executed moves, e.Unrelated) :
    (b.run (moves.map Move.command)).machine.controls = b.machine.controls.after moves := by
  induction moves generalizing b with
  | nil => rfl
  | cons move moves ih =>
    rw [List.map_cons, run_cons, Controls.after_cons]
    by_cases hm : move = .cycle
    · subst hm
      simp only [executed, List.forall_mem_cons] at unrelated
      obtain ⟨-, -, kept⟩ := perform_cycle_alike (.refl b.machine) unrelated.1
      exact (ih unrelated.2).trans (congrArg (Controls.after · moves) kept)
    · rw [executed_idle hm] at unrelated
      rw [ih unrelated, b.machine_perform_idle hm]
      rfl

/-- Moves change the machine and the log, and nothing else on the bench. -/
theorem run_moves (b : Monitor g) (moves : List Move) :
    b.run (moves.map Move.command) = { b with
      machine := (b.run (moves.map Move.command)).machine
      log := (b.run (moves.map Move.command)).log } := by
  refine run_keeps (P := fun b' => b' = { b with machine := b'.machine, log := b'.log })
    (fun c hc b' hb => ?_) rfl
  obtain ⟨move, -, rfl⟩ := List.mem_map.mp hc
  rw [hb]
  cases move <;> rfl

/-- **The order of the moves does not matter** to what is executed and to what is left on the bench,
the log apart, if the keys keep theirs and no word that is executed has to do with the timers or the
keys. -/
theorem run_reordered (b : Monitor g) {moves moves' : List Move} (same : moves'.Perm moves)
    (keys : moves'.filter Move.onKeys = moves.filter Move.onKeys)
    (unrelated : ∀ e ∈ b.executed moves, e.Unrelated) :
    b.executed moves' = b.executed moves
      ∧ b.run (moves'.map Move.command) = { b.run (moves.map Move.command) with
          log := (b.run (moves'.map Move.command)).log } := by
  have cycles : moves'.filter (· == .cycle) = moves.filter (· == .cycle) := by
    rw [List.filter_beq, List.filter_beq, same.count_eq]
  obtain ⟨first, alike⟩ := executed_cycles b b (.refl b.machine) (.inl unrelated)
  -- of the other schedule nothing is known yet, but its cycles alone are those of the first
  have bare : ∀ e ∈ b.executed (moves'.filter (· == .cycle)), e.Unrelated := by
    rw [cycles, ← first]
    exact unrelated
  obtain ⟨second, alike'⟩ := executed_cycles b b (.refl b.machine) (.inr bare)
  have executed : b.executed moves' = b.executed moves := by rw [second, cycles, first]
  have machine : (b.run (moves'.map Move.command)).machine
      = (b.run (moves.map Move.command)).machine := by
    rw [cycles] at alike'
    refine Machine.Alike.eq (alike'.trans alike.symm) ?_
    rw [controls_run (executed ▸ unrelated), controls_run unrelated, Controls.after_perm same keys]
  refine ⟨executed, ?_⟩
  rw [b.run_moves moves, b.run_moves moves', machine]

/-- A return that finds nothing to return to and a random value, with a key and two ticks. -/
def faultyMoves : List Move := [.cycle, .tick, .press 3, .cycle, .tick]

theorem run_reordered_faultyMoves :
    let b : Monitor .raster := (start ⟨fun i => i + 0x1234, 0⟩ .debug).run
      [.poke 0x200 0x00, .poke 0x201 0xEE, .poke 0x202 0xC0, .poke 0x203 0x0F]
    let moves' : List Move := [.tick, .tick, .cycle, .press 3, .cycle]
    (b.executed faultyMoves).map Executed.opcode = [0x00EE, 0xC00F]
      ∧ (b.executed moves').map Executed.fault = [some .stackUnderflow, none]
      ∧ (b.run (moves'.map Move.command)).machine
        = (b.run (faultyMoves.map Move.command)).machine := by
  intro b moves'
  have opcodes : (b.executed faultyMoves).map Executed.opcode = [0x00EE, 0xC00F] := by
    decide +kernel
  have unrelated : ∀ e ∈ b.executed faultyMoves, e.Unrelated := by
    intro e he
    have word : e.opcode ∈ [0x00EE, 0xC00F] := opcodes ▸ List.mem_map_of_mem he
    simp only [List.mem_cons, List.not_mem_nil, or_false] at word
    rcases word with word | word
    · exact .of_word (w := 0x00EE) rfl rfl word
    · exact .of_word (w := 0xC00F) rfl rfl word
  have same : moves'.Perm faultyMoves := by decide
  have keys : moves'.filter Move.onKeys = faultyMoves.filter Move.onKeys := by decide
  obtain ⟨executed, bench⟩ := run_reordered b same keys unrelated
  refine ⟨opcodes, ?_, ?_⟩
  · rw [executed]
    decide +kernel
  · rw [bench]

end Monitor
end Chip8Vm
