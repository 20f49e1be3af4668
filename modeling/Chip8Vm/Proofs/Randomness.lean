import Chip8Vm.Proofs.Schedule
import Chip8Vm.Proofs.Unseen

/-!
# Where random values go

One instruction draws a random value, one each time, and keeps of it the bits of its mask. What a
run draws is told by the masks of these instructions (`Monitor.masks`), in the order in which they
were executed.

> **two sources that agree under the masks make no difference** (`run_masked`): the same words are
> executed at the same addresses, with the same faults, and the benches are the same at every
> moment, the sources apart.

Nothing is asked of values that nobody draws, or of the bits that no mask lets through. The proof
holds the two runs in step. What a move draws it draws from both sources, so that they stay the same
number of values ahead (`perform_withRandom`).
-/

set_option autoImplicit false

namespace Chip8Vm

namespace RandomSource

/-- The source after so many values are drawn. -/
def skip (s : RandomSource) (n : Nat) : RandomSource := { s with drawn := s.drawn + n }

theorem skip_skip (s : RandomSource) (n k : Nat) : (s.skip n).skip k = s.skip (n + k) := by
  simp only [skip, Nat.add_assoc]

/-- The values that the two sources give next have the same bits under the masks, one mask after the
other. -/
def Agree (s s' : RandomSource) (masks : List (Fin 256)) : Prop :=
  ∀ i mask, masks[i]? = some mask →
    Number.land (s.value (s.drawn + i)) (mask.val : Int)
      = Number.land (s'.value (s'.drawn + i)) (mask.val : Int)

theorem agree_append {s s' : RandomSource} {masks masks' : List (Fin 256)} :
    s.Agree s' (masks ++ masks') ↔
      s.Agree s' masks ∧ (s.skip masks.length).Agree (s'.skip masks.length) masks' := by
  constructor
  · refine fun h => ⟨fun i mask hi => h i mask ?_, fun i mask hi => ?_⟩
    · rw [List.getElem?_append_left (List.getElem?_eq_some_iff.mp hi).1]
      exact hi
    · have later := h (masks.length + i) mask (by rw [List.getElem?_append_right (by omega)]; simpa)
      simpa only [skip, Nat.add_assoc] using later
  · rintro ⟨first, later⟩ i mask hi
    rcases Nat.lt_or_ge i masks.length with near | far
    · exact first i mask (by rwa [List.getElem?_append_left near] at hi)
    · rw [List.getElem?_append_right far] at hi
      have := later _ mask hi
      simp only [skip] at this
      rwa [Nat.add_assoc, Nat.add_assoc, Nat.add_sub_cancel' far] at this

end RandomSource

namespace Instruction

/-- The mask of an instruction that draws a random value. -/
def mask? : Instruction → Option (Fin 256)
  | random _ mask => some mask
  | _ => none

/-- The masks that the word of an instruction has, one or none. -/
def masksOf (opcode : Int) : List (Fin 256) := ((decode? opcode).bind mask?).toList

end Instruction

namespace Machine

/-- The machine with another source of random values. -/
def withRandom (m : Machine) (random : RandomSource) : Machine := { m with random }

variable {m : Machine}

/-- An instruction draws a value if it has a mask, and none if not. -/
theorem random_execute (m : Machine) (i : Instruction) :
    (m.execute i).state.random = m.random.skip i.mask?.toList.length := by
  cases hi : i.mask? with
  | some mask =>
    cases i with
    | random => rfl
    | _ => cases hi
  | none =>
    have unowned : ¬ i.Owns m.index .random := by
      cases i <;> simp_all [Instruction.Owns, Instruction.mask?]
    exact same_execute unowned

/-- An instruction does the same with another source, if that gives the same bits. -/
theorem execute_withRandom {i : Instruction} {random : RandomSource}
    (agree : m.random.Agree random i.mask?.toList) :
    (m.withRandom random).execute i
      = (m.execute i).map (withRandom · (random.skip i.mask?.toList.length)) := by
  cases i with
  | random x mask =>
    have same : Number.land m.random.next (mask.val : Int)
        = Number.land random.next (mask.val : Int) := agree 0 mask rfl
    simp only [execute, Outcome.map_done, same]
    rfl
  | clear | draw => rfl
  | _ => exact execute_disguise (fun _ => random) id rfl m

theorem random_process (m : Machine) (opcode : Int) :
    (m.process opcode).state.random = m.random.skip (Instruction.masksOf opcode).length := by
  unfold process Instruction.masksOf
  cases Instruction.decode? opcode with
  | none => rfl
  | some i => exact m.advance.random_execute i

end Machine

namespace Traced

/-- The machine with another source of random values, and the log as it is. -/
def withRandom (t : Traced) (random : RandomSource) : Traced :=
  { t with machine := t.machine.withRandom random }

theorem process_withRandom {t : Traced} {opcode : Int} {random : RandomSource}
    (agree : t.machine.random.Agree random (Instruction.masksOf opcode)) :
    (t.withRandom random).process opcode = (t.process opcode).map
      (withRandom · (random.skip (Instruction.masksOf opcode).length)) := by
  unfold process Instruction.masksOf at *
  cases hd : Instruction.decode? opcode with
  | none => rfl
  | some i =>
    rw [hd] at agree
    have same : (t.machine.advance.withRandom random).execute i = _ :=
      Machine.execute_withRandom (m := t.machine.advance) agree
    have moved : (t.withRandom random).machine.advance
        = t.machine.advance.withRandom random := rfl
    dsimp only
    rw [moved, same]
    obtain ⟨m, fault⟩ := t.machine.advance.execute i
    cases fault with
    | none => rfl
    | some f => rfl

end Traced

/-- What was executed, apart from the values that were drawn. -/
def Executed.word (e : Executed) : Int × Int × Option Fault := (e.address, e.opcode, e.fault)

namespace Monitor

variable {g : Graphics}

/-- The bench with another source of random values. -/
def withRandom (b : Monitor g) (random : RandomSource) : Monitor g :=
  { b with machine := b.machine.withRandom random }

/-- The masks of the instructions that a schedule executes and that draw random values. -/
def masks (b : Monitor g) (moves : List Move) : List (Fin 256) :=
  (b.executed moves).flatMap fun e => Instruction.masksOf e.opcode

variable {b : Monitor g} {random : RandomSource}

theorem executed_cons (b : Monitor g) (move : Move) (moves : List Move) :
    b.executed (move :: moves)
      = b.executed [move] ++ (b.perform move.command).state.executed moves := by
  cases move with
  | cycle | tick | press | release | releaseAll => rfl

theorem masks_cons (b : Monitor g) (move : Move) (moves : List Move) :
    b.masks (move :: moves) = b.masks [move] ++ (b.perform move.command).state.masks moves := by
  unfold masks
  rw [executed_cons, List.flatMap_append]

theorem masks_cycle (b : Monitor g) : b.masks [.cycle] = Instruction.masksOf b.machine.fetch :=
  List.append_nil _

/-- A move draws as many values as it executes instructions with masks. -/
theorem random_perform (b : Monitor g) (move : Move) :
    (b.perform move.command).state.machine.random
      = b.machine.random.skip (b.masks [move]).length := by
  by_cases hm : move = .cycle
  · subst hm
    rw [masks_cycle, ← Machine.random_process]
    exact congrArg (·.state.random) (b.map_perform_command .cycle)
  · rw [b.machine_perform_idle hm]
    cases move with
    | cycle => exact absurd rfl hm
    | tick | press | release | releaseAll => rfl

/-- **A move does the same with another source**, if that gives the same bits under the masks, and
takes as many values from it. -/
theorem perform_withRandom {move : Move} (agree : b.machine.random.Agree random (b.masks [move])) :
    (b.withRandom random).perform move.command = (b.perform move.command).map
      (withRandom · (random.skip (b.masks [move]).length)) := by
  cases move with
  | cycle =>
    rw [masks_cycle] at agree ⊢
    have same : Traced.cycle ⟨b.machine.withRandom random, b.log⟩ = _ :=
      Traced.process_withRandom (t := ⟨b.machine, b.log⟩) agree
    exact congrArg (Outcome.map fun t => { b with machine := t.machine, log := t.log }) same
  | tick | releaseAll => rfl
  | press k =>
    simp only [Move.command, perform, onTraced, Traced.press]
    cases Keypad.key? k <;> rfl
  | release k =>
    simp only [Move.command, perform, onTraced, Traced.release]
    cases Keypad.key? k <;> rfl

/-- The words that a move executes are the same ones with another source. -/
theorem executed_withRandom {move : Move}
    (agree : b.machine.random.Agree random (b.masks [move])) :
    ((b.withRandom random).executed [move]).map Executed.word
      = (b.executed [move]).map Executed.word := by
  cases move with
  | cycle =>
    have fault : ((b.withRandom random).perform .cycle).fault = (b.perform .cycle).fault :=
      (congrArg Outcome.fault (perform_withRandom agree) :)
    exact congrArg (fun f => [(b.machine.pc, b.machine.fetch, f)]) fault
  | tick | press | release | releaseAll => rfl

/-- A schedule draws as many values as it executes instructions with masks. -/
theorem random_run (b : Monitor g) (moves : List Move) :
    (b.run (moves.map Move.command)).machine.random
      = b.machine.random.skip (b.masks moves).length := by
  induction moves generalizing b with
  | nil => rfl
  | cons move moves ih =>
    rw [List.map_cons, run_cons, ih, random_perform, RandomSource.skip_skip,
      masks_cons b move moves, List.length_append]

/-- Two runs in step, the second with another source: the same words are executed, and at every
moment the benches are the same and the next move brings the same fault. -/
structure InStep (b : Monitor g) (random : RandomSource) (moves : List Move) : Prop where
  executed : ((b.withRandom random).executed moves).map Executed.word
    = (b.executed moves).map Executed.word
  bench : ∀ n, (b.withRandom random).run ((moves.take n).map Move.command)
    = (b.run ((moves.take n).map Move.command)).withRandom
        (random.skip (b.masks (moves.take n)).length)
  fault : ∀ n move, moves[n]? = some move →
    (((b.withRandom random).run ((moves.take n).map Move.command)).perform move.command).fault
      = ((b.run ((moves.take n).map Move.command)).perform move.command).fault

/-- **Sources that agree under the masks keep two runs in step.** -/
theorem inStep {moves : List Move} (agree : b.machine.random.Agree random (b.masks moves)) :
    b.InStep random moves := by
  induction moves generalizing b random with
  | nil =>
    refine ⟨rfl, fun n => ?_, fun n move hn => absurd hn (by simp)⟩
    rw [List.take_nil]
    rfl
  | cons move moves ih =>
    rw [masks_cons, RandomSource.agree_append] at agree
    obtain ⟨here, later⟩ := agree
    have moved := perform_withRandom here
    have left : ((b.withRandom random).perform move.command).state = _ :=
      congrArg Outcome.state moved
    rw [← random_perform] at later
    have rest := ih later
    refine ⟨?_, fun n => ?_, fun n next hn => ?_⟩
    · rw [executed_cons, executed_cons b, List.map_append, List.map_append, left,
        executed_withRandom here]
      exact congrArg _ rest.executed
    · cases n with
      | zero => rfl
      | succ n =>
        rw [List.take_succ_cons, List.map_cons, run_cons, run_cons, left,
          masks_cons b move (moves.take n), List.length_append, ← RandomSource.skip_skip]
        exact rest.bench n
    · cases n with
      | zero =>
        cases hn
        exact (congrArg Outcome.fault moved :)
      | succ n =>
        rw [List.take_succ_cons, List.map_cons, run_cons, run_cons, left]
        exact rest.fault n next hn

/-- **Random values come in at one instruction only.** A run of moves draws as many values as it
executes instructions with masks. With another source, whatever its values are, it executes the same
words, meets the same faults and leaves the same bench at every moment, the source apart, if the
values that are drawn from the two have the same bits under the masks. The instruction leaves a
value in its register that is no larger than its mask. -/
theorem run_masked (b : Monitor g) (moves : List Move) :
    let reached (b : Monitor g) (n : Nat) := b.run ((moves.take n).map Move.command)
    (∀ n, (reached b n).machine.random = b.machine.random.skip (b.masks (moves.take n)).length) ∧
    (∀ source : RandomSource,
      (∀ i mask, (b.masks moves)[i]? = some mask →
        Number.land (b.machine.random.value (b.machine.random.drawn + i)) (mask.val : Int)
          = Number.land (source.value (source.drawn + i)) (mask.val : Int)) →
      let other := b.withRandom source
      (other.executed moves).map Executed.word = (b.executed moves).map Executed.word ∧
      (∀ n, reached other n
        = (reached b n).withRandom (source.skip (b.masks (moves.take n)).length)) ∧
      ∀ n move, moves[n]? = some move →
        ((reached other n).perform move.command).fault
          = ((reached b n).perform move.command).fault) ∧
    ∀ (t : Traced) (opcode : Int) (x : Register) (mask : Fin 256),
      opcode % 65536 = (Instruction.random x mask).encode →
        (t.process opcode).fault = none ∧ 0 ≤ (t.process opcode).state.machine.register x
          ∧ (t.process opcode).state.machine.register x ≤ mask.val := by
  intro reached
  refine ⟨fun n => b.random_run (moves.take n), fun source agree => ?_,
    fun t opcode x mask hw => ?_⟩
  · have lockstep : b.InStep source moves := inStep agree
    exact ⟨lockstep.executed, lockstep.bench, lockstep.fault⟩
  · have hd : Instruction.decode? opcode = some (.random x mask) :=
      Instruction.decode?_eq_some_iff.mpr hw
    have run := t.map_process opcode
    rw [Machine.process_of_decode hd] at run
    have value : (t.process opcode).state.machine.register x
        = Number.land t.machine.random.next (mask.val : Int) := by
      have left : (t.process opcode).state.machine = _ := congrArg Outcome.state run
      rw [left]
      exact (Machine.register_setRegister ..).trans (if_pos rfl)
    have range := Number.land_range t.machine.random.next (m := mask.val) (by omega)
    have small := Number.land_le t.machine.random.next (m := mask.val) (by omega)
    rw [value]
    exact ⟨(congrArg Outcome.fault run :), range.1, small⟩

/-- Two random values under two masks, between them a tick and a key that there is not. -/
def drawingMoves : List Move := [.cycle, .tick, .press 99, .cycle]

/-- The second source has values above a byte and below zero. -/
theorem run_masked_drawingMoves :
    let b : Monitor .raster := (start ⟨fun _ => 0x35, 0⟩ .debug).run
      [.poke 0x200 0xC0, .poke 0x201 0x0F, .poke 0x202 0xC1, .poke 0x203 0xF0]
    let source : RandomSource := ⟨fun i => if i = 7 then 0x105 else -0xC4, 7⟩
    let other := (b.withRandom source).run (drawingMoves.map Move.command)
    b.masks drawingMoves = [0x0F, 0xF0]
      ∧ other = (b.run (drawingMoves.map Move.command)).withRandom ⟨source.value, 9⟩
      ∧ (b.run (drawingMoves.map Move.command)).machine.random = ⟨fun _ => 0x35, 2⟩
      ∧ ((Traced.mk b.machine b.log).process 0xC10F).state.machine.register 1 ≤ 15 := by
  intro b source other
  obtain ⟨drawn, apart, small⟩ := run_masked b drawingMoves
  have masks : b.masks drawingMoves = [0x0F, 0xF0] := by decide +kernel
  have agree : ∀ i mask, (b.masks drawingMoves)[i]? = some mask →
      Number.land (b.machine.random.value (b.machine.random.drawn + i)) (mask.val : Int)
        = Number.land (source.value (source.drawn + i)) (mask.val : Int) := by
    intro i mask hi
    rw [masks] at hi
    match i with
    | 0 | 1 =>
      cases hi
      decide +kernel
  have all : drawingMoves.take 4 = drawingMoves := rfl
  have first := drawn 4
  have second := (apart source agree).2.1 4
  rw [all, masks] at first second
  exact ⟨masks, second, first, (small ⟨b.machine, b.log⟩ 0xC10F 1 15 (by decide)).2.2⟩

end Monitor
end Chip8Vm
