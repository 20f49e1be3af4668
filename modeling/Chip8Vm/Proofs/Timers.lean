import Chip8Vm.Proofs.Chronicle
import Chip8Vm.Proofs.Ownership

/-!
# What the timers read

A timer holds what was last written to it, less the ticks since then, and no less than zero. What
was last written and how many ticks ago is a matter of the chronicle alone (`Timer.due`):

> **at every moment of a run a timer reads what its chronicle says** (`run_timers`).

There are two timers and one law. An instruction starts at most one of them (`Timer.source?`), a
reset starts both, and a tick counts for both, also while a key is awaited.
-/

set_option autoImplicit false

namespace Chip8Vm

/-- Whether a deed is a tick of the timers. -/
def Deed.isTick : Deed → Bool
  | move .tick => true
  | _ => false

/-- One of the two timers. -/
inductive Timer where
  | delay
  | sound

namespace Timer

/-- What a timer reads. -/
def value (m : Machine) : Timer → Int
  | delay => m.delay
  | sound => m.sound

/-- The part of a machine that a timer is. -/
def part : Timer → Part
  | delay => .delay
  | sound => .sound

/-- The register that an instruction starts a timer with, if it starts the timer. -/
def source? : Timer → Instruction → Option Register
  | delay, .startDelay x => some x
  | sound, .startSound x => some x
  | _, _ => none

/-- What a deed writes to a timer, if it writes to it. -/
def written (timer : Timer) : Deed × Machine → Option Int
  | (.reset, _) => some timerStart
  | (d, m) => ((d.instruction? m).bind timer.source?).map m.register

/-- What was written to a timer last, be it when the machine was made. -/
def latest (timer : Timer) (past : Chronicle) : Int :=
  (past.reverse.findSome? timer.written).getD timerStart

/-- The ticks since a timer was last written to. -/
def ticks (timer : Timer) (past : Chronicle) : Nat :=
  (past.reverse.takeWhile fun entry => (timer.written entry).isNone).countP fun entry =>
    entry.1.isTick

/-- What a timer reads by its chronicle. -/
def due (timer : Timer) (past : Chronicle) : Int := max 0 (timer.latest past - timer.ticks past)

variable (timer : Timer) (past : Chronicle) (entry : Deed × Machine)

theorem latest_append :
    timer.latest (past ++ [entry]) = (timer.written entry).getD (timer.latest past) := by
  unfold latest
  rw [List.reverse_append, List.reverse_singleton, List.singleton_append, List.findSome?_cons]
  cases timer.written entry with
  | none => rfl
  | some v => rfl

theorem ticks_append :
    timer.ticks (past ++ [entry])
      = (timer.written entry).elim (timer.ticks past + entry.1.isTick.toNat) fun _ => 0 := by
  unfold ticks
  rw [List.reverse_append, List.reverse_singleton, List.singleton_append, List.takeWhile_cons]
  cases timer.written entry with
  | none =>
    refine List.countP_cons.trans ?_
    cases entry.1.isTick <;> rfl
  | some v => rfl

/-! ## One deed -/

/-- A timer that an instruction does not start is as it was. -/
theorem value_execute_none {m : Machine} {i : Instruction} (hi : timer.source? i = none) :
    timer.value (m.execute i).state = timer.value m := by
  have unowned : ¬ i.Owns m.index timer.part := by
    cases timer <;> cases i <;> simp_all [Instruction.Owns, part, source?]
  have same := Machine.same_execute unowned
  cases timer <;> exact same

theorem value_execute_some {m : Machine} {i : Instruction} {x : Register}
    (hi : timer.source? i = some x) : timer.value (m.execute i).state = m.register x := by
  cases timer <;> cases i <;> cases hi <;> rfl

variable {d : Deed} {m : Machine} {i : Instruction}

theorem written_of_instruction (h : d.instruction? m = some i) :
    timer.written (d, m) = (timer.source? i).map m.register := by
  cases d with
  | reset => cases h
  | move | process | load => exact congrArg (fun i => (i.bind timer.source?).map m.register) h

theorem value_of_instruction (h : d.instruction? m = some i) :
    timer.value (d.run m).state = (timer.written (d, m)).getD (timer.value m) := by
  rw [Deed.run_of_instruction h, written_of_instruction timer h]
  cases hi : timer.source? i with
  | some x => exact value_execute_some timer hi
  | none =>
    refine (value_execute_none timer hi).trans ?_
    cases timer <;> rfl

/-- **A deed** writes to a timer, is a tick of it, or leaves it as it was. -/
theorem value_run (d : Deed) (m : Machine) :
    timer.value (d.run m).state = (timer.written (d, m)).getD
      (if d.isTick then Machine.countDown (timer.value m) else timer.value m) := by
  -- a word is an instruction or none, and then the machine has only moved on
  have word : ∀ opcode, timer.value (m.process opcode).state
      = (timer.written (.process opcode, m)).getD (timer.value m) := by
    intro opcode
    cases hd : Instruction.decode? opcode with
    | some i => exact value_of_instruction (d := .process opcode) timer hd
    | none =>
      have unwritten : timer.written (.process opcode, m) = none :=
        congrArg (fun i => (i.bind timer.source?).map m.register) hd
      rw [unwritten, Machine.process, hd]
      cases timer <;> rfl
  cases d with
  | process opcode => exact word opcode
  | reset => cases timer <;> rfl
  | load image =>
    obtain ⟨memory, left⟩ := Deed.state_load image m
    rw [left]
    cases timer <;> rfl
  | move it =>
    cases it with
    | cycle => exact word m.fetch
    | tick | releaseAll => cases timer <;> rfl
    | press k | release k =>
      simp only [Deed.run, Move.run]
      cases Keypad.key? k <;> cases timer <;> rfl

/-- What is written to a timer is no less than zero. -/
theorem nonneg_written {v : Int} (h : m.WellFormed) (hv : timer.written (d, m) = some v) :
    0 ≤ v := by
  cases d with
  | reset =>
    cases hv
    decide
  | load => cases hv
  | move it =>
    obtain ⟨x, -, rfl⟩ := Option.map_eq_some_iff.mp hv
    exact (h.registers x).1
  | process opcode =>
    obtain ⟨x, -, rfl⟩ := Option.map_eq_some_iff.mp hv
    exact (h.registers x).1

/-- **A deed keeps the law** of a timer. -/
theorem due_append (h : m.WellFormed) (hm : timer.value m = timer.due past) :
    timer.value (d.run m).state = timer.due (past ++ [(d, m)]) := by
  rw [value_run, due, latest_append, ticks_append, hm]
  cases hw : timer.written (d, m) with
  | some v =>
    have := nonneg_written timer h hw
    simp only [Option.getD_some, Option.elim_some]
    omega
  | none =>
    simp only [Option.getD_none, Option.elim_none, due]
    cases d.isTick with
    | false => rfl
    | true =>
      simp only [if_pos, Machine.countDown, Bool.toNat_true]
      omega

/-! ## Runs -/

/-- The numbers are in range, and both timers read what they should. -/
structure Lawful (past : Chronicle) (m : Machine) : Prop where
  wellFormed : m.WellFormed
  value : ∀ timer : Timer, timer.value m = timer.due past

theorem Lawful.nonneg {past : Chronicle} (h : Lawful past m) (timer : Timer) :
    0 ≤ timer.value m := by
  rw [h.value timer]
  exact Int.le_max_left 0 _

theorem Lawful.deed {past : Chronicle} (h : Lawful past m) (d : Deed) :
    Lawful (past ++ [(d, m)]) (d.run m).state :=
  ⟨h.wellFormed.deed d, fun timer => due_append timer past h.wellFormed (h.value timer)⟩

theorem lawful_initial (random : RandomSource) : Lawful [] (Machine.initial random) :=
  ⟨Machine.wellFormed_initial random, fun timer => by cases timer <;> rfl⟩

end Timer

namespace Monitor

variable {g : Graphics}

open Timer

/-- **At every moment of a run a timer reads what its chronicle says**: what was last written to it,
less the ticks since then, and no less than zero. That holds at the end and before each of the
deeds, faults or no faults, so that a read delivers this number. Awaiting a key touches no timer,
and a tick is one for a machine that waits as for any other. A frame without a fault is one tick
after all its cycles. -/
theorem run_timers (random : RandomSource) (threshold : Level) {commands : List Command}
    (operating : ∀ c ∈ commands, c.operates = true) :
    let b : Monitor g := start random threshold
    let reached := b.run commands
    (∀ timer : Timer, timer.value reached.machine = timer.due (b.chronicle commands)
      ∧ 0 ≤ timer.value reached.machine) ∧
    (∀ before d m later, b.chronicle commands = before ++ (d, m) :: later →
      (∀ timer : Timer, timer.value m = timer.due before ∧ 0 ≤ timer.value m) ∧
      (∀ x, d.instruction? m = some (.readDelay x) →
        (d.run m).state.register x = Timer.delay.due before) ∧
      (∀ x, d.instruction? m = some (.awaitKey x) →
        ∀ timer : Timer, timer.value (d.run m).state = timer.value m) ∧
      (d = .move .tick → m.waiting ≠ none →
        ∀ timer : Timer, timer.value (d.run m).state = max 0 (timer.value m - 1))) ∧
    ∀ host, reached.host = some host → host.paused = false →
      (reached.perform .frame).fault = none →
      ∃ cycles cycled, reached.chronicle [.frame] = cycles ++ [(.move .tick, cycled)] ∧
        cycles.map Prod.fst = List.replicate host.cyclesPerFrame (.move .cycle) ∧
        (reached.perform .frame).state.machine = cycled.tick := by
  intro b reached
  have step : ∀ past d m, Lawful past m → Lawful (past ++ [(d, m)]) (Deed.run d m).state :=
    fun _ d _ h => h.deed d
  have last : Lawful ([] ++ b.chronicle commands) reached.machine :=
    chronicle_keeps step operating rfl (lawful_initial random)
  refine ⟨fun timer => ⟨last.value timer, last.nonneg timer⟩, fun before d m later split => ?_,
    fun host hh running hf => ?_⟩
  · have here : Lawful before m :=
      chronicle_moments step operating rfl (lawful_initial random) split
    refine ⟨fun timer => ⟨here.value timer, here.nonneg timer⟩, fun x hx => ?_,
      fun x hx timer => ?_, fun hd _ timer => ?_⟩
    · rw [Deed.run_of_instruction hx, ← here.value .delay]
      exact (Machine.register_setRegister ..).trans (if_pos rfl)
    · rw [value_of_instruction timer hx, written_of_instruction timer hx]
      cases timer <;> rfl
    · have := here.nonneg timer
      rw [value_run, hd]
      show Machine.countDown (timer.value m) = _
      unfold Machine.countDown
      omega
  · have driven : reached.retired = none :=
      run_keeps (P := fun b => b.retired = none)
        (fun c hc _ hb => retired_perform_operates hb (operating c hc)) rfl
    exact chronicle_frame driven hh running hf

/-- The delay timer is started at three; a return on an empty stack is cut short, and the first of
the ticks finds a machine that awaits a key. -/
def timedCommands : List Command :=
  [ .attachHost 120 false, .process 0x6003, .process 0xF015, .process 0xF30A, .tick,
    .process 0x00EE, .tick ]

theorem run_timers_timedCommands :
    let b : Monitor .raster := start ⟨fun _ => 0, 0⟩ .debug
    let reached := b.run (timedCommands ++ [.process 0xF107])
    (∀ c ∈ timedCommands ++ [.process 0xF107], c.operates = true)
      ∧ reached.machine.delay = 1 ∧ reached.machine.sound = 253
      ∧ reached.machine.register 1 = 1
      ∧ ∃ cycles cycled, reached.chronicle [.frame] = cycles ++ [(.move .tick, cycled)]
        ∧ cycles.map Prod.fst = [.move .cycle, .move .cycle] := by
  intro b reached
  have operating : ∀ c ∈ timedCommands ++ [.process 0xF107], c.operates = true := by decide
  obtain ⟨ends, moments, frames⟩ := run_timers ⟨fun _ => 0, 0⟩ .debug operating
  have delay : reached.machine.delay = 1 := (ends .delay).1.trans (by decide +kernel)
  have sound : reached.machine.sound = 253 := (ends .sound).1.trans (by decide +kernel)
  refine ⟨operating, delay, sound, ?_, ?_⟩
  · have split : b.chronicle (timedCommands ++ [.process 0xF107])
        = b.chronicle timedCommands ++ [(.process 0xF107, (b.run timedCommands).machine)] := by
      unfold chronicle
      rw [told_append]
      rfl
    have read := (moments _ (.process 0xF107) _ [] split).2.1 1 (by decide)
    exact read.trans (by decide +kernel)
  · have host : reached.host = some (.make 120 false) := rfl
    have whole : (reached.perform .frame).fault = none := by decide +kernel
    obtain ⟨cycles, cycled, told, all, -⟩ := frames (.make 120 false) host rfl whole
    exact ⟨cycles, cycled, told, all⟩

end Monitor
end Chip8Vm
