import Chip8Vm.Proofs.Bench

/-!
# Histories of moves

A command that plays the machine does nothing to it but moves (`Command.plays`), and `Monitor.moves`
says which. A history is a run of such commands told move by move, each move with the machine that
it was done to; a move that brought a fault is told of, and those that it kept from being done are
not.

> **the moves of a command leave the machine that the command leaves** (`map_perform`), so
> **what every move keeps of a machine and its past, every run keeps** (`history_keeps`).
-/

set_option autoImplicit false

namespace Chip8Vm

/-- A past: the moves that were done, with the machine that each of them was done to. -/
abbrev Past := List (Move × Machine)

/-- The machine as it stood before the latest cycle of a past, if there was a cycle. -/
def Past.lastCycle (past : Past) : Option Machine :=
  (past.reverse.find? fun entry => entry.1 = .cycle).map Prod.snd

@[simp] theorem Past.lastCycle_nil : Past.lastCycle [] = none := rfl

@[simp] theorem Past.lastCycle_append (past : Past) (move : Move) (m : Machine) :
    Past.lastCycle (past ++ [(move, m)]) = if move = .cycle then some m else past.lastCycle := by
  unfold lastCycle
  rw [List.reverse_append, List.reverse_singleton, List.singleton_append, List.find?_cons]
  by_cases hc : move = .cycle
  · simp [hc]
  · simp [hc]

namespace Command

/-- Whether a command does nothing to the machine but moves. -/
def plays : Command → Bool
  | cycle | tick | press _ | release _ | releaseAll => true
  | attachHost .. | event _ | frame => true
  | _ => false

end Command

namespace Monitor

variable {g : Graphics}

/-- The moves that a command comes down to, where the host drives the machine on the bench. -/
def moves (b : Monitor g) : Command → List Move
  | .cycle => [.cycle]
  | .tick => [.tick]
  | .press key => [.press key]
  | .release key => [.release key]
  | .releaseAll => [.releaseAll]
  | .event e => b.host.elim [] fun host => host.movesOn e
  | .frame => b.host.elim [] fun host => host.frameMoves
  | _ => []

/-- A run told item by item, where every command comes down to some items. -/
def told {α : Type} (step : α → Machine → Outcome Machine) (items : Monitor g → Command → List α)
    (b : Monitor g) : List Command → List (α × Machine)
  | [] => []
  | c :: cs => Outcome.visits step (items b c) b.machine ++ (b.perform c).state.told step items cs

/-- A run told move by move. -/
def history (b : Monitor g) : List Command → Past
  | [] => []
  | c :: cs => Outcome.visits Move.run (b.moves c) b.machine ++ (b.perform c).state.history cs

variable {b : Monitor g} {c : Command}

/-- An operation of the host is one on the machine, if that is the machine it drives. -/
theorem onHosted_eq (driven : b.retired = none) (f : Traced → Outcome Traced) :
    b.onHosted f = b.onTraced f := by
  simp only [onHosted, onTraced, hosted, setHosted, driven]

theorem retired_perform (driven : b.retired = none) (hc : c.plays = true) :
    (b.perform c).state.retired = none := by
  cases c with
  | cycle | tick | press | release | releaseAll => exact driven
  | attachHost => rfl
  | event e =>
    simp only [perform]
    cases b.host with
    | none => exact driven
    | some host =>
      dsimp only
      rw [onHosted_eq driven]
      exact driven
  | frame =>
    simp only [perform]
    cases b.host with
    | none => exact driven
    | some host =>
      dsimp only
      rw [onHosted_eq driven]
      exact driven
  | _ => cases hc

/-- **The moves of a command leave the machine that the command leaves**, with the same fault. -/
theorem map_perform (driven : b.retired = none) (hc : c.plays = true) :
    (b.perform c).map machine = Outcome.each Move.run (b.moves c) b.machine := by
  cases c with
  | cycle => exact (Traced.map_cycle _).trans (Outcome.each_singleton Move.run .cycle _).symm
  | tick => rfl
  | press key => exact (Traced.map_press key _).trans (Outcome.each_singleton _ _ _).symm
  | release key => exact (Traced.map_release key _).trans (Outcome.each_singleton _ _ _).symm
  | releaseAll => rfl
  | attachHost => rfl
  | event e =>
    simp only [perform, moves]
    cases b.host with
    | none => rfl
    | some host =>
      dsimp only
      rw [onHosted_eq driven]
      exact host.map_deliver e ⟨b.machine, b.log⟩
  | frame =>
    simp only [perform, moves]
    cases b.host with
    | none => rfl
    | some host =>
      dsimp only
      rw [onHosted_eq driven]
      exact host.map_frame ⟨b.machine, b.log⟩
  | _ => cases hc

theorem history_eq_told (b : Monitor g) (commands : List Command) :
    b.history commands = b.told Move.run moves commands := by
  induction commands generalizing b with
  | nil => rfl
  | cons c cs ih => rw [history, told, ih]

/-- What comes later is told of the bench that was left. -/
theorem told_append {α : Type} (step : α → Machine → Outcome Machine)
    (items : Monitor g → Command → List α) (b : Monitor g) (commands later : List Command) :
    b.told step items (commands ++ later)
      = b.told step items commands ++ (b.run commands).told step items later := by
  induction commands generalizing b with
  | nil => rfl
  | cons c cs ih => rw [List.cons_append, told, told, ih, List.append_assoc, run_cons]

/-- What every command keeps of a bench, and of its machine and what was told before, a run
keeps. -/
theorem told_invariant {α : Type} {step : α → Machine → Outcome Machine}
    {items : Monitor g → Command → List α} {P : List (α × Machine) → Machine → Prop}
    {Q : Monitor g → Prop} {commands : List Command}
    (performed : ∀ c ∈ commands, ∀ b past, Q b → P past b.machine → Q (b.perform c).state ∧
      P (past ++ Outcome.visits step (items b c) b.machine) (b.perform c).state.machine)
    {past : List (α × Machine)} (hb : Q b) (h : P past b.machine) :
    P (past ++ b.told step items commands) (b.run commands).machine := by
  induction commands generalizing b past with
  | nil =>
    rw [told, List.append_nil]
    exact h
  | cons c cs ih =>
    obtain ⟨next, kept⟩ := performed c (by simp) b past hb h
    rw [run_cons, told, ← List.append_assoc]
    exact ih (fun d hd => performed d (by simp [hd])) next kept

/-- What every item keeps of a machine and of what was told before, a run keeps, if its commands
leave the machine that their items leave. -/
theorem told_keeps {α : Type} {step : α → Machine → Outcome Machine}
    {items : Monitor g → Command → List α} {P : List (α × Machine) → Machine → Prop}
    {Q : Monitor g → Prop}
    (hstep : ∀ past a m, P past m → P (past ++ [(a, m)]) (step a m).state)
    {commands : List Command}
    (performed : ∀ c ∈ commands, ∀ b, Q b → Q (b.perform c).state ∧
      (b.perform c).state.machine = (Outcome.each step (items b c) b.machine).state)
    {past : List (α × Machine)} (hb : Q b) (h : P past b.machine) :
    P (past ++ b.told step items commands) (b.run commands).machine := by
  refine told_invariant (fun c hc b past hb h => ?_) hb h
  obtain ⟨next, left⟩ := performed c hc b hb
  refine ⟨next, ?_⟩
  rw [left]
  exact Outcome.visits_keep hstep _ h

/-- **What every move keeps of a machine and its past, a run keeps**, whatever faults it meets. -/
theorem history_keeps {P : Past → Machine → Prop}
    (step : ∀ past move m, P past m → P (past ++ [(move, m)]) (Move.run move m).state)
    {commands : List Command} (playing : ∀ c ∈ commands, c.plays = true) {past : Past}
    (driven : b.retired = none) (h : P past b.machine) :
    P (past ++ b.history commands) (b.run commands).machine := by
  rw [history_eq_told]
  refine told_keeps step (Q := fun b => b.retired = none) (fun c hc b hb => ?_) driven h
  have left : (b.perform c).state.machine = (Outcome.each Move.run (b.moves c) b.machine).state :=
    congrArg Outcome.state (map_perform hb (playing c hc))
  exact ⟨retired_perform hb (playing c hc), left⟩

end Monitor
end Chip8Vm
