import Chip8Vm.Proofs.History

/-!
# Chronicles of deeds

Between the moves of a host more may be done to a machine: a word is carried out that nobody has
fetched, an image is loaded, the machine is reset. A deed is any of these, and a chronicle is a run
told deed by deed, as a history is told move by move; a frame comes apart into its cycles and its
tick here too.

> **the deeds of a command leave the machine that the command leaves** (`map_perform_deeds`), so
> **what every deed keeps of a machine and its chronicle, every run keeps** (`chronicle_keeps`).
-/

set_option autoImplicit false

namespace Chip8Vm

/-- Something done to a machine. -/
inductive Deed where
  | move (move : Move)
  /-- A word is carried out, whatever the memory holds. -/
  | process (opcode : Int)
  | load (image : Data)
  | reset

namespace Deed

/-- Do a deed. -/
def run : Deed → Machine → Outcome Machine
  | move it, m => it.run m
  | process opcode, m => m.process opcode
  | load image, m =>
    match image.fault?, Machine.imageFault? image.size with
    | some fault, _ | none, some fault => .cut m fault
    | none, none => m.loadImage image.values
  | reset, m => .done m.reset

/-- The instruction that a deed carries out, if it carries one out. -/
def instruction? (m : Machine) : Deed → Option Instruction
  | move .cycle => Instruction.decode? m.fetch
  | process opcode => Instruction.decode? opcode
  | _ => none

/-- A deed that carries out an instruction does what the instruction does. -/
theorem run_of_instruction {d : Deed} {m : Machine} {i : Instruction}
    (h : d.instruction? m = some i) : d.run m = m.advance.execute i := by
  cases d with
  | move it =>
    cases it with
    | cycle => exact Machine.process_of_decode h m
    | tick | press | release | releaseAll => cases h
  | process opcode => exact Machine.process_of_decode h m
  | load | reset => cases h

/-- An image changes nothing but the memory. -/
theorem state_load (image : Data) (m : Machine) :
    ∃ memory, ((load image).run m).state = { m with memory } := by
  simp only [run]
  split
  · exact ⟨m.memory, rfl⟩
  · exact ⟨m.memory, rfl⟩
  · exact m.state_loadImage image.values

end Deed

/-- The deeds that were done, with the machine that each of them was done to. -/
abbrev Chronicle := List (Deed × Machine)

namespace Chronicle

variable {P : Chronicle → Machine → Prop} {past : Chronicle} {m : Machine}

/-- What may be said of a machine and its chronicle holds now, and has held before each deed. -/
def Held (P : Chronicle → Machine → Prop) (past : Chronicle) (m : Machine) : Prop :=
  P past m ∧ ∀ before d m' later, past = before ++ (d, m') :: later → P before m'

theorem held_nil (h : P [] m) : Held P [] m :=
  ⟨h, fun before _ _ _ split => absurd split (by simp)⟩

theorem Held.deed (step : ∀ past d m, P past m → P (past ++ [(d, m)]) (Deed.run d m).state)
    (h : Held P past m) (d : Deed) : Held P (past ++ [(d, m)]) (d.run m).state := by
  refine ⟨step past d m h.1, fun before d' m' later split => ?_⟩
  rcases List.eq_nil_or_concat later with rfl | ⟨inner, last, rfl⟩
  · obtain ⟨rfl, same⟩ := List.append_inj' split rfl
    cases same
    exact h.1
  · rw [List.concat_eq_append, ← List.cons_append, ← List.append_assoc] at split
    exact h.2 before d' m' inner (List.append_inj' split rfl).1

end Chronicle

/-- **A deed** keeps the numbers of a machine in range. -/
theorem Machine.WellFormed.deed {m : Machine} (h : m.WellFormed) (d : Deed) :
    (d.run m).state.WellFormed := by
  cases d with
  | move it => exact h.move it
  | process opcode => exact h.process opcode
  | load image =>
    simp only [Deed.run]
    split
    · exact h
    · exact h
    · exact h.loadImage image.values
  | reset => exact wellFormed_reset m

namespace Command

/-- Whether a command does nothing to the machine but deeds. -/
def operates : Command → Bool
  | process _ | loadImage _ | reset => true
  | c => c.plays

end Command

namespace Monitor

variable {g : Graphics}

/-- The deeds that a command comes down to, where the host drives the machine on the bench. -/
def deeds (b : Monitor g) : Command → List Deed
  | .process opcode => [.process opcode]
  | .loadImage image => [.load image]
  | .reset => [.reset]
  | c => (b.moves c).map .move

/-- A run told deed by deed. -/
def chronicle (b : Monitor g) (commands : List Command) : Chronicle :=
  b.told Deed.run deeds commands

variable {b : Monitor g} {c : Command}

theorem deeds_of_plays (hc : c.plays = true) : b.deeds c = (b.moves c).map .move := by
  cases c with
  | process | loadImage | reset => cases hc
  | _ => rfl

theorem retired_perform_operates (driven : b.retired = none) (hc : c.operates = true) :
    (b.perform c).state.retired = none := by
  cases c with
  | process | reset => exact driven
  | loadImage image =>
    obtain ⟨memory, left⟩ := state_loadImage b image
    rw [left]
    exact driven
  | _ => exact retired_perform driven hc

/-- **The deeds of a command leave the machine that the command leaves**, with the same fault. -/
theorem map_perform_deeds (driven : b.retired = none) (hc : c.operates = true) :
    (b.perform c).map machine = Outcome.each Deed.run (b.deeds c) b.machine := by
  -- a command that is played comes apart into moves, and these are deeds as they are
  have played : c.plays = true →
      (b.perform c).map machine = Outcome.each Deed.run (b.deeds c) b.machine := fun hp => by
    rw [deeds_of_plays hp, Outcome.each_map]
    exact map_perform driven hp
  cases c with
  | process opcode => exact (Traced.map_process _ _).trans (Outcome.each_singleton _ _ _).symm
  | reset => rfl
  | loadImage image =>
    refine Eq.trans ?_ (Outcome.each_singleton _ _ _).symm
    simp only [perform, Monitor.loadImage, Deed.run]
    cases image.fault? with
    | some fault => rfl
    | none =>
      cases Machine.imageFault? image.size with
      | some fault => rfl
      | none => rfl
  | _ => exact played hc

/-- **What every deed keeps of a machine and its chronicle, a run keeps**, whatever faults it
meets. -/
theorem chronicle_keeps {P : Chronicle → Machine → Prop}
    (step : ∀ past d m, P past m → P (past ++ [(d, m)]) (Deed.run d m).state)
    {commands : List Command} (operating : ∀ c ∈ commands, c.operates = true)
    (driven : b.retired = none) {past : Chronicle} (h : P past b.machine) :
    P (past ++ b.chronicle commands) (b.run commands).machine := by
  refine told_keeps step (Q := fun b => b.retired = none) (fun c hc b hb => ?_) driven h
  have left : (b.perform c).state.machine = (Outcome.each Deed.run (b.deeds c) b.machine).state :=
    congrArg Outcome.state (map_perform_deeds hb (operating c hc))
  exact ⟨retired_perform_operates hb (operating c hc), left⟩

/-- What every deed keeps of a machine and its chronicle holds at every moment of a run: of the
machine before each of the deeds, with the deeds before. -/
theorem chronicle_moments {P : Chronicle → Machine → Prop}
    (step : ∀ past d m, P past m → P (past ++ [(d, m)]) (Deed.run d m).state)
    {commands : List Command} (operating : ∀ c ∈ commands, c.operates = true)
    (driven : b.retired = none) (h : P [] b.machine) {before later : Chronicle} {d : Deed}
    {m : Machine} (split : b.chronicle commands = before ++ (d, m) :: later) : P before m :=
  (chronicle_keeps (P := Chronicle.Held P) (fun _ d _ held => held.deed step d) operating driven
    (Chronicle.held_nil h)).2 before d m later split

/-- **A frame of a host that is not paused** is cycles and then one tick, if none of the cycles
faults. -/
theorem chronicle_frame {b : Monitor g} {host : Host} (driven : b.retired = none)
    (hh : b.host = some host) (running : host.paused = false)
    (hf : (b.perform .frame).fault = none) :
    ∃ cycles cycled, b.chronicle [.frame] = cycles ++ [(.move .tick, cycled)] ∧
      cycles.map Prod.fst = List.replicate host.cyclesPerFrame (.move .cycle) ∧
      (b.perform .frame).state.machine = cycled.tick := by
  let ds : List Deed := List.replicate host.cyclesPerFrame (.move .cycle)
  have deeds : b.deeds .frame = ds ++ [.move .tick] := by
    have moves : b.moves .frame = host.frameMoves := congrArg (Option.elim · [] Host.frameMoves) hh
    rw [deeds_of_plays rfl, moves, Host.frameMoves, running, if_neg (by decide), List.map_append,
      List.map_replicate]
    rfl
  have whole := map_perform_deeds driven (c := .frame) rfl
  rw [deeds, Outcome.each_append] at whole
  have told : b.chronicle [.frame] = Outcome.visits Deed.run (ds ++ [.move .tick]) b.machine := by
    rw [← deeds]
    exact List.append_nil _
  cases hc : Outcome.each Deed.run ds b.machine with
  | mk cycled fault =>
    rw [hc] at whole
    cases fault with
    | some f =>
      have fault : (b.perform .frame).fault = some f := congrArg Outcome.fault whole
      exact absurd (hf.symm.trans fault) (by simp)
    | none =>
      refine ⟨Outcome.visits Deed.run ds b.machine, cycled, ?_, ?_, congrArg Outcome.state whole⟩
      · rw [told, Outcome.visits_append, hc, if_pos rfl, Outcome.visits_singleton]
      · exact Outcome.map_fst_visits (congrArg Outcome.fault hc)

end Monitor
end Chip8Vm
