import Chip8Vm.Host
import Chip8Vm.Proofs.Process

/-!
# Moves

Five things can be done to a running machine from outside: a cycle, a tick of the timers, and the
three changes to the keypad. Everything a host does comes down to them. A frame is some cycles and
a tick, an event is one move or none, and the log apart, the machine that a host leaves is the one
that its moves leave, up to the first fault (`map_deliver`, `map_frame`). Of the five only a cycle
runs the program; the others are seen in the timers and the keypad alone (`run_idle`).

So what every move keeps, a host keeps, and what happened in a run can be told move by move.
-/

set_option autoImplicit false

namespace Chip8Vm

/-- Something done to a running machine. -/
inductive Move where
  | cycle
  | tick
  | press (key : Int)
  | release (key : Int)
  | releaseAll
  deriving DecidableEq

namespace Move

/-- Do a move. -/
def run : Move → Machine → Outcome Machine
  | cycle, m => m.cycle
  | tick, m => .done m.tick
  | press k, m =>
    match Keypad.key? k with
    | some key => .done { m with keypad := m.keypad.press key }
    | none => .cut m (.noSuchKey k)
  | release k, m =>
    match Keypad.key? k with
    | some key => .done { m with keypad := m.keypad.release key }
    | none => .cut m (.noSuchKey k)
  | releaseAll, m => .done { m with keypad := .released }

end Move

/-- The parts of a machine that change without the program. -/
@[ext] structure Controls where
  delay : Int
  sound : Int
  keypad : Keypad

namespace Machine

def controls (m : Machine) : Controls := ⟨m.delay, m.sound, m.keypad⟩

/-- The machine with other timers and another keypad. -/
def withControls (m : Machine) (c : Controls) : Machine :=
  { m with delay := c.delay, sound := c.sound, keypad := c.keypad }

end Machine

/-- **A move that is no cycle** is seen in the controls alone. -/
theorem Move.run_idle {move : Move} (hm : move ≠ .cycle) (m : Machine) :
    (move.run m).state = m.withControls (move.run m).state.controls := by
  cases move with
  | cycle => exact absurd rfl hm
  | tick | releaseAll => rfl
  | press k =>
    simp only [run]
    cases Keypad.key? k with
    | none => rfl
    | some key => rfl
  | release k =>
    simp only [run]
    cases Keypad.key? k with
    | none => rfl
    | some key => rfl

namespace Traced

theorem map_press (k : Int) (t : Traced) :
    (t.press k).map machine = (Move.press k).run t.machine := by
  simp only [press, Move.run]
  cases Keypad.key? k with
  | none => rfl
  | some key => rfl

theorem map_release (k : Int) (t : Traced) :
    (t.release k).map machine = (Move.release k).run t.machine := by
  simp only [release, Move.run]
  cases Keypad.key? k with
  | none => rfl
  | some key => rfl

end Traced

namespace Host

/-- The moves that an event comes down to. -/
def movesOn (h : Host) : Event → List Move
  | .keyDown key =>
    if key = .character stepCharacter ∧ h.paused then [.cycle]
    else key.padKey?.toList.map fun k => .press k.val
  | .keyUp key => key.padKey?.toList.map fun k => .release k.val
  | .focusLost => [.releaseAll]
  | .quit | .other => []

/-- The moves of one frame. -/
def frameMoves (h : Host) : List Move :=
  if h.paused then [] else List.replicate h.cyclesPerFrame .cycle ++ [.tick]

/-- All that an event can come down to: something is told, the machine does a step, a key goes down
or up, all of them go up, or nothing. -/
theorem deliver_cases (h : Host) (e : Event) :
    (∃ entry : Entry, entry.level = .info ∧
      ∀ t, h.deliver e t = .done { t with log := t.log.add entry }) ∨
    (∀ t, h.deliver e t = step t) ∨ (∃ k, ∀ t, h.deliver e t = t.press k) ∨
    (∃ k, ∀ t, h.deliver e t = t.release k) ∨ (∀ t, h.deliver e t = .done t.releaseAll) ∨
    ∀ t, h.deliver e t = .done t := by
  cases e with
  | quit | other => exact .inr (.inr (.inr (.inr (.inr fun _ => rfl))))
  | focusLost => exact .inr (.inr (.inr (.inr (.inl fun _ => rfl))))
  | keyUp key =>
    cases hk : key.padKey? with
    | none => exact .inr (.inr (.inr (.inr (.inr fun t => by simp only [deliver, hk]))))
    | some k => exact .inr (.inr (.inr (.inl ⟨k.val, fun t => by simp only [deliver, hk]⟩)))
  | keyDown key =>
    cases key with
    | space =>
      refine .inl ⟨if h.paused then .resumed else .paused, ?_, fun _ => rfl⟩
      cases h.paused <;> rfl
    | escape | other => exact .inr (.inr (.inr (.inr (.inr fun _ => rfl))))
    | character c =>
      by_cases hstep : HostKey.character c = .character stepCharacter ∧ h.paused
      · exact .inr (.inl fun t => if_pos hstep)
      · have other : ∀ t, h.deliver (.keyDown (.character c)) t = _ := fun t => if_neg hstep
        cases hk : (HostKey.character c).padKey? with
        | none =>
          refine .inr (.inr (.inr (.inr (.inr fun t => ?_))))
          rw [other, hk]
        | some k =>
          refine .inr (.inr (.inl ⟨k.val, fun t => ?_⟩))
          rw [other, hk]

/-- Telling what came of a step does nothing to the machine. -/
theorem map_step (t : Traced) : (step t).map Traced.machine = t.machine.cycle := by
  unfold step
  rw [Outcome.map_andThen (k := .done) (fun _ => rfl), Outcome.andThen_done]
  exact Traced.map_cycle t

theorem map_deliver (h : Host) (e : Event) (t : Traced) :
    (h.deliver e t).map Traced.machine = Outcome.each Move.run (h.movesOn e) t.machine := by
  -- a key that is on the keypad is one move, and one that is not is none
  have pressed : ∀ k : Option (Fin 16),
      (match k with
        | some k => t.press k.val
        | none => .done t).map Traced.machine
        = Outcome.each Move.run (k.toList.map fun k => .press k.val) t.machine := by
    intro k
    cases k with
    | none => rfl
    | some k => exact (Traced.map_press k t).trans (Outcome.each_singleton _ _ _).symm
  cases e with
  | quit => rfl
  | other => rfl
  | focusLost => rfl
  | keyUp key =>
    simp only [deliver, movesOn]
    cases key.padKey? with
    | none => rfl
    | some k => exact (Traced.map_release k t).trans (Outcome.each_singleton _ _ _).symm
  | keyDown key =>
    cases key with
    | escape => exact pressed none
    | space => rfl
    | other => exact pressed none
    | character c =>
      unfold deliver movesOn
      by_cases hstep : HostKey.character c = .character stepCharacter ∧ h.paused
      · simp only [if_pos hstep]
        exact (map_step t).trans (Outcome.each_singleton Move.run .cycle _).symm
      · simp only [if_neg hstep]
        exact pressed _

theorem map_frame (h : Host) (t : Traced) :
    (h.frame t).map Traced.machine = Outcome.each Move.run h.frameMoves t.machine := by
  unfold frame frameMoves
  by_cases hp : h.paused
  · simp only [if_pos hp]
    rfl
  · simp only [if_neg hp]
    rw [Outcome.each_append, Outcome.map_andThen (k := Outcome.each Move.run [.tick]),
      Outcome.times_map (k := Move.run) (a := .cycle)]
    · exact Traced.map_cycle
    · exact fun _ => rfl

end Host
end Chip8Vm
