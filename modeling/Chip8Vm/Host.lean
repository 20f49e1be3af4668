import Chip8Vm.Machine.Cycle
import Chip8Vm.Machine.Dump

/-!
# The host

The host drives a machine in frames, a number of cycles and one tick of the timers each, and hands
it what the user does. A paused host runs no frames, but one key lets the machine do one instruction
at a time. What an event does to the host depends on the host alone (`Host.after`), and what it does
to the machine on whether the host was paused when it came (`Host.deliver`).
-/

set_option autoImplicit false

namespace Chip8Vm

/-- A key of the user's keyboard. -/
inductive HostKey where
  | escape
  | space
  | character (c : Char)
  /-- A key that means nothing here. -/
  | other
  deriving DecidableEq

/-- Something that happens to a host. -/
inductive Event where
  | quit
  | keyDown (key : HostKey)
  | keyUp (key : HostKey)
  | focusLost
  /-- An event that means nothing here. -/
  | other
  deriving DecidableEq

/-- The keypad laid over the left of the keyboard: four rows of four, the keypad's rows being
`123C`, `456D`, `789E` and `A0BF`. -/
def keyMap : List (Char × Fin 16) :=
  let keys : List (Char × Int) :=
    [ ('1', 0x1), ('2', 0x2), ('3', 0x3), ('4', 0xC),
      ('q', 0x4), ('w', 0x5), ('e', 0x6), ('r', 0xD),
      ('a', 0x7), ('s', 0x8), ('d', 0x9), ('f', 0xE),
      ('z', 0xA), ('x', 0x0), ('c', 0xB), ('v', 0xF) ]
  keys.map (Prod.map id Keypad.keyOf)

/-- The character that steps a paused machine. -/
def stepCharacter : Char := 'n'

/-- The key of the keypad that a key of the keyboard stands for. -/
def HostKey.padKey? : HostKey → Option (Fin 16)
  | character c => (keyMap.find? fun entry => entry.1 == c).map Prod.snd
  | _ => none

/-- Every key of the keypad is on the keyboard, and once. -/
theorem HostKey.existsUnique_padKey? (j : Fin 16) :
    ∃ key : HostKey,
      key.padKey? = some j ∧ ∀ key' : HostKey, key'.padKey? = some j → key' = key := by
  have unique : ∀ entry ∈ keyMap, ∀ other ∈ keyMap, entry.2 = other.2 → entry.1 = other.1 := by
    decide
  have all : ∀ j : Fin 16, ∃ entry ∈ keyMap, entry.2 = j ∧
      (character entry.1).padKey? = some j := by decide
  obtain ⟨entry, mem, rfl, stands⟩ := all j
  refine ⟨.character entry.1, stands, fun key hk => ?_⟩
  cases key with
  | character c =>
    obtain ⟨other, found, same⟩ := Option.map_eq_some_iff.mp hk
    have named : (other.1 == c) = true :=
      List.find?_some (p := fun e : Char × Fin 16 => e.1 == c) found
    rw [← beq_iff_eq.mp named, unique other (List.mem_of_find?_eq_some found) entry mem same]
  | escape | space | other => cases hk

/-- Whether a host goes on, whether it runs the machine, and how fast. -/
structure Host where
  running : Bool
  paused : Bool
  cyclesPerFrame : Nat
  deriving DecidableEq

namespace Host

/-- Instructions executed in a second unless another speed is asked for. -/
def defaultSpeed : Int := 600

/-- A host for so many instructions in a second, at least one in a frame. -/
def make (speed : Int) (paused : Bool) : Host where
  running := true
  paused := paused
  cyclesPerFrame := (max 1 (speed / frameRate)).toNat

/-- The host after an event. -/
def after (h : Host) : Event → Host
  | .quit | .keyDown .escape => { h with running := false }
  | .keyDown .space => { h with paused := !h.paused }
  | _ => h

/-- Execute one instruction and tell what came of it. -/
def step (t : Traced) : Outcome Traced :=
  t.cycle.andThen fun t => .done { t with log := t.log.add (.stepped t.machine.pc t.machine.dump) }

/-- What an event does to the machine of a host. -/
def deliver (h : Host) (e : Event) (t : Traced) : Outcome Traced :=
  match e with
  | .keyDown .space => .done { t with log := t.log.add (if h.paused then .resumed else .paused) }
  | .keyDown key =>
    if key = .character stepCharacter ∧ h.paused then step t
    else
      match key.padKey? with
      | some k => t.press k.val
      | none => .done t
  | .keyUp key =>
    match key.padKey? with
    | some k => t.release k.val
    | none => .done t
  | .focusLost => .done t.releaseAll
  | .quit | .other => .done t

/-- One frame: the cycles, then a tick of the timers, unless paused. -/
def frame (h : Host) (t : Traced) : Outcome Traced :=
  if h.paused then .done t
  else (Outcome.times Traced.cycle h.cyclesPerFrame t).andThen fun t => .done t.tick

end Host

end Chip8Vm
