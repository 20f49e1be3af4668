import Chip8Vm.Number.Hex
import Chip8Vm.Outcome

/-!
# The keypad

Sixteen keys, each down from the moment it is pressed until it is released. Only a key that exists
can be pressed or released; asking about any number is allowed, and means the key it is congruent
to modulo 16.
-/

set_option autoImplicit false

namespace Chip8Vm

/-- Which keys are down. -/
structure Keypad where
  down : Vector Bool 16
  deriving DecidableEq

namespace Keypad

/-- A keypad that nobody touches. -/
def released : Keypad := ⟨Vector.replicate 16 false⟩

/-- The keypad with every key up. -/
def releaseAll (p : Keypad) : Keypad := { p with down := Vector.replicate 16 false }

/-- The key of a number, if the keypad has it. -/
def key? (k : Int) : Option (Fin 16) :=
  if h : 0 ≤ k ∧ k < 16 then some ⟨k.toNat, by omega⟩ else none

/-- The keypad with a key down. -/
def press (p : Keypad) (k : Fin 16) : Keypad := ⟨p.down.set k true⟩

/-- The keypad with a key up. -/
def release (p : Keypad) (k : Fin 16) : Keypad := ⟨p.down.set k false⟩

/-- The key that any number means. -/
def keyOf (k : Int) : Fin 16 := ⟨(k % 16).toNat, by omega⟩

/-- Whether the key that a number means is down. -/
def isDown (p : Keypad) (k : Int) : Bool := p.down[keyOf k]

/-- The keys that are down, lowest first. -/
def keysDown (p : Keypad) : List (Fin 16) := (List.finRange 16).filter fun k => p.down[k]

/-- The lowest key that is down. -/
def first? (p : Keypad) : Option (Fin 16) := (List.finRange 16).find? fun k => p.down[k]

/-- The keys that are down, as text. -/
def text (p : Keypad) : String :=
  "KEYS_DOWN:["
    ++ ",".intercalate (p.keysDown.map fun k => String.singleton (Number.upperHexDigit k)) ++ "]"

theorem isDown_press (p : Keypad) (j k : Fin 16) :
    (p.press j).down[k] = if j = k then true else p.down[k] := by
  simp only [press, Fin.getElem_fin, Vector.getElem_set, Fin.ext_iff]

theorem isDown_release (p : Keypad) (j k : Fin 16) :
    (p.release j).down[k] = if j = k then false else p.down[k] := by
  simp only [release, Fin.getElem_fin, Vector.getElem_set, Fin.ext_iff]

end Keypad

end Chip8Vm
