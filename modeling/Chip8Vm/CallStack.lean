import Chip8Vm.Outcome
import Chip8Vm.Text.Listed

/-!
# The call stack

Sixteen slots and a pointer to the first free one. A slot at or above the pointer keeps what it
held but means nothing: `live` is the stack as everyone else sees it, oldest address first, and the
two lemmas say what a push and a pop do to that view.
-/

set_option autoImplicit false

namespace Chip8Vm

/-- The slots, and how many of them are taken. -/
structure CallStack where
  slots : Vector Int 16
  pointer : Fin 17
  deriving DecidableEq

namespace CallStack

/-- The stack with no slot taken. -/
def empty : CallStack := ⟨Vector.replicate 16 0, 0⟩

/-- The stack with every slot cleared and none taken. -/
def reset (s : CallStack) : CallStack := { s with slots := Vector.replicate 16 0, pointer := 0 }

/-- The addresses on the stack, oldest first. -/
def live (s : CallStack) : List Int := s.slots.toList.take s.pointer

/-- Put an address on top. -/
def push (address : Int) (s : CallStack) : Outcome CallStack :=
  if h : s.pointer.val < 16 then
    .done ⟨s.slots.set s.pointer address h, ⟨s.pointer + 1, by omega⟩⟩
  else .cut s .stackOverflow

/-- The address on top and the stack without it, if there is one. -/
def pop? (s : CallStack) : Option (Int × CallStack) :=
  if h : s.pointer.val = 0 then none
  else
    have : s.pointer.val - 1 < 16 := by omega
    some (s.slots[s.pointer.val - 1], ⟨s.slots, ⟨s.pointer - 1, by omega⟩⟩)

/-- The live addresses as text. -/
def text (s : CallStack) : String := Text.listed s.live

@[simp] theorem live_empty : empty.live = [] := rfl

@[simp] theorem length_live (s : CallStack) : s.live.length = s.pointer := by
  simp only [live, List.length_take, Vector.length_toList]; omega

theorem live_push {s : CallStack} {a : Int} (h : s.pointer.val < 16) :
    (s.push a).fault = none ∧ (s.push a).state.live = s.live ++ [a] := by
  unfold push
  rw [dif_pos h]
  refine ⟨rfl, ?_⟩
  simp only [Outcome.done, live]
  rw [List.take_succ_eq_append_getElem (by simpa using h)]
  simp only [Vector.toList_set, List.take_set_of_le (Nat.le_refl _), List.getElem_set_self]

theorem pop?_eq_none_iff {s : CallStack} : s.pop? = none ↔ s.live = [] := by
  rw [← List.length_eq_zero_iff, length_live]
  unfold pop?; split <;> simp_all

theorem live_pop {s s' : CallStack} {a : Int} (h : s.pop? = some (a, s')) :
    s.live = s'.live ++ [a] := by
  unfold pop? at h
  split at h
  · cases h
  · cases h
    have top : s.pointer.val - 1 < s.slots.toList.length := by simp; omega
    have eq := List.take_succ_eq_append_getElem top
    rw [show s.pointer.val - 1 + 1 = s.pointer.val by omega] at eq
    simpa [live] using eq

end CallStack

end Chip8Vm
