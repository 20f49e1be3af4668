import Mathlib.Data.Fin.Tuple.Basic
import Chip8Vm.Keypad

/-!
# Single keys and the lowest key

A key is down or up by itself (`isDown_elim`). `first?` searches the keys from zero on. What it
finds is the key that is down and has none down below it (`first?_eq_some_iff`), and it finds
nothing exactly when every key is up (`first?_eq_none_iff`), so that whoever waits for a key can be
spoken of by its keys alone.
-/

set_option autoImplicit false

namespace Chip8Vm.Keypad

theorem keyOf_natCast (k : Fin 16) : keyOf (k.val : Int) = k := by
  refine Fin.ext ?_
  show ((k.val : Int) % 16).toNat = k.val
  omega

theorem key?_natCast (k : Fin 16) : key? (k.val : Int) = some k :=
  dif_pos (by omega)

theorem key?_eq_some_iff {k : Int} {j : Fin 16} : key? k = some j ↔ k = j.val := by
  unfold key?
  by_cases h : 0 ≤ k ∧ k < 16
  · rw [dif_pos h, Option.some_inj, Fin.ext_iff]
    show k.toNat = j.val ↔ k = j.val
    omega
  · rw [dif_neg h]
    refine iff_of_false (fun hn => absurd hn (by simp)) fun hk => ?_
    omega

theorem isDown_released (k : Int) : released.isDown k = false :=
  Vector.getElem_replicate (keyOf k).isLt

/-- Whatever leaves the key of a number, if it is one, down or up and the others alone. -/
theorem isDown_elim {p : Keypad} {touch : Fin 16 → Keypad} {down : Bool}
    (ht : ∀ i k, (touch i).isDown k = if i = keyOf k then down else p.isDown k) (k : Int)
    (j : Fin 16) : ((key? k).elim p touch).isDown j
      = (if k = (j.val : Int) then some down else none).getD (p.isDown j) := by
  simp only [← key?_eq_some_iff]
  cases key? k with
  | none => rfl
  | some i =>
    refine (ht i j).trans ?_
    simp only [keyOf_natCast, Option.some_inj]
    split <;> rfl

theorem first?_eq_none_iff {p : Keypad} :
    p.first? = none ↔ ∀ k : Fin 16, p.isDown k = false := by
  unfold first? isDown
  rw [← Fin.find?_eq_find?_finRange, Fin.find?_eq_none_iff]
  simp only [keyOf_natCast]

theorem first?_eq_some_iff {p : Keypad} {k : Fin 16} :
    p.first? = some k ↔ p.isDown k = true ∧ ∀ j < k, p.isDown j = false := by
  unfold first? isDown
  rw [← Fin.find?_eq_find?_finRange, Fin.find?_eq_some_iff]
  simp only [keyOf_natCast]

end Chip8Vm.Keypad
