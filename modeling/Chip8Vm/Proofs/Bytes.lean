import Chip8Vm.Number.Bitwise
import Chip8Vm.Number.Byte

/-!
# Bytes among the numbers

Which numbers are bytes, and what the connectives on signed numbers make of them. A mask that is a
byte cuts any number down to a byte, whatever its sign (`land_range`); the other two connectives
need two.
-/

set_option autoImplicit false

namespace Chip8Vm

theorem byte?_of_range {v : Int} (h : 0 ≤ v ∧ v < 256) :
    byte? v = some (UInt8.ofNat v.toNat) := if_pos h

theorem toNat_of_byte? {v : Int} {b : UInt8} (h : byte? v = some b) : (b.toNat : Int) = v := by
  unfold byte? at h
  split at h
  · cases h
    rw [UInt8.toNat_ofNat']
    omega
  · exact absurd h (by simp)

/-- Values that are bytes one and all are the values of those bytes. -/
theorem eq_of_mapM_byte? {values : List Int} {run : List UInt8}
    (h : values.mapM byte? = some run) : values = run.map fun b => (b.toNat : Int) := by
  induction values generalizing run with
  | nil =>
    rw [List.mapM_nil] at h
    cases h
    rfl
  | cons v vs ih =>
    rw [List.mapM_cons] at h
    obtain ⟨b, hb, h⟩ := Option.bind_eq_some_iff.mp h
    obtain ⟨bs, hbs, h⟩ := Option.bind_eq_some_iff.mp h
    cases h
    rw [List.map_cons, ← ih hbs, toNat_of_byte? hb]

theorem byte?_toNat (b : UInt8) : byte? (b.toNat : Int) = some b := by
  have := b.toNat_lt
  rw [byte?_of_range (by omega), Int.toNat_natCast, UInt8.ofNat_toNat]

/-- What can be read back one by one can be read back as a list. -/
theorem mapM_of_leftInverse {α β : Type} {write : α → β} {read : β → Option α}
    (h : ∀ a, read (write a) = some a) (as : List α) : (as.map write).mapM read = some as := by
  have all : read ∘ write = pure := funext h
  rw [List.mapM_map, all, List.mapM_pure, List.map_id']
  rfl

/-- Bytes taken as numbers are found to be those bytes again. -/
theorem mapM_byte?_toNat (run : List UInt8) :
    (run.map fun b => (b.toNat : Int)).mapM byte? = some run :=
  mapM_of_leftInverse byte?_toNat run

/-- One value that is no byte keeps a list from being read as bytes. -/
theorem mapM_byte?_eq_none_iff {values : List Int} :
    values.mapM byte? = none ↔ ∃ v ∈ values, byte? v = none := by
  induction values with
  | nil => simp
  | cons v vs ih =>
    simp only [List.mapM_cons, List.mem_cons, exists_eq_or_imp, ← ih]
    cases byte? v with
    | none => simp
    | some b => cases vs.mapM byte? <;> simp

/-! ## Connectives -/

namespace Number

/-- A mask of a byte leaves a byte of any number at all. -/
theorem land_range (n : Int) {m : Int} (hm : 0 ≤ m ∧ m < 256) :
    0 ≤ land n m ∧ land n m < 256 := by
  obtain ⟨b, rfl⟩ := Int.eq_ofNat_of_zero_le hm.1
  have hb : b < 2 ^ 8 := by omega
  have bound : ∀ c : Nat, c < 2 ^ 8 → (0 : Int) ≤ c ∧ (c : Int) < 256 := by omega
  cases n with
  | ofNat a => exact bound _ (Nat.and_lt_two_pow a hb)
  | negSucc a => exact bound _ (Nat.xor_lt_two_pow hb (Nat.lt_of_le_of_lt Nat.and_le_left hb))

/-- A mask leaves no number that is larger than the mask. -/
theorem land_le (n : Int) {m : Int} (hm : 0 ≤ m) : land n m ≤ m := by
  obtain ⟨b, rfl⟩ := Int.eq_ofNat_of_zero_le hm
  cases n with
  | ofNat a => exact Int.ofNat_le.mpr Nat.and_le_right
  | negSucc a =>
    -- the bits of the mask that are not taken away are bits of the mask
    have bits : b ^^^ (b &&& a) = b &&& (b ^^^ (b &&& a)) := by
      refine Nat.eq_of_testBit_eq fun i => ?_
      simp only [Nat.testBit_and, Nat.testBit_xor]
      cases b.testBit i <;> rfl
    refine Int.ofNat_le.mpr ?_
    rw [bits]
    exact Nat.and_le_left

theorem lor_range {a b : Int} (ha : 0 ≤ a ∧ a < 256) (hb : 0 ≤ b ∧ b < 256) :
    0 ≤ lor a b ∧ lor a b < 256 := by
  obtain ⟨m, rfl⟩ := Int.eq_ofNat_of_zero_le ha.1
  obtain ⟨n, rfl⟩ := Int.eq_ofNat_of_zero_le hb.1
  rw [lor_natCast]
  have := Nat.or_lt_two_pow (x := m) (y := n) (n := 8) (by omega) (by omega)
  omega

theorem lxor_range {a b : Int} (ha : 0 ≤ a ∧ a < 256) (hb : 0 ≤ b ∧ b < 256) :
    0 ≤ lxor a b ∧ lxor a b < 256 := by
  obtain ⟨m, rfl⟩ := Int.eq_ofNat_of_zero_le ha.1
  obtain ⟨n, rfl⟩ := Int.eq_ofNat_of_zero_le hb.1
  rw [lxor_natCast]
  have := Nat.xor_lt_two_pow (x := m) (y := n) (n := 8) (by omega) (by omega)
  omega

end Number

end Chip8Vm
