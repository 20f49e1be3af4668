import Mathlib.Data.List.Induction
import Chip8Vm.Proofs.Masks
import Chip8Vm.Proofs.Ownership

/-!
# Cells and what was last put into them

Any number is an address, and two that agree modulo 4096 are addresses of one cell, which is the one
that a mask of twelve bits leaves of either (`cell_eq_land`). A memory may have been lengthened, but
what lies behind the cells has no address.

Values are put at addresses one after the other, and a value that is no byte is refused and leaves
everything as it was. So all that an address can be asked is what was put into its cell last:

> **an address reads the value of the last assignment that got into its cell, and if there is none,
> the byte that was there at first** (`assigned_assignAll`), whatever was refused in between.
-/

set_option autoImplicit false

namespace Chip8Vm

/-- A value to be put at an address. -/
structure Assignment where
  address : Int
  value : Int

/-- The value is one that a cell can hold. -/
def Assignment.IsByte (w : Assignment) : Prop := 0 ≤ w.value ∧ w.value < 256

instance (w : Assignment) : Decidable w.IsByte := inferInstanceAs (Decidable (_ ∧ _))

/-- The assignment gets into the cell of an address. -/
structure Assignment.Enters (w : Assignment) (b : Int) : Prop where
  cell : w.address % 4096 = b % 4096
  byte : w.IsByte

namespace Memory

variable {m m' : Memory} {past : List Assignment} {w : Assignment}

theorem cell_eq_iff {a b : Int} : cell a = cell b ↔ a % 4096 = b % 4096 := by
  unfold cell
  omega

/-! ## One assignment -/

/-- Make an assignment. -/
def assign (m : Memory) (w : Assignment) : Outcome Memory := m.write w.address w.value

theorem assign_of_byte (h : w.IsByte) (m : Memory) :
    m.assign w = .done (m.put w.address (UInt8.ofNat w.value.toNat)) := by
  rw [assign, write, byte?_of_range h]

theorem assign_of_not_byte (h : ¬ w.IsByte) (m : Memory) : m.assign w = .cut m .notAByte := by
  rw [assign, write, byte?_eq_none_iff.mpr h]

/-- An address reads the value of an assignment that gets into its cell. -/
theorem read_assign_of_enters {b : Int} (h : w.Enters b) (m : Memory) :
    (((m.assign w).state.read b).toNat : Int) = w.value := by
  rw [assign_of_byte h.byte, Outcome.state_done, read_put, if_pos (cell_eq_iff.mpr h.cell)]
  exact toNat_of_byte? (byte?_of_range h.byte)

/-- Of any other assignment it takes no notice. -/
theorem read_assign_of_not_enters {b : Int} (h : ¬ w.Enters b) (m : Memory) :
    (m.assign w).state.read b = m.read b := by
  by_cases byte : w.IsByte
  · have apart : cell w.address ≠ cell b := fun same => h ⟨cell_eq_iff.mp same, byte⟩
    rw [assign_of_byte byte, Outcome.state_done, read_put, if_neg apart]
  · rw [assign_of_not_byte byte, Outcome.state_cut]

/-- What lies behind the cells stays as it is. -/
theorem getElem?_assign {place : Nat} (beyond : 4096 ≤ place) (m : Memory) (w : Assignment) :
    (m.assign w).state.bytes[place]? = m.bytes[place]? := by
  by_cases byte : w.IsByte
  · have apart : place ≠ cell w.address :=
      Nat.ne_of_gt (Nat.lt_of_lt_of_le (cell_lt w.address) beyond)
    rw [assign_of_byte byte, Outcome.state_done, getElem?_put apart]
  · rw [assign_of_not_byte byte, Outcome.state_cut]

/-! ## Any number of them -/

/-- Make one assignment after the other, passing over those that are refused. -/
def assignAll (m : Memory) (past : List Assignment) : Memory :=
  past.foldl (fun m w => (m.assign w).state) m

theorem assignAll_append (m : Memory) (past : List Assignment) (w : Assignment) :
    m.assignAll (past ++ [w]) = ((m.assignAll past).assign w).state := by
  rw [assignAll, List.foldl_append]
  rfl

/-- What assignments have made of a memory. -/
structure Assigned (m : Memory) (past : List Assignment) (m' : Memory) : Prop where
  size : m'.bytes.size = m.bytes.size
  latest : ∀ b : Int,
    (∃ before w after, past = before ++ w :: after ∧ w.Enters b ∧ (∀ w' ∈ after, ¬ w'.Enters b)
      ∧ ((m'.read b).toNat : Int) = w.value) ∨
    ((∀ w ∈ past, ¬ w.Enters b) ∧ m.bytes[(b % 4096).toNat]? = some (m'.read b))
  beyond : ∀ place, 4096 ≤ place → m'.bytes[place]? = m.bytes[place]?

theorem assigned_nil (m : Memory) : m.Assigned [] m where
  size := rfl
  latest b := .inr ⟨fun _ hw => absurd hw List.not_mem_nil, m.getElem?_cell b⟩
  beyond _ _ := rfl

/-- **One more assignment** is the last one for the addresses whose cell it gets into, and leaves
what was the last one for all others. -/
theorem Assigned.assign (h : m.Assigned past m') (w : Assignment) :
    m.Assigned (past ++ [w]) (m'.assign w).state where
  size := (size_write m' w.address w.value).trans h.size
  latest b := by
    by_cases enters : w.Enters b
    · exact .inl ⟨past, w, [], rfl, enters, fun _ hw => absurd hw List.not_mem_nil,
        read_assign_of_enters enters m'⟩
    · rw [read_assign_of_not_enters enters]
      rcases h.latest b with ⟨before, w', after, rfl, enters', later, value⟩ | ⟨none, initial⟩
      · refine .inl ⟨before, w', after ++ [w], by simp, enters', ?_, value⟩
        exact List.forall_mem_append.mpr ⟨later, List.forall_mem_singleton.mpr enters⟩
      · refine .inr ⟨?_, initial⟩
        exact List.forall_mem_append.mpr ⟨none, List.forall_mem_singleton.mpr enters⟩
  beyond place beyond := (getElem?_assign beyond m' w).trans (h.beyond place beyond)

/-- What assignments make of a memory. The induction is from the other end of the list, since it is
the newest assignment that counts. -/
theorem assigned_assignAll (m : Memory) (past : List Assignment) :
    m.Assigned past (m.assignAll past) := by
  induction past using List.reverseRecOn with
  | nil => exact assigned_nil m
  | append_singleton past w ih =>
    rw [assignAll_append]
    exact ih.assign w

/-- **The memory is an array over addresses modulo 4096.** However many assignments were made and
whatever became of them, the size is the same, every address reads what its cell was last given, and
what has no address is untouched; every address has its place in the memory; and the next assignment
is carried out if its value is a byte and otherwise refused, with nothing changed. As every
assignment of a sequence is the next one after some others, this is said of all of them. -/
theorem assignAll_array (m : Memory) (assignments : List Assignment) :
    let reached := m.assignAll assignments
    m.Assigned assignments reached ∧
    (∀ b : Int, 0 ≤ Number.land b 0xFFF
      ∧ reached.bytes[(Number.land b 0xFFF).toNat]? = some (reached.read b)) ∧
    ∀ w : Assignment, (w.IsByte → ∃ m', reached.assign w = .done m')
      ∧ (¬ w.IsByte → reached.assign w = .cut reached .notAByte) := by
  intro reached
  refine ⟨m.assigned_assignAll assignments, reached.getElem?_land, fun w => ⟨fun byte => ?_, ?_⟩⟩
  · exact ⟨_, assign_of_byte byte reached⟩
  · exact fun noByte => assign_of_not_byte noByte reached

/-- Three assignments to a memory that has been lengthened. The second one is for the cell of the
first but is no byte, and the third is for the first cell and not for the place behind the last. -/
theorem assignAll_array_lengthened :
    let m := blank.splice 4096 [7]
    let reached := m.assignAll [⟨-1, 9⟩, ⟨0x1FFF, 300⟩, ⟨0x1000, 5⟩]
    (reached.read 0x2FFF).toNat = 9 ∧ reached.bytes[4096]? = m.bytes[4096]?
      ∧ ¬ Assignment.IsByte ⟨0xFFF, -1⟩ ∧ reached.assign ⟨0xFFF, -1⟩ = .cut reached .notAByte := by
  intro m reached
  obtain ⟨assigned, -, next⟩ := assignAll_array m [⟨-1, 9⟩, ⟨0x1FFF, 300⟩, ⟨0x1000, 5⟩]
  have noByte : ¬ Assignment.IsByte ⟨0xFFF, -1⟩ := by decide
  refine ⟨?_, assigned.beyond 4096 (Nat.le_refl _), noByte, (next _).2 noByte⟩
  rcases assigned.latest 0x2FFF with ⟨before, w, after, split, enters, -, value⟩ | ⟨none, -⟩
  · -- of the three only the first gets into the cell
    have made : w ∈ before ++ w :: after := List.mem_append_right _ List.mem_cons_self
    rw [← split] at made
    simp only [List.mem_cons, List.not_mem_nil, or_false] at made
    rcases made with rfl | rfl | rfl
    · exact Int.ofNat_inj.mp value
    · exact absurd enters.byte (by decide)
    · exact absurd enters.cell (by decide)
  · exact absurd ⟨by decide, by decide⟩ (none ⟨-1, 9⟩ List.mem_cons_self)

end Memory
end Chip8Vm
