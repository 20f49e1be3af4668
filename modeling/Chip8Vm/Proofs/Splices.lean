import Chip8Vm.Proofs.Cells
import Chip8Vm.Proofs.Loading

/-!
# Data laid anywhere

Data is laid over the stretch from one bound to another, and neither bound is wrapped: each is
counted from the end if it is below zero and then clipped to the array. That is done to the two one
by one, and so the stretch may come out shorter than the data. It does where the data would hang
over an end of the array, and also where its first place is counted from the end and the place
behind its last one is zero, which is the start.

> **A stretch is never longer than the data** (`stretchEnd_le`), so no memory gets shorter
> (`size_le_layAll`); **and it is as long exactly if the data is within the array, all of it counted
> from the start or all of it from the end** (`stretch_whole_iff`).

Otherwise the memory is lengthened by what the stretch is short of the data. Either way the cells
that addresses mean stay within it.
-/

set_option autoImplicit false

namespace Chip8Vm
namespace Memory

variable {m : Memory} {a : Int} {run : List UInt8}

/-! ## Stretches -/

/-- Data of a length is within the array, counted from its start or from its end. Data that ends at
the end is not counted from there: the place behind it would be zero, and that is the start. -/
def Within (size : Nat) (a : Int) (length : Nat) : Prop :=
  length = 0 ∨ (0 ≤ a ∧ a + length ≤ size) ∨ (-(size : Int) ≤ a ∧ a + length < 0)

/-- Where data at an address begins, counted from the start. -/
def origin (size : Nat) (a : Int) : Int := if a < 0 then size + a else a

/-- A bound that is counted from the end is one that is counted from the start. -/
theorem bound_of_neg {size : Nat} {i : Int} (inside : -(size : Int) ≤ i) (before : i < 0) :
    bound size i = bound size (size + i) := by
  rw [bound, bound, if_pos before, if_neg (by omega)]
  omega

theorem stretch_whole_iff {size length : Nat} :
    stretchEnd size a length = bound size a + length ↔ Within size a length := by
  unfold stretchEnd bound Within
  split <;> split <;> omega

theorem stretchEnd_le_size (size : Nat) (a : Int) (length : Nat) :
    stretchEnd size a length ≤ size :=
  Nat.max_le.mpr ⟨bound_le size a, bound_le size (a + length)⟩

/-! ## One run of bytes -/

/-- The size is that of the data and of what it is not laid over. -/
theorem size_splice_add (m : Memory) (a : Int) (run : List UInt8) :
    (m.splice a run).bytes.size + stretchEnd m.bytes.size a run.length
      = m.bytes.size + bound m.bytes.size a + run.length := by
  have first := bound_le m.bytes.size a
  have last := stretchEnd_le_size m.bytes.size a run.length
  simp only [← Array.length_toList, toList_splice, List.length_append, List.length_take,
    List.length_drop]
  simp only [Array.length_toList]
  omega

theorem size_le_splice (m : Memory) (a : Int) (run : List UInt8) :
    m.bytes.size ≤ (m.splice a run).bytes.size := by
  have size := size_splice_add m a run
  have short := stretchEnd_le m.bytes.size run.length a
  omega

theorem size_splice_eq_iff :
    (m.splice a run).bytes.size = m.bytes.size ↔ Within m.bytes.size a run.length := by
  rw [← stretch_whole_iff]
  have size := size_splice_add m a run
  omega

/-- Data that is counted from the end all through might as well be counted from the start. -/
theorem splice_of_neg (inside : -(m.bytes.size : Int) ≤ a) (before : a + run.length < 0) :
    m.splice a run = m.splice (m.bytes.size + a) run := by
  have first := bound_of_neg inside (by omega)
  have last : stretchEnd m.bytes.size a run.length
      = stretchEnd m.bytes.size (m.bytes.size + a) run.length := by
    rw [stretchEnd, stretchEnd, first, bound_of_neg (by omega) before, Int.add_assoc]
  simp only [splice, exchange, first, last]

theorem splice_nil (m : Memory) (a : Int) : m.splice a [] = m := by
  have empty : stretchEnd m.bytes.size a 0 = bound m.bytes.size a := by
    rw [stretch_whole_iff.mpr (.inl rfl), Nat.add_zero]
  apply Memory.ext
  apply Array.toList_inj.mp
  rw [toList_splice, List.append_nil, List.length_nil, empty, List.take_append_drop]

/-- Data that is within the array stands at its place, and every other byte stays. -/
theorem getElem?_splice_of_within (h : Within m.bytes.size a run.length) (place : Nat) :
    (m.splice a run).bytes[place]? =
      if origin m.bytes.size a ≤ place ∧ place < origin m.bytes.size a + run.length then
        run[place - (origin m.bytes.size a).toNat]?
      else m.bytes[place]? := by
  rcases h with empty | ⟨start, inside⟩ | ⟨inside, before⟩
  · have nil := List.length_eq_zero_iff.mp empty
    rw [nil, splice_nil, if_neg (by simp)]
  · have here : origin m.bytes.size a = a := if_neg (by omega)
    rw [here]
    exact getElem?_splice start inside place
  · have here : origin m.bytes.size a = m.bytes.size + a := if_pos (by omega)
    rw [splice_of_neg inside before, here]
    exact getElem?_splice (by omega) (by omega) place

/-- What laying a run of bytes at an address has made of a memory. -/
structure Laid (m : Memory) (a : Int) (run : List UInt8) (m' : Memory) : Prop where
  block : ∃ first last, first ≤ last ∧ last ≤ m.bytes.size ∧
    m'.bytes.toList = m.bytes.toList.take first ++ run ++ m.bytes.toList.drop last
  size_le : m.bytes.size ≤ m'.bytes.size
  size_iff : m'.bytes.size = m.bytes.size ↔ Within m.bytes.size a run.length
  place : Within m.bytes.size a run.length → ∀ place : Nat, m'.bytes[place]? =
    if origin m.bytes.size a ≤ place ∧ place < origin m.bytes.size a + run.length then
      run[place - (origin m.bytes.size a).toNat]?
    else m.bytes[place]?

theorem laid_splice (m : Memory) (a : Int) (run : List UInt8) :
    m.Laid a run (m.splice a run) where
  block := ⟨_, _, Nat.le_max_left _ _, stretchEnd_le_size _ _ _, toList_splice m a run⟩
  size_le := size_le_splice m a run
  size_iff := size_splice_eq_iff
  place := getElem?_splice_of_within

/-! ## Any data, any number of times -/

theorem load_bytes (m : Memory) (a : Int) (run : List UInt8) :
    m.load a (run.map fun b => (b.toNat : Int)) = .done (m.splice a run) := by
  rw [load, mapM_byte?_toNat]

theorem load_refused {data : List Int} (h : ∃ v ∈ data, ¬(0 ≤ v ∧ v < 256)) (m : Memory)
    (a : Int) : m.load a data = .cut m .notBytes := by
  obtain ⟨v, hv, noByte⟩ := h
  rw [load, mapM_byte?_eq_none_iff.mpr ⟨v, hv, byte?_eq_none_iff.mpr noByte⟩]

/-- Data and the address that it is for. -/
structure Laying where
  address : Int
  data : List Int

/-- Lay data one after the other, passing over what is refused. -/
def layAll (m : Memory) (layings : List Laying) : Memory :=
  layings.foldl (fun m l => (m.load l.address l.data).state) m

theorem size_le_load (m : Memory) (a : Int) (data : List Int) :
    m.bytes.size ≤ (m.load a data).state.bytes.size := by
  unfold load
  cases data.mapM byte? with
  | none => exact Nat.le_refl _
  | some run => exact size_le_splice m a run

theorem size_le_layAll (m : Memory) (layings : List Laying) :
    m.bytes.size ≤ (m.layAll layings).bytes.size := by
  induction layings generalizing m with
  | nil => exact Nat.le_refl _
  | cons l ls ih => exact Nat.le_trans (size_le_load m l.address l.data) (ih _)

/-- **Laying data never shortens a memory.** Bytes that are laid at an address are in memory as one
block between what was there before them and behind them; the size is the same exactly if they are
within the array, and then they stand at their place and nothing else has changed. Data that is not
all bytes is refused. So whatever was laid anywhere, a mask of twelve bits leaves every address
within the memory. -/
theorem load_laid (m : Memory) (a : Int) :
    (∀ run : List UInt8, ∃ m', m.load a (run.map fun b => (b.toNat : Int)) = .done m'
      ∧ m.Laid a run m') ∧
    (∀ data : List Int, (∃ v ∈ data, ¬(0 ≤ v ∧ v < 256)) → m.load a data = .cut m .notBytes) ∧
    ∀ (layings : List Laying) (b : Int), m.bytes.size ≤ (m.layAll layings).bytes.size
      ∧ 0 ≤ Number.land b 0xFFF ∧ Number.land b 0xFFF < (m.layAll layings).bytes.size := by
  refine ⟨fun run => ⟨_, m.load_bytes a run, m.laid_splice a run⟩,
    fun data refused => load_refused refused m a, fun layings b => ?_⟩
  have cell := cell_lt b
  have reaches := m.reaches
  have grown := size_le_layAll m layings
  rw [← cell_eq_land]
  exact ⟨grown, by omega, by omega⟩

/-- Two bytes counted from the end. One place before the end they cover what was there; at the end
the place behind them is zero, and they lengthen the memory. -/
theorem load_laid_fromEnd :
    blank.bytes.size = 4096 ∧ (blank.load (-3) [7, 8]).state.bytes.size = 4096
      ∧ (blank.load (-3) [7, 8]).state.bytes[4094]? = some 8
      ∧ (blank.load (-3) [7, 8]).state.bytes[4095]? = blank.bytes[4095]?
      ∧ (blank.load (-2) [7, 8]).state.bytes.size ≠ 4096
      ∧ (∃ v ∈ [(7 : Int), 256], ¬(0 ≤ v ∧ v < 256))
      ∧ blank.load 0 [7, 256] = .cut blank .notBytes := by
  have size : blank.bytes.size = 4096 := (Machine.wellFormed_initial ⟨fun _ => 0, 0⟩).memory
  have noByte : ∃ v ∈ [(7 : Int), 256], ¬(0 ≤ v ∧ v < 256) := ⟨256, by decide, by decide⟩
  have bytes : [7, 8] = ([7, 8] : List UInt8).map fun b => (b.toNat : Int) := by decide
  obtain ⟨covered, done, laid⟩ := (load_laid blank (-3)).1 [7, 8]
  obtain ⟨longer, done', laid'⟩ := (load_laid blank (-2)).1 [7, 8]
  rw [← bytes] at done done'
  have within : Within blank.bytes.size (-3) ([7, 8] : List UInt8).length := by
    rw [size]
    exact .inr (.inr (by decide))
  have outside : ¬ Within blank.bytes.size (-2) ([7, 8] : List UInt8).length := by
    rw [size]
    unfold Within
    decide
  have origin : origin blank.bytes.size (-3) = 4093 := by
    rw [size]
    rfl
  have place := laid.place within
  rw [origin] at place
  rw [done, done', ← size]
  exact ⟨rfl, laid.size_iff.mpr within, place 4094, place 4095, mt laid'.size_iff.mp outside,
    noByte, (load_laid blank 0).2.1 _ noByte⟩

end Memory
end Chip8Vm
